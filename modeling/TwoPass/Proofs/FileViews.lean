import TwoPass.Command.FileTree
import TwoPass.Proofs.Except

/-! # Views of files

Names stand for files, and a file that exists has a content. A view tells which, in every
state of the surroundings, and what each access does to them: reading does nothing, and
writing replaces one content or fails and does nothing. Neither changes what names stand
for. The files of a tree are seen by their paths. -/

namespace TwoPass

structure FileView (File : Type) {State : Type} (files : FileAccess (StateM State)) where
  /-- The file that a name stands for, which need not exist. -/
  denoted? : State → FileName → Option File
  content? : State → File → Option (List UInt8)
  read_keeps : ∀ name state, (files.read name state).2 = state
  refused_keeps : ∀ {name content state after error},
    files.write name content state = (.error error, after) → after = state
  write_replaces : ∀ {name content state after},
    files.write name content state = (.ok (), after) →
      ∃ file, denoted? state name = some file ∧ content? after file = some content ∧
        ∀ other, other ≠ file → content? after other = content? state other
  write_keeps_names : ∀ {name content state after},
    files.write name content state = (.ok (), after) →
      ∀ other, denoted? after other = denoted? state other

namespace FileTree

/-! ## Entries of a tree -/

theorem lookup_replace_self {entries : List (Path × Entry)} {path : Path}
    (present : entries.any (·.1 == path)) (entry : Entry) :
    (entries.map fun old => if old.1 == path then (path, entry) else old).lookup path =
      some entry := by
  induction entries with
  | nil => cases present
  | cons old entries induction =>
      rw [List.map_cons]
      by_cases here : old.1 == path
      · rw [if_pos here]
        exact List.lookup_cons_self
      · have elsewhere : (path == old.1) = false := by
          rw [BEq.comm]
          exact Bool.eq_false_iff.mpr here
        rw [if_neg here, List.lookup_cons, elsewhere]
        apply induction
        simpa [here] using present

theorem lookup_replace_other (entries : List (Path × Entry)) {path other : Path}
    (different : other ≠ path) (entry : Entry) :
    (entries.map fun old => if old.1 == path then (path, entry) else old).lookup other =
      entries.lookup other := by
  induction entries with
  | nil => rfl
  | cons old entries induction =>
      rw [List.map_cons, List.lookup_cons, List.lookup_cons, induction]
      by_cases here : old.1 == path
      · have elsewhere : other ≠ old.1 := by rwa [eq_of_beq here]
        rw [if_pos here, beq_eq_false_iff_ne.mpr different, beq_eq_false_iff_ne.mpr elsewhere]
      · rw [if_neg here]

theorem lookup_insert (tree : FileTree) (path : Path) (entry : Entry) (other : Path) :
    (tree.insert path entry).entries.lookup other =
      if other = path then some entry else tree.entries.lookup other := by
  unfold insert
  by_cases present : tree.entries.any (·.1 == path)
  · rw [if_pos present]
    split
    case isTrue same =>
      rw [same]
      exact lookup_replace_self present entry
    case isFalse different => exact lookup_replace_other tree.entries different entry
  · rw [if_neg present]
    rw [List.lookup_append]
    split
    case isTrue same =>
      have absent : tree.entries.lookup path = none := by
        rw [List.lookup_eq_none_iff]
        intro old member
        simp only [List.any_eq_true, not_exists, not_and] at present
        simpa [BEq.comm] using present old member
      rw [same, absent]
      simp
    case isFalse different =>
      have skipped : List.lookup other [(path, entry)] = none := by
        rw [List.lookup_cons, beq_eq_false_iff_ne.mpr different]
        rfl
      rw [skipped, Option.or_none]

theorem insert_workingDirectory (tree : FileTree) (path : Path) (entry : Entry) :
    (tree.insert path entry).workingDirectory = tree.workingDirectory := by
  unfold insert
  split <;> rfl

section

variable {tree : FileTree} {path : Path} (free : tree.entry? path ≠ some .directory)
include free

theorem entry?_insert (entry : Entry) (other : Path) :
    entry? (tree.insert path entry) other =
      if other = path then some entry else tree.entry? other := by
  cases other with
  | nil =>
      have below : [] ≠ path := by
        rintro rfl
        exact free rfl
      rw [if_neg below]
      rfl
  | cons first rest => exact lookup_insert tree path entry (first :: rest)

theorem directory_insert_iff (content : List UInt8) (other : Path) :
    entry? (tree.insert path (.file content)) other = some .directory ↔
      tree.entry? other = some .directory := by
  rw [entry?_insert free]
  split
  case isTrue same =>
    rw [same]
    exact ⟨nofun, fun directory => absurd directory free⟩
  case isFalse => exact Iff.rfl

end

/-! ## Names in a tree -/

theorem walk_of_closed {tree : FileTree} {directory : Path} {component : List UInt8}
    (named : ¬ (component.isEmpty ∨ component = currentName)) (down : component ≠ parentName)
    (closed : tree.entry? (directory ++ [component]) ≠ some .directory)
    (rest : List (List UInt8)) :
    ∃ error, tree.walk directory (component :: rest) = .error error := by
  rw [walk, if_neg named, if_neg down]
  rcases entry : tree.entry? (directory ++ [component]) with _ | _ | content
  · exact ⟨_, rfl⟩
  · exact absurd entry closed
  · exact ⟨_, rfl⟩

section

variable {tree other : FileTree}
  (same : ∀ path, other.entry? path = some .directory ↔ tree.entry? path = some .directory)
include same

/-- The way along directories depends on nothing but them. -/
theorem walk_of_directories (directory : Path) (components : List (List UInt8)) :
    Alike Eq (other.walk directory components) (tree.walk directory components) := by
  induction components generalizing directory with
  | nil => exact .refl _
  | cons component rest induction =>
      by_cases skipped : component.isEmpty ∨ component = currentName
      · rw [walk, walk, if_pos skipped, if_pos skipped]
        exact induction directory
      · by_cases up : component = parentName
        · rw [walk, walk, if_neg skipped, if_neg skipped, if_pos up, if_pos up]
          exact induction directory.dropLast
        · by_cases opened : tree.entry? (directory ++ [component]) = some .directory
          · rw [walk, walk, if_neg skipped, if_neg skipped, if_neg up, if_neg up, opened,
              (same _).mpr opened]
            exact induction (directory ++ [component])
          · rcases walk_of_closed skipped up opened rest with ⟨error, failed⟩
            rcases walk_of_closed skipped up (mt (same _).mp opened) rest with ⟨another, alsoFailed⟩
            rw [failed, alsoFailed]
            exact .error another error

theorem locate_of_directories (start : other.workingDirectory = tree.workingDirectory)
    (name : FileName) : Alike Eq (other.locate name) (tree.locate name) := by
  unfold locate
  dsimp only
  rw [start]
  split
  · exact .refl _
  · exact (walk_of_directories same _ _).bind_eq fun _ => .refl _

end

/-- The path that a place is at, if its name has the form of one for a file. -/
def Place.path? : Place → Option Path
  | .directory => none
  | .path named _ => some named

def denoted? (tree : FileTree) (name : FileName) : Option Path :=
  (tree.locate name).toOption.bind Place.path?

def content? (tree : FileTree) (path : Path) : Option (List UInt8) :=
  match tree.entry? path with
  | some (.file content) => some content
  | _ => none

/-! ## Writing to a tree -/

theorem write_eq_ok {tree changed : FileTree} {name : FileName} {content : List UInt8}
    (written : tree.write name content = .ok changed) :
    ∃ path, tree.denoted? name = some path ∧ tree.entry? path ≠ some .directory ∧
      changed = tree.insert path (.file content) := by
  rcases bind_eq_ok.mp written with ⟨place, located, stored⟩
  cases place with
  | directory => cases stored
  | path path slashes =>
      dsimp only at stored
      split at stored
      case isTrue => cases stored
      case isFalse allowed =>
        refine ⟨path, ?_, fun directory => allowed (.inr directory), (Except.ok.inj stored).symm⟩
        rw [denoted?, located]
        rfl

theorem access_write_cases (tree : FileTree) (name : FileName) (content : List UInt8) :
    (∃ changed, tree.write name content = .ok changed ∧
      access.write name content tree = (.ok (), changed)) ∨
    ∃ error, access.write name content tree = (.error error, tree) := by
  unfold access
  dsimp only
  cases tree.write name content with
  | ok changed => exact .inl ⟨changed, rfl, rfl⟩
  | error error => exact .inr ⟨error, rfl⟩

theorem access_write_eq_ok {tree changed : FileTree} {name : FileName} {content : List UInt8}
    (written : access.write name content tree = (.ok (), changed)) :
    ∃ path, tree.denoted? name = some path ∧ tree.entry? path ≠ some .directory ∧
      changed = tree.insert path (.file content) := by
  rcases tree.access_write_cases name content with ⟨other, stored, same⟩ | ⟨error, refused⟩
  · cases written.symm.trans same
    exact write_eq_ok stored
  · cases written.symm.trans refused

theorem denoted?_insert {tree : FileTree} {path : Path} (free : tree.entry? path ≠ some .directory)
    (content : List UInt8) (name : FileName) :
    (tree.insert path (.file content)).denoted? name = tree.denoted? name := by
  have located := locate_of_directories (directory_insert_iff free content)
    (tree.insert_workingDirectory path _) name
  rw [denoted?, denoted?, Alike.eq_iff_toOption.mp located]

def view : FileView Path access where
  denoted? := denoted?
  content? := content?
  read_keeps _ _ := rfl
  refused_keeps := by
    intro name content tree after error refused
    rcases tree.access_write_cases name content with ⟨other, -, stored⟩ | ⟨error, same⟩
    · cases refused.symm.trans stored
    · cases refused.symm.trans same
      rfl
  write_replaces := by
    intro name content tree after written
    rcases access_write_eq_ok written with ⟨path, named, free, rfl⟩
    refine ⟨path, named, ?_, fun other different => ?_⟩
    · rw [content?, entry?_insert free, if_pos rfl]
    · rw [content?, content?, entry?_insert free, if_neg different]
  write_keeps_names := by
    intro name content tree after written other
    rcases access_write_eq_ok written with ⟨path, -, free, rfl⟩
    exact denoted?_insert free content other

end FileTree

end TwoPass
