import Mathlib.Data.List.Induction
import TwoPass.Proofs.FixupOrder

/-! # Where cells come from

An image is made by adding cells at its end and giving new values to cells that it has. So
the line of a cell is that of the statement which added it, whatever is done afterwards.
The lines can be kept apart from the cells as well, one for each instruction and one for
each run of data: the run that starts last at or before an offset is the only one that can
hold the cell there. -/

namespace TwoPass

/-! ## Cells at the end of an image -/

namespace Image

theorem eq_of_toList_eq {image other : Image} (same : image.cells.toList = other.cells.toList) :
    image = other := by
  cases image
  cases other
  exact congrArg Image.mk (Array.toList_inj.mp same)

section Push

variable (image : Image) (kind : CellKind) (line : SourceLine) (values : List (Option Nat))

theorem toList_push :
    (image.push kind line values).cells.toList =
      image.cells.toList ++ values.map fun value => Cell.mk value kind line :=
  Array.toList_appendList

theorem getElem?_push (offset : Nat) :
    (image.push kind line values).cells[offset]? =
      if offset < image.size then image.cells[offset]?
      else values[offset - image.size]?.map fun value => ⟨value, kind, line⟩ := by
  rw [← Array.getElem?_toList, toList_push, List.getElem?_append, List.getElem?_map,
    Array.getElem?_toList, Array.length_toList]
  rfl

theorem size_push : (image.push kind line values).size = image.size + values.length := by
  have length := congrArg List.length (toList_push image kind line values)
  rwa [List.length_append, List.length_map] at length

theorem line?_push (offset : Nat) :
    (image.push kind line values).line? offset =
      if offset < image.size then image.line? offset
      else if offset < image.size + values.length then some line else none := by
  rw [line?, getElem?_push]
  split
  · rfl
  · split
    · have present : offset - image.size < values.length := by omega
      rw [List.getElem?_eq_getElem present]
      rfl
    · rw [List.getElem?_eq_none (by omega)]
      rfl

theorem codeLine?_push (offset : Nat) :
    (image.push kind line values).codeLine? offset =
      if offset < image.size then image.codeLine? offset
      else if offset < image.size + values.length ∧ kind = .instruction then some line
      else none := by
  rw [codeLine?, getElem?_push]
  split
  · rfl
  · by_cases present : offset < image.size + values.length
    · have inside : offset - image.size < values.length := by omega
      rw [List.getElem?_eq_getElem inside]
      cases kind <;> simp [present]
    · rw [List.getElem?_eq_none (by omega)]
      simp [present]

end Push

theorem line?_of_size_le {image : Image} {offset : Nat} (beyond : image.size ≤ offset) :
    image.line? offset = none ∧ image.codeLine? offset = none := by
  have absent : image.cells[offset]? = none := Array.getElem?_eq_none beyond
  constructor
  · rw [line?, absent]
    rfl
  · rw [codeLine?, absent]
    rfl

theorem line?_eq_ite (image : Image) (offset : Nat) :
    image.line? offset = if offset < image.size then image.line? offset else none := by
  split
  · rfl
  · exact (line?_of_size_le (by omega)).1

theorem codeLine?_eq_ite (image : Image) (offset : Nat) :
    image.codeLine? offset = if offset < image.size then image.codeLine? offset else none := by
  split
  · rfl
  · exact (line?_of_size_le (by omega)).2

/-! ## Cells with other values -/

theorem getElem?_overwrite_range (image : Image) (offset : Nat) (values : List (Option Nat))
    (place : Nat) :
    (image.overwrite offset values).cells[place]? =
      image.cells[place]?.map fun cell =>
        if offset ≤ place ∧ place < offset + values.length then
          { cell with value := values[place - offset]?.join }
        else
          cell := by
  rw [getElem?_overwrite]
  congr 1
  funext cell
  by_cases reached : offset ≤ place
  · by_cases within : place < offset + values.length
    · have present : place - offset < values.length := by omega
      simp [overwritten, reached, within, present]
    · have absent : values.length ≤ place - offset := by omega
      simp [overwritten, reached, within, absent]
  · simp [overwritten, reached]

theorem getElem?_patch (image : Image) (offset : Nat) (words : List Nat) (place : Nat) :
    (image.patch offset words).cells[place]? =
      image.cells[place]?.map fun cell =>
        if offset ≤ place ∧ place < offset + words.length then
          { cell with value := words[place - offset]? }
        else
          cell := by
  have flat (value : Option Nat) : (value.map some).join = value := by
    cases value <;> rfl
  rw [patch, getElem?_overwrite_range]
  simp only [List.length_map, List.getElem?_map, flat]

theorem getElem?_markFailed (image : Image) (offset length place : Nat) :
    (image.markFailed offset length).cells[place]? =
      image.cells[place]?.map fun cell =>
        if offset ≤ place ∧ place < offset + length then { cell with value := none }
        else cell := by
  have nothing : (List.replicate length (none : Option Nat))[place - offset]?.join = none := by
    rw [List.getElem?_replicate]
    split <;> rfl
  rw [markFailed, getElem?_overwrite_range]
  simp only [List.length_replicate, nothing]

end Image

/-! ## Histories of an image -/

inductive Edit where
  /-- Add a cell for an instruction, without a value if it could not be encoded. -/
  | instruction (value : Option Nat) (line : SourceLine)
  | data (words : List Nat) (line : SourceLine)
  | failedData (count : Nat) (line : SourceLine)
  | patch (offset : Nat) (words : List Nat)
  | markFailed (offset length : Nat)

namespace Edit

def apply (image : Image) : Edit → Image
  | .instruction value line => image.push .instruction line [value]
  | .data words line => image.push .data line (words.map some)
  | .failedData count line => image.push .data line (List.replicate count none)
  | .patch offset words => image.patch offset words
  | .markFailed offset length => image.markFailed offset length

def line? : Edit → Option SourceLine
  | .instruction _ line | .data _ line | .failedData _ line => some line
  | .patch _ _ | .markFailed _ _ => none

def codeLine? : Edit → Option SourceLine
  | .instruction _ line => some line
  | .data _ _ | .failedData _ _ | .patch _ _ | .markFailed _ _ => none

def room : Edit → Nat
  | .instruction _ _ => 1
  | .data words _ => words.length
  | .failedData count _ => count
  | .patch _ _ | .markFailed _ _ => 0

variable (image : Image) (edit : Edit)

theorem size_apply : (edit.apply image).size = image.size + edit.room := by
  cases edit with
  | instruction value line => exact Image.size_push ..
  | data words line => exact (Image.size_push ..).trans (by rw [List.length_map, room])
  | failedData count line => exact (Image.size_push ..).trans (by rw [List.length_replicate, room])
  | patch offset words => exact Image.size_overwrite ..
  | markFailed offset length => exact Image.size_overwrite ..

/-- An edit keeps the lines of the cells that are there, and gives its own line to those
that it adds. -/
theorem line?_apply (offset : Nat) :
    (edit.apply image).line? offset =
      if offset < image.size then image.line? offset
      else if offset < image.size + edit.room then edit.line? else none := by
  cases edit with
  | instruction value line => exact Image.line?_push ..
  | data words line =>
      rw [apply, Image.line?_push, List.length_map]
      rfl
  | failedData count line =>
      rw [apply, Image.line?_push, List.length_replicate]
      rfl
  | patch start words =>
      rw [line?, ite_self, ← image.line?_eq_ite]
      exact Image.line?_overwrite ..
  | markFailed start length =>
      rw [line?, ite_self, ← image.line?_eq_ite]
      exact Image.line?_overwrite ..

theorem codeLine?_apply (offset : Nat) :
    (edit.apply image).codeLine? offset =
      if offset < image.size then image.codeLine? offset
      else if offset < image.size + edit.room then edit.codeLine? else none := by
  cases edit with
  | instruction value line =>
      rw [apply, Image.codeLine?_push]
      simp only [and_true]
      rfl
  | data words line => simp [apply, Image.codeLine?_push, codeLine?]
  | failedData count line => simp [apply, Image.codeLine?_push, codeLine?]
  | patch start words =>
      rw [codeLine?, ite_self, ← image.codeLine?_eq_ite]
      exact Image.codeLine?_overwrite ..
  | markFailed start length =>
      rw [codeLine?, ite_self, ← image.codeLine?_eq_ite]
      exact Image.codeLine?_overwrite ..

end Edit

namespace Image

def ofEdits (edits : List Edit) : Image :=
  edits.foldl Edit.apply {}

/-- The edit that added the cell at an offset: there was no such cell before it, and there is
one after it. -/
def AddedBy (edits : List Edit) (offset : Nat) (edit : Edit) : Prop :=
  ∃ earlier later, edits = earlier ++ edit :: later ∧
    (ofEdits earlier).size ≤ offset ∧ offset < (ofEdits (earlier ++ [edit])).size

theorem ofEdits_concat (edits : List Edit) (edit : Edit) :
    ofEdits (edits ++ [edit]) = edit.apply (ofEdits edits) :=
  List.foldl_concat ..

variable {edits : List Edit} {edit : Edit} {offset : Nat}

theorem kept_by_edits (edits : List Edit) {image : Image} (present : offset < image.size) :
    let after := edits.foldl Edit.apply image
    offset < after.size ∧ after.line? offset = image.line? offset ∧
      after.codeLine? offset = image.codeLine? offset := by
  induction edits generalizing image with
  | nil => exact ⟨present, rfl, rfl⟩
  | cons edit edits induction =>
      have still : offset < (edit.apply image).size := by
        rw [Edit.size_apply]
        omega
      rcases induction still with ⟨inside, line, code⟩
      refine ⟨inside, line.trans ?_, code.trans ?_⟩
      · rw [Edit.line?_apply, if_pos present]
      · rw [Edit.codeLine?_apply, if_pos present]

theorem AddedBy.lines (added : AddedBy edits offset edit) :
    offset < (ofEdits edits).size ∧ (ofEdits edits).line? offset = edit.line? ∧
      (ofEdits edits).codeLine? offset = edit.codeLine? := by
  rcases added with ⟨earlier, later, rfl, absent, present⟩
  have whole : ofEdits (earlier ++ edit :: later) =
      later.foldl Edit.apply (ofEdits (earlier ++ [edit])) := by
    rw [ofEdits, ofEdits, List.foldl_append, List.foldl_append]
    rfl
  have kept := kept_by_edits later present
  rw [ofEdits_concat] at whole kept present
  rw [Edit.size_apply] at present
  rw [whole]
  refine ⟨kept.1, kept.2.1.trans ?_, kept.2.2.trans ?_⟩
  · rw [Edit.line?_apply, if_neg (by omega), if_pos present]
  · rw [Edit.codeLine?_apply, if_neg (by omega), if_pos present]

theorem AddedBy.exists_line (added : AddedBy edits offset edit) :
    ∃ line, edit.line? = some line := by
  rcases added with ⟨earlier, later, -, absent, present⟩
  rw [ofEdits_concat, Edit.size_apply] at present
  have adds : 0 < edit.room := by omega
  cases edit with
  | instruction value line => exact ⟨line, rfl⟩
  | data words line => exact ⟨line, rfl⟩
  | failedData count line => exact ⟨line, rfl⟩
  | patch start words => cases adds
  | markFailed start length => cases adds

theorem exists_addedBy (edits : List Edit) (present : offset < (ofEdits edits).size) :
    ∃ edit, AddedBy edits offset edit := by
  induction edits using List.reverseRecOn with
  | nil => exact absurd present (Nat.not_lt_zero _)
  | append_singleton edits last induction =>
      by_cases before : offset < (ofEdits edits).size
      · rcases induction before with ⟨edit, earlier, later, rfl, absent, added⟩
        refine ⟨edit, earlier, later ++ [last], ?_, absent, added⟩
        rw [List.append_assoc]
        rfl
      · exact ⟨last, edits, [], rfl, by omega, present⟩

end Image

theorem Image.source_emit (image : Image) (offset : Nat) :
    image.emit[offset]?.bind (·.source) = (image.codeLine? offset).map (·.text) := by
  rw [emit, List.getElem?_map, codeLine?, Array.getElem?_toList]
  cases image.cells[offset]? with
  | none => rfl
  | some cell =>
      rcases cell with ⟨value, kind, line⟩
      cases kind <;> rfl

/-! ## Histories of a program -/

def Placement.edit (placement : Placement) (profile : Profile) (labels : Labels) : Edit :=
  match placement.statement, placement.encode profile labels with
  | .instruction _ _, .ok encoding => .instruction encoding.words.head? placement.line
  | .instruction _ _, .error _ => .instruction none placement.line
  | .storage _ _, .ok encoding => .data encoding.words placement.line
  | .storage _ _, .error _ => .failedData placement.statement.failedLength placement.line

theorem Placement.apply_edit (placement : Placement) (profile : Profile) (labels : Labels)
    (image : Image) :
    (placement.edit profile labels).apply image =
      image.push placement.statement.cellKind placement.line (placement.values profile labels) := by
  rcases placement with ⟨position, line, statement⟩
  have length := Placement.values_length ⟨position, line, statement⟩ profile labels
  unfold edit values
  unfold values at length
  cases statement with
  | storage kind operands => cases encode ⟨position, line, _⟩ profile labels <;> rfl
  | instruction mnemonic operands =>
      cases encoded : encode ⟨position, line, .instruction mnemonic operands⟩ profile labels with
      | error problem => rfl
      | ok encoding =>
          rw [encoded, List.length_map] at length
          rcases List.length_eq_one_iff.mp length with ⟨word, single⟩
          simp only [single]
          rfl

theorem Placement.cells_of_edits (statements : List Placement) (profile : Profile)
    (labels : Placement → Labels) (image : Image) :
    ((statements.map fun placement => placement.edit profile (labels placement)).foldl Edit.apply
        image).cells.toList =
      image.cells.toList ++ statements.flatMap fun placement =>
        placement.cells profile (labels placement) := by
  induction statements generalizing image with
  | nil => exact (List.append_nil _).symm
  | cons placement statements induction =>
      rw [List.map_cons, List.foldl_cons, induction, placement.apply_edit, Image.toList_push,
        List.append_assoc]
      rfl

def Resolution.edit (resolution : Resolution) : Edit :=
  match resolution.outcome with
  | .ok words => .patch resolution.fixup.offset words
  | .error _ => .markFailed resolution.fixup.offset resolution.fixup.length

theorem Resolution.apply_edit (resolution : Resolution) (image : Image) :
    resolution.edit.apply image = resolution.apply image := by
  unfold edit apply
  cases resolution.outcome <;> rfl

def Run.additions (options : Options) (source : String) : List Edit :=
  ((Outline.ofSource options source).placements options.profile).map fun placement =>
    placement.edit options.profile (placement.known (Run.ofSource options source).scan.start)

/-- The two passes over a program as a history of its image: the first adds cells, and the
second gives values to some of them. -/
def Run.edits (options : Options) (source : String) : List Edit :=
  additions options source ++ (Run.ofSource options source).resolutions.map Resolution.edit

theorem Run.scan_image_eq_ofEdits (options : Options) (source : String) :
    (Run.ofSource options source).scan.image = Image.ofEdits (additions options source) := by
  apply Image.eq_of_toList_eq
  have cells := Scan.ofLines_cells options (SourceLine.ofText source)
  rw [Image.ofEdits, additions, Placement.cells_of_edits]
  exact cells.trans (List.nil_append _).symm

theorem Run.image_eq_ofEdits (options : Options) (source : String) :
    (Run.ofSource options source).image = Image.ofEdits (edits options source) := by
  rw [edits, Image.ofEdits, List.foldl_append, ← Image.ofEdits, ← scan_image_eq_ofEdits,
    List.foldl_map]
  simp only [Resolution.apply_edit]
  rfl

/-! ## Lines apart from cells -/

/-- The cells from `first` up to, but not including, `finish` hold the data of one line. -/
structure DataRun where
  first : Nat
  finish : Nat
  line : SourceLine

/-- The lines of an image by offset: those of instructions one by one, those of data by runs. -/
structure LineIndex where
  length : Nat := 0
  code : List (Nat × SourceLine) := []
  runs : List DataRun := []

namespace LineIndex

def codeLine? (index : LineIndex) (offset : Nat) : Option SourceLine :=
  (index.code.find? (·.1 == offset)).map (·.2)

def runBefore? (index : LineIndex) (offset : Nat) : Option DataRun :=
  (index.runs.filter (·.first ≤ offset)).getLast?

/-- The line of an instruction, or else of the run before an offset if it reaches so far. -/
def line? (index : LineIndex) (offset : Nat) : Option SourceLine :=
  (index.codeLine? offset).or
    (((index.runBefore? offset).filter (offset < ·.finish)).map (·.line))

def addCode (index : LineIndex) (line : SourceLine) : LineIndex :=
  { index with length := index.length + 1, code := index.code ++ [(index.length, line)] }

def addRun (index : LineIndex) (count : Nat) (line : SourceLine) : LineIndex :=
  if 0 < count then
    let finish := index.length + count
    { index with length := finish, runs := index.runs ++ [⟨index.length, finish, line⟩] }
  else
    index

def record (index : LineIndex) : Edit → LineIndex
  | .instruction _ line => index.addCode line
  | .data words line => index.addRun words.length line
  | .failedData count line => index.addRun count line
  | .patch _ _ | .markFailed _ _ => index

def ofEdits (edits : List Edit) : LineIndex :=
  edits.foldl record {}

/-- An index that says of every offset what the image says. Its runs end where the image
does, so that they hold no cell which is yet to be added. -/
structure Describes (index : LineIndex) (image : Image) : Prop where
  length : index.length = image.size
  runs_le : ∀ run ∈ index.runs, run.finish ≤ index.length
  code : ∀ offset, index.codeLine? offset = image.codeLine? offset
  line : ∀ offset, index.line? offset = image.line? offset

variable {index : LineIndex} {image : Image}

theorem Describes.lines_of_le (describes : index.Describes image) {offset : Nat}
    (beyond : index.length ≤ offset) :
    index.line? offset = none ∧ index.codeLine? offset = none := by
  rw [describes.line, describes.code]
  exact Image.line?_of_size_le (describes.length ▸ beyond)

/-- No run reaches beyond the end, so none that is on record holds a new cell. -/
theorem Describes.filter_runBefore? (describes : index.Describes image) {offset : Nat}
    (beyond : index.length ≤ offset) :
    (index.runBefore? offset).filter (offset < ·.finish) = none := by
  rw [Option.filter_eq_none_iff]
  intro run found
  have member : run ∈ index.runs := (List.mem_filter.mp (List.mem_of_getLast? found)).1
  have ends := describes.runs_le run member
  simp
  omega

theorem describes_empty : Describes {} {} where
  length := rfl
  runs_le _ member := absurd member List.not_mem_nil
  code _ := rfl
  line _ := rfl

/-- What `Edit.line?_apply` and `Edit.codeLine?_apply` ask of an index after an edit. -/
theorem Describes.of_lookups {edit : Edit} {after : LineIndex}
    (describes : index.Describes image) (length : after.length = index.length + edit.room)
    (runs_le : ∀ run ∈ after.runs, run.finish ≤ after.length)
    (code : ∀ offset, after.codeLine? offset =
      if offset < index.length then index.codeLine? offset
      else if offset < index.length + edit.room then edit.codeLine? else none)
    (line : ∀ offset, after.line? offset =
      if offset < index.length then index.line? offset
      else if offset < index.length + edit.room then edit.line? else none) :
    after.Describes (edit.apply image) where
  length := by rw [length, Edit.size_apply, describes.length]
  runs_le := runs_le
  code offset := by rw [code, Edit.codeLine?_apply, describes.code, describes.length]
  line offset := by rw [line, Edit.line?_apply, describes.line, describes.length]

theorem Describes.of_room_eq_zero (describes : index.Describes image) {edit : Edit}
    (nothing : edit.room = 0) : index.Describes (edit.apply image) := by
  apply describes.of_lookups (by omega) describes.runs_le
  · intro offset
    split
    · rfl
    · rw [if_neg (by omega), (describes.lines_of_le (by omega)).2]
  · intro offset
    split
    · rfl
    · rw [if_neg (by omega), (describes.lines_of_le (by omega)).1]

theorem codeLine?_addCode (index : LineIndex) (line : SourceLine) (offset : Nat) :
    (index.addCode line).codeLine? offset =
      (index.codeLine? offset).or (if index.length = offset then some line else none) := by
  simp only [addCode, codeLine?, List.find?_append, Option.map_or]
  by_cases here : index.length = offset
  · simp [here]
  · simp [here]

theorem Describes.addCode (describes : index.Describes image) (value : Option Nat)
    (line : SourceLine) :
    (index.addCode line).Describes (Edit.apply image (.instruction value line)) := by
  have code (offset : Nat) : (index.addCode line).codeLine? offset =
      if offset < index.length then index.codeLine? offset
      else if offset < index.length + 1 then some line else none := by
    rw [codeLine?_addCode]
    by_cases old : offset < index.length
    · rw [if_pos old, if_neg (by omega), Option.or_none]
    · rw [if_neg old, (describes.lines_of_le (by omega)).2, Option.none_or]
      by_cases here : index.length = offset
      · rw [if_pos here, if_pos (by omega)]
      · rw [if_neg here, if_neg (by omega)]
  apply describes.of_lookups rfl
  · intro run member
    exact Nat.le_succ_of_le (describes.runs_le run member)
  · exact code
  · intro offset
    rw [line?, code]
    by_cases old : offset < index.length
    · rw [if_pos old, if_pos old]
      rfl
    · have unreached : ((index.addCode line).runBefore? offset).filter (offset < ·.finish) = none :=
        describes.filter_runBefore? (Nat.le_of_not_lt old)
      rw [if_neg old, if_neg old, unreached, Option.map_none, Option.or_none]
      rfl

theorem runBefore?_addRun {count : Nat} (nonempty : 0 < count) (index : LineIndex)
    (line : SourceLine) (offset : Nat) :
    (index.addRun count line).runBefore? offset =
      if index.length ≤ offset then some ⟨index.length, index.length + count, line⟩
      else index.runBefore? offset := by
  rw [LineIndex.addRun, if_pos nonempty]
  simp only [runBefore?, List.filter_append]
  by_cases new : index.length ≤ offset
  · simp [new]
  · simp [new]

theorem Describes.addRun (describes : index.Describes image) (edit : Edit) {line : SourceLine}
    (spelled : edit.line? = some line) (data : edit.codeLine? = none) :
    (index.addRun edit.room line).Describes (edit.apply image) := by
  by_cases nonempty : 0 < edit.room
  · have added : index.addRun edit.room line =
        { index with
          length := index.length + edit.room
          runs := index.runs ++ [⟨index.length, index.length + edit.room, line⟩] } :=
      if_pos nonempty
    have code (offset : Nat) :
        (index.addRun edit.room line).codeLine? offset = index.codeLine? offset := by
      rw [added]
      rfl
    apply describes.of_lookups
    · rw [added]
    · rw [added]
      intro run member
      rcases List.mem_append.mp member with old | new
      · exact Nat.le_add_right_of_le (describes.runs_le run old)
      · rcases List.mem_singleton.mp new with rfl
        exact Nat.le_refl _
    · intro offset
      rw [code, data, ite_self]
      by_cases old : offset < index.length
      · rw [if_pos old]
      · rw [if_neg old, (describes.lines_of_le (by omega)).2]
    · intro offset
      rw [line?, code, runBefore?_addRun nonempty, spelled]
      -- From its first cell on the new run is the last to start, and hides those before it.
      by_cases old : offset < index.length
      · rw [if_pos old, if_neg (by omega)]
        rfl
      · rw [if_neg old, if_pos (by omega), (describes.lines_of_le (by omega)).2, Option.none_or]
        by_cases inside : offset < index.length + edit.room
        · simp [inside]
        · simp [inside, Nat.le_of_not_lt inside]
  · rw [LineIndex.addRun, if_neg nonempty]
    exact describes.of_room_eq_zero (by omega)

theorem Describes.record (describes : index.Describes image) (edit : Edit) :
    (index.record edit).Describes (edit.apply image) := by
  cases edit with
  | instruction value line => exact describes.addCode value line
  | data words line => exact describes.addRun (.data words line) rfl rfl
  | failedData count line => exact describes.addRun (.failedData count line) rfl rfl
  | patch offset words => exact describes.of_room_eq_zero rfl
  | markFailed offset length => exact describes.of_room_eq_zero rfl

theorem describes_ofEdits (edits : List Edit) :
    (ofEdits edits).Describes (Image.ofEdits edits) := by
  induction edits using List.reverseRecOn with
  | nil => exact describes_empty
  | append_singleton edits edit induction =>
      rw [ofEdits, List.foldl_concat, Image.ofEdits_concat]
      exact induction.record edit

end LineIndex

/-- Every cell has the line of the edit that added it, and that line is the line of an
instruction exactly if the edit added one; it is what the emitted word goes by, and what is
found by searching the runs. No cell beyond the end has a line. Other edits change the
values of the cells in their range, and nothing else. The image of every program has a
history of such edits. -/
theorem cells_keep_their_lines :
    (∀ edits : List Edit,
      let image := Image.ofEdits edits
      let index := LineIndex.ofEdits edits
      (∀ offset, offset < image.size ↔ ∃ edit, Image.AddedBy edits offset edit) ∧
      (∀ offset edit, Image.AddedBy edits offset edit →
        (∃ line, edit.line? = some line) ∧
        image.line? offset = edit.line? ∧ image.codeLine? offset = edit.codeLine?) ∧
      (∀ offset, image.size ≤ offset →
        image.line? offset = none ∧ image.codeLine? offset = none) ∧
      (∀ offset, index.line? offset = image.line? offset ∧
        index.codeLine? offset = image.codeLine? offset) ∧
      (∀ offset,
        image.emit[offset]?.bind (·.source) = (image.codeLine? offset).map (·.text)) ∧
      (∀ offset words,
        let patched := image.patch offset words
        patched.size = image.size ∧ patched.line? = image.line? ∧
        patched.codeLine? = image.codeLine? ∧
        ∀ place, patched.cells[place]? = image.cells[place]?.map fun cell =>
          if offset ≤ place ∧ place < offset + words.length then
            { cell with value := words[place - offset]? }
          else
            cell) ∧
      ∀ offset length,
        let marked := image.markFailed offset length
        marked.size = image.size ∧ marked.line? = image.line? ∧
        marked.codeLine? = image.codeLine? ∧
        ∀ place, marked.cells[place]? = image.cells[place]?.map fun cell =>
          if offset ≤ place ∧ place < offset + length then { cell with value := none }
          else cell) ∧
    ∀ options source,
      let run := Run.ofSource options source
      ∃ added : List Edit, run.scan.image = Image.ofEdits added ∧
        run.image = Image.ofEdits (added ++ run.resolutions.map Resolution.edit) := by
  refine ⟨fun edits => ?_, fun options source => ⟨Run.additions options source,
    Run.scan_image_eq_ofEdits options source, Run.image_eq_ofEdits options source⟩⟩
  intro image index
  have describes : index.Describes image := LineIndex.describes_ofEdits edits
  refine ⟨fun offset => ⟨Image.exists_addedBy edits, ?_⟩, fun offset edit added => ?_,
    fun offset => Image.line?_of_size_le,
    fun offset => ⟨describes.line offset, describes.code offset⟩, Image.source_emit image,
    fun offset words => ?_, fun offset length => ?_⟩
  · intro added
    rcases added with ⟨edit, added⟩
    exact added.lines.1
  · exact ⟨added.exists_line, added.lines.2⟩
  · exact ⟨Image.size_overwrite .., funext fun _ => Image.line?_overwrite ..,
      funext fun _ => Image.codeLine?_overwrite .., Image.getElem?_patch image offset words⟩
  · exact ⟨Image.size_overwrite .., funext fun _ => Image.line?_overwrite ..,
      funext fun _ => Image.codeLine?_overwrite .., Image.getElem?_markFailed image offset length⟩

/-- No cells, two runs of data with an instruction between them, then two changes that
overlap. -/
theorem cells_keep_their_lines_of_runs :
    let line (number : Nat) : SourceLine := ⟨number, ""⟩
    let edits : List Edit :=
      [.data [] (line 0), .data [1, 2, 3] (line 1), .instruction (some 4) (line 2),
        .failedData 2 (line 3), .patch 1 [7, 8], .markFailed 0 2]
    let image := Image.ofEdits edits
    image.cells.toList.map Cell.value = [none, none, some 8, some 4, none, none] ∧
    Image.AddedBy edits 2 (.data [1, 2, 3] (line 1)) ∧ image.line? 2 = some (line 1) ∧
    image.codeLine? 2 = none ∧
    Image.AddedBy edits 3 (.instruction (some 4) (line 2)) ∧ image.line? 3 = some (line 2) ∧
    image.codeLine? 3 = some (line 2) ∧
    image.size ≤ 6 ∧ image.line? 6 = none := by
  intro line edits image
  rcases cells_keep_their_lines.1 edits with ⟨-, added, beyond, -⟩
  have data : Image.AddedBy edits 2 (.data [1, 2, 3] (line 1)) :=
    ⟨[.data [] (line 0)], _, rfl, by decide, by decide⟩
  have code : Image.AddedBy edits 3 (.instruction (some 4) (line 2)) :=
    ⟨[.data [] (line 0), .data [1, 2, 3] (line 1)], _, rfl, by decide, by decide⟩
  rcases added 2 _ data with ⟨-, dataLine, noCode⟩
  rcases added 3 _ code with ⟨-, codeLine, isCode⟩
  have size : image.size ≤ 6 := by decide
  exact ⟨by decide, data, dataLine, noCode, code, codeLine, isCode, size, (beyond 6 size).1⟩

end TwoPass
