import TwoPass.Proofs.Draft
import TwoPass.Proofs.Outline

/-! # Layout

The outline of a program settles where each statement stands and which labels are
bound before it. What the two passes make of a statement is said here for one
statement at its place; `FirstPass` and `SecondPass` say it for a whole program. -/

namespace TwoPass

/-- Bind a label, unless it must not be one or is bound already. -/
def SymbolTable.bind (table : SymbolTable) (profile : Profile) (name : String) (offset : Nat) :
    Except Problem SymbolTable :=
  if isLabelName name && !profile.isRegister name then
    match table.define? name offset with
    | some bound => .ok bound
    | none => .error (.duplicateLabel name)
  else
    .error (.invalidSymbol name)

structure Position where
  /-- The place of the next word, which is the number of words before it. -/
  offset : Nat := 0
  symbols : SymbolTable := {}
  deriving DecidableEq, Repr

namespace Position

def after (profile : Profile) (position : Position) : Effect → Position
  | .bind name =>
    match position.symbols.bind profile name position.offset with
    | .ok symbols => { position with symbols }
    | .error _ => position
  | .place statement => { position with offset := position.offset + statement.size }
  | .enter _ | .report _ => position

def afterAll (profile : Profile) (position : Position) (actions : List Action) : Position :=
  actions.foldl (fun position action => position.after profile action.effect) position

end Position

theorem Position.afterAll_append (profile : Profile) (position : Position)
    (first second : List Action) :
    position.afterAll profile (first ++ second) =
      (position.afterAll profile first).afterAll profile second :=
  List.foldl_append

/-- A statement that is handed to an encoder, at its place. -/
structure Placement where
  position : Position
  line : SourceLine
  statement : Statement
  deriving DecidableEq, Repr

structure LocatedAction where
  position : Position
  action : Action
  deriving DecidableEq, Repr

namespace LocatedAction

def placement? (located : LocatedAction) : Option Placement :=
  match located.action.effect with
  | .place statement => some ⟨located.position, located.action.line, statement⟩
  | .bind _ | .enter _ | .report _ => none

end LocatedAction

def layout (profile : Profile) : Position → List Action → List LocatedAction
  | _, [] => []
  | position, action :: actions =>
    ⟨position, action⟩ :: layout profile (position.after profile action.effect) actions

def placements (profile : Profile) (position : Position) (actions : List Action) :
    List Placement :=
  (layout profile position actions).filterMap LocatedAction.placement?

theorem filterMap_cons_toList (select : α → Option β) (head : α) (tail : List α) :
    (head :: tail).filterMap select = (select head).toList ++ tail.filterMap select := by
  cases selected : select head <;> simp [selected]

theorem placements_cons (profile : Profile) (position : Position) (action : Action)
    (actions : List Action) :
    placements profile position (action :: actions) =
      (LocatedAction.placement? ⟨position, action⟩).toList ++
        placements profile (position.after profile action.effect) actions :=
  filterMap_cons_toList _ _ _

namespace Outline

def located (outline : Outline) (profile : Profile) : List LocatedAction :=
  layout profile {} outline.actions

def placements (outline : Outline) (profile : Profile) : List Placement :=
  TwoPass.placements profile {} outline.actions

def symbols (outline : Outline) (profile : Profile) : SymbolTable :=
  (Position.afterAll profile {} outline.actions).symbols

def size (outline : Outline) (profile : Profile) : Nat :=
  (Position.afterAll profile {} outline.actions).offset

end Outline

/-! ## Growth of the symbol table -/

theorem SymbolTable.bind_eq_ok {table bound : SymbolTable} {profile : Profile} {name : String}
    {offset : Nat} (binds : table.bind profile name offset = .ok bound) :
    bound.definitions = table.definitions ++ [⟨name, offset⟩] ∧ isLabelName name = true ∧
      profile.isRegister name = false ∧ table.offset? name = none := by
  unfold bind at binds
  split at binds
  · rename_i allowed
    simp only [Bool.and_eq_true, Bool.not_eq_true'] at allowed
    unfold define? at binds
    cases present : table.offset? name with
    | some known => simp [present] at binds
    | none =>
        simp only [present, Except.ok.injEq] at binds
        rw [← binds]
        exact ⟨rfl, allowed.1, allowed.2, rfl⟩
  · cases binds

theorem Position.after_prefix (profile : Profile) (position : Position) (effect : Effect) :
    position.symbols.definitions <+: (position.after profile effect).symbols.definitions := by
  cases effect with
  | bind name =>
      rw [Position.after]
      split
      · rename_i symbols binds
        rw [(SymbolTable.bind_eq_ok binds).1]
        exact List.prefix_append _ _
      · exact List.prefix_rfl
  | place statement => exact List.prefix_rfl
  | enter next => exact List.prefix_rfl
  | report problem => exact List.prefix_rfl

theorem Position.afterAll_prefix (profile : Profile) (position : Position)
    (actions : List Action) :
    position.symbols.definitions <+:
      (position.afterAll profile actions).symbols.definitions := by
  induction actions generalizing position with
  | nil => exact List.prefix_rfl
  | cons action actions induction =>
      exact (position.after_prefix profile action.effect).trans (induction _)

theorem layout_prefix {profile : Profile} {position : Position} {actions : List Action}
    {located : LocatedAction} (member : located ∈ layout profile position actions) :
    located.position.symbols.definitions <+:
      (position.afterAll profile actions).symbols.definitions := by
  induction actions generalizing position with
  | nil => cases member
  | cons action actions induction =>
      rcases List.mem_cons.mp member with rfl | member
      · exact position.afterAll_prefix profile (action :: actions)
      · exact induction member

theorem placements_prefix {profile : Profile} {position : Position} {actions : List Action}
    {placement : Placement} (member : placement ∈ placements profile position actions) :
    placement.position.symbols.definitions <+:
      (position.afterAll profile actions).symbols.definitions := by
  rcases List.mem_filterMap.mp member with ⟨located, member, places⟩
  have samePosition : placement.position = located.position := by
    unfold LocatedAction.placement? at places
    split at places <;> cases places
    rfl
  rw [samePosition]
  exact layout_prefix member

/-! ## Labels within the program -/

/-- Whether every label is bound to a place that has been reached. -/
def Position.Bounds (position : Position) : Prop :=
  ∀ definition ∈ position.symbols.definitions, definition.offset ≤ position.offset

theorem Position.Bounds.after {position : Position} (bounds : position.Bounds)
    (profile : Profile) (effect : Effect) : (position.after profile effect).Bounds := by
  cases effect with
  | bind name =>
      rw [Position.after]
      split
      · rename_i symbols binds
        intro definition member
        rw [(SymbolTable.bind_eq_ok binds).1] at member
        rcases List.mem_append.mp member with earlier | own
        · exact bounds definition earlier
        · cases List.mem_singleton.mp own
          exact Nat.le_refl _
      · exact bounds
  | place statement =>
      intro definition member
      exact Nat.le_add_right_of_le (bounds definition member)
  | enter next => exact bounds
  | report problem => exact bounds

theorem Position.Bounds.afterAll {position : Position} (bounds : position.Bounds)
    (profile : Profile) (actions : List Action) : (position.afterAll profile actions).Bounds := by
  induction actions generalizing position with
  | nil => exact bounds
  | cons action actions induction => exact induction (bounds.after profile action.effect)

theorem Outline.offset_le_size {outline : Outline} {profile : Profile} {definition : Definition}
    (member : definition ∈ (outline.symbols profile).definitions) :
    definition.offset ≤ outline.size profile := by
  have initial : ({} : Position).Bounds := fun _ absent => absurd absent List.not_mem_nil
  exact initial.afterAll profile outline.actions definition member

/-! ## Places of statements -/

theorem layout_actions (profile : Profile) (position : Position) (actions : List Action) :
    (layout profile position actions).map LocatedAction.action = actions := by
  induction actions generalizing position with
  | nil => rfl
  | cons action actions induction => exact congrArg (action :: ·) (induction _)

theorem action_of_placement {profile : Profile} {position : Position} {actions : List Action}
    {placement : Placement} (member : placement ∈ placements profile position actions) :
    ⟨placement.line, .place placement.statement⟩ ∈ actions := by
  rcases List.mem_filterMap.mp member with ⟨⟨position, line, effect⟩, located, places⟩
  cases effect with
  | place statement =>
      cases places
      rw [← layout_actions profile _ actions]
      exact List.mem_map_of_mem located
  | _ => cases places

theorem placement_of_action {profile : Profile} {position : Position} {actions : List Action}
    {line : SourceLine} {statement : Statement} (member : ⟨line, .place statement⟩ ∈ actions) :
    ∃ placement ∈ placements profile position actions,
      placement.line = line ∧ placement.statement = statement := by
  rw [← layout_actions profile position actions] at member
  rcases List.mem_map.mp member with ⟨located, present, same⟩
  refine ⟨⟨located.position, line, statement⟩, ?_, rfl, rfl⟩
  refine List.mem_filterMap.mpr ⟨located, present, ?_⟩
  rw [LocatedAction.placement?, same]

theorem layout_append (profile : Profile) (position : Position) (first second : List Action) :
    layout profile position (first ++ second) =
      layout profile position first ++
        layout profile (position.afterAll profile first) second := by
  induction first generalizing position with
  | nil => rfl
  | cons action first induction => exact congrArg (⟨position, action⟩ :: ·) (induction _)

theorem placements_append (profile : Profile) (position : Position) (first second : List Action) :
    placements profile position (first ++ second) =
      placements profile position first ++
        placements profile (position.afterAll profile first) second := by
  rw [placements, layout_append, List.filterMap_append]
  rfl

theorem layout_split {profile : Profile} {position : Position} {actions : List Action}
    {located : LocatedAction} (member : located ∈ layout profile position actions) :
    ∃ before after, actions = before ++ located.action :: after ∧
      located.position = position.afterAll profile before := by
  induction actions generalizing position with
  | nil => cases member
  | cons action actions induction =>
      rcases List.mem_cons.mp member with rfl | member
      · exact ⟨[], actions, rfl, rfl⟩
      · rcases induction member with ⟨before, after, rfl, place⟩
        exact ⟨action :: before, after, rfl, place⟩

theorem Position.after_bind_offset (profile : Profile) (position : Position) (name : String) :
    (position.after profile (.bind name)).offset = position.offset := by
  rw [after]
  split <;> rfl

/-- Statements that stand one after another, each as wide as its size. -/
def Consecutive : Nat → List Placement → Prop
  | _, [] => True
  | offset, placement :: rest =>
    placement.position.offset = offset ∧ Consecutive (offset + placement.statement.size) rest

theorem Consecutive.le_offset {offset : Nat} {statements : List Placement}
    (consecutive : Consecutive offset statements) {placement : Placement}
    (member : placement ∈ statements) : offset ≤ placement.position.offset := by
  induction statements generalizing offset with
  | nil => cases member
  | cons first rest induction =>
      rcases consecutive with ⟨here, later⟩
      rcases List.mem_cons.mp member with rfl | member
      · exact Nat.le_of_eq here.symm
      · exact Nat.le_trans (Nat.le_add_right ..) (induction later member)

theorem placements_consecutive (profile : Profile) (position : Position)
    (actions : List Action) :
    Consecutive position.offset (placements profile position actions) := by
  induction actions generalizing position with
  | nil => trivial
  | cons action actions induction =>
      have rest := induction (position.after profile action.effect)
      rw [placements_cons]
      rcases action with ⟨line, effect⟩
      cases effect with
      | bind name =>
          rw [Position.after_bind_offset] at rest
          exact rest
      | place statement => exact ⟨rfl, rest⟩
      | enter next => exact rest
      | report problem => exact rest

def Placement.Covers (placement : Placement) (index : Nat) : Prop :=
  placement.position.offset ≤ index ∧ index < placement.position.offset + placement.statement.size

/-- What each statement has as much of as words is found where its words are. -/
theorem Consecutive.getElem?_flatMap {offset : Nat} {statements : List Placement}
    (consecutive : Consecutive offset statements) {view : Placement → List α}
    (sized : ∀ placement, (view placement).length = placement.statement.size)
    {placement : Placement} (member : placement ∈ statements) {index : Nat}
    (covers : placement.Covers index) :
    (statements.flatMap view)[index - offset]? =
      (view placement)[index - placement.position.offset]? := by
  induction statements generalizing offset with
  | nil => cases member
  | cons first rest induction =>
      rcases consecutive with ⟨here, later⟩
      rw [List.flatMap_cons]
      rcases List.mem_cons.mp member with rfl | member
      · rcases covers with ⟨lower, upper⟩
        rw [here] at lower upper ⊢
        apply List.getElem?_append_left
        rw [sized]
        omega
      · have beyond := later.le_offset member
        have lower := covers.1
        rw [List.getElem?_append_right (by rw [sized]; omega), sized,
          ← induction later member, Nat.sub_sub]

theorem exists_covers {profile : Profile} {position : Position} {actions : List Action}
    {index : Nat} (lower : position.offset ≤ index)
    (upper : index < (position.afterAll profile actions).offset) :
    ∃ placement ∈ placements profile position actions, placement.Covers index := by
  induction actions generalizing position with
  | nil => exact absurd upper (Nat.not_lt.mpr lower)
  | cons action actions induction =>
      rw [placements_cons]
      have later (further : (position.after profile action.effect).offset ≤ index) :
          ∃ placement ∈ (LocatedAction.placement? ⟨position, action⟩).toList ++
            placements profile (position.after profile action.effect) actions,
            placement.Covers index := by
        rcases induction further upper with ⟨placement, member, covers⟩
        exact ⟨placement, List.mem_append_right _ member, covers⟩
      rcases action with ⟨line, effect⟩
      cases effect with
      | bind name => exact later (by rwa [Position.after_bind_offset])
      | place statement =>
          by_cases own : index < position.offset + statement.size
          · exact ⟨⟨position, line, statement⟩, List.mem_cons_self, lower, own⟩
          · exact later (Nat.le_of_not_lt own)
      | enter next => exact later lower
      | report problem => exact later lower

namespace Outline

variable {outline : Outline} {profile : Profile}

theorem placements_grown {placement : Placement}
    (member : placement ∈ outline.placements profile) :
    placement.position.symbols.definitions <+: (outline.symbols profile).definitions :=
  placements_prefix member

theorem consecutive_placements : Consecutive 0 (outline.placements profile) :=
  placements_consecutive profile {} outline.actions

theorem mem_placements_of_located {located : LocatedAction} {placement : Placement}
    (member : located ∈ outline.located profile) (places : located.placement? = some placement) :
    placement ∈ outline.placements profile :=
  List.mem_filterMap.mpr ⟨located, member, places⟩

end Outline

/-! ## One statement in both passes -/

namespace Placement

def encode (placement : Placement) (profile : Profile) (labels : Labels) :
    Except Problem Encoding :=
  placement.statement.encode profile labels placement.position.offset

/-- The labels that are known when the first pass comes to a statement. -/
def known (placement : Placement) (origin : Address) : Labels :=
  ⟨placement.position.symbols, origin, .first⟩

def deferred (placement : Placement) (profile : Profile) : Bool :=
  placement.statement.awaits profile placement.position.symbols

def fixup (placement : Placement) : Fixup :=
  ⟨placement.line, placement.position.offset, placement.statement.size, placement.statement⟩

def values (placement : Placement) (profile : Profile) (labels : Labels) : List (Option Nat) :=
  match placement.encode profile labels with
  | .ok encoding => encoding.words.map some
  | .error _ => List.replicate placement.statement.failedLength none

def cells (placement : Placement) (profile : Profile) (labels : Labels) : List Cell :=
  (placement.values profile labels).map fun value =>
    ⟨value, placement.statement.cellKind, placement.line⟩

def error? (placement : Placement) (profile : Profile) (labels : Labels) : Option Diagnostic :=
  match placement.encode profile labels with
  | .ok _ => none
  | .error problem => some (.errorAt placement.line problem)

def resolution (placement : Placement) (profile : Profile) (labels : Labels) : Resolution :=
  ⟨placement.fixup, (placement.encode profile labels).map (·.words)⟩

def firstError? (placement : Placement) (profile : Profile) (origin : Address) :
    Option Diagnostic :=
  placement.error? profile (placement.known origin)

def promptError? (placement : Placement) (profile : Profile) (labels : Labels) :
    Option Diagnostic :=
  if placement.deferred profile then none else placement.error? profile labels

theorem values_length (placement : Placement) (profile : Profile) (labels : Labels) :
    (placement.values profile labels).length = placement.statement.size := by
  unfold values
  cases encoded : placement.encode profile labels with
  | ok encoding => exact (List.length_map _).trans (Statement.encode_length encoded)
  | error problem => exact List.length_replicate.trans (Statement.failedLength_of_error encoded)

theorem cells_length (placement : Placement) (profile : Profile) (labels : Labels) :
    (placement.cells profile labels).length = placement.statement.size :=
  (List.length_map _).trans (placement.values_length profile labels)

/-- A statement that is not deferred is encoded for good in the first pass. -/
theorem encode_of_not_deferred {placement : Placement} {profile : Profile}
    {full : SymbolTable} (origin : Address)
    (grown : placement.position.symbols.definitions <+: full.definitions)
    (prompt : placement.deferred profile = false) :
    placement.encode profile (placement.known origin) =
      placement.encode profile ⟨full, origin, .second⟩ :=
  Statement.encode_of_not_awaits origin placement.position.offset grown prompt

theorem firstError?_eq_promptError? {placement : Placement} {full : SymbolTable}
    (profile : Profile) (origin : Address)
    (grown : placement.position.symbols.definitions <+: full.definitions) :
    placement.firstError? profile origin =
      placement.promptError? profile ⟨full, origin, .second⟩ := by
  unfold firstError? promptError? error?
  cases waiting : placement.deferred profile with
  | false =>
      rw [encode_of_not_deferred origin grown waiting]
      rfl
  | true =>
      rcases Statement.encode_of_awaits origin placement.position.offset waiting with
        ⟨words, encoded⟩
      have first : placement.encode profile (placement.known origin) = .ok ⟨words, true⟩ := encoded
      rw [first]
      rfl

end Placement

theorem Position.afterAll_offset (profile : Profile) (labels : Labels) (position : Position)
    (actions : List Action) :
    (position.afterAll profile actions).offset = position.offset +
      ((placements profile position actions).flatMap (·.cells profile labels)).length := by
  induction actions generalizing position with
  | nil => rfl
  | cons action actions induction =>
      have rest : (position.afterAll profile (action :: actions)).offset = _ := induction _
      rw [rest, placements_cons, List.flatMap_append, List.length_append, ← Nat.add_assoc]
      congr 1
      rcases action with ⟨line, effect⟩
      cases effect with
      | bind name =>
          rw [after_bind_offset]
          rfl
      | place statement => simp [after, LocatedAction.placement?, Placement.cells_length]
      | enter next => rfl
      | report problem => rfl

namespace LocatedAction

def remark? (located : LocatedAction) (profile : Profile)
    (judge : Placement → Option Diagnostic) : Option Diagnostic :=
  let line := located.action.line
  match located.action.effect with
  | .bind name =>
    match located.position.symbols.bind profile name located.position.offset with
    | .ok _ => none
    | .error problem => some (.errorAt line problem)
  | .place statement => judge ⟨located.position, line, statement⟩
  | .enter _ => none
  | .report problem => some (.errorAt line problem)

theorem remark?_of_placement {located : LocatedAction} {placement : Placement}
    (places : located.placement? = some placement) (profile : Profile)
    (judge : Placement → Option Diagnostic) : located.remark? profile judge = judge placement := by
  rcases located with ⟨position, line, effect⟩
  cases effect with
  | place statement =>
      cases places
      rfl
  | _ => cases places

theorem remark?_congr {located : LocatedAction} {profile : Profile}
    {left right : Placement → Option Diagnostic}
    (same : ∀ placement, located.placement? = some placement → left placement = right placement) :
    located.remark? profile left = located.remark? profile right := by
  rcases located with ⟨position, line, effect⟩
  cases effect with
  | bind name => rfl
  | place statement => exact same ⟨position, line, statement⟩ rfl
  | enter next => rfl
  | report problem => rfl

end LocatedAction

end TwoPass
