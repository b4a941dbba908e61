import Mathlib.Data.List.Pairwise
import TwoPass.Proofs.Reports

/-! # The order of fixups

A fixup holds the cells that its statement was given in the first pass, and no two
fixups hold the same one. Encoding a fixup again gives values to its cells and leaves
the rest of the image as it is, so the second pass may take the fixups in any order. -/

namespace TwoPass

/-! ## Cells with new values -/

namespace Image

def overwritten (offset : Nat) (values : List (Option Nat)) (index : Nat) (cell : Cell) : Cell :=
  if offset ≤ index then
    { cell with value := values[index - offset]?.getD cell.value }
  else
    cell

theorem getElem?_overwrite (image : Image) (offset : Nat) (values : List (Option Nat))
    (index : Nat) :
    (image.overwrite offset values).cells[index]? =
      image.cells[index]?.map (overwritten offset values index) := by
  induction values generalizing image offset with
  | nil =>
      have unchanged : overwritten offset [] index = id := by
        funext cell
        simp [overwritten]
      rw [overwrite, unchanged, Option.map_id_apply]
  | cons value values induction =>
      rw [overwrite, induction, Array.getElem?_modify]
      by_cases here : offset = index
      · subst here
        have past : ¬ offset + 1 ≤ offset := by omega
        cases image.cells[offset]? <;> simp [overwritten, past]
      · rw [if_neg here]
        congr 1
        funext cell
        by_cases before : offset ≤ index
        · have later : offset + 1 ≤ index := by omega
          have next : index - offset = index - (offset + 1) + 1 := by omega
          simp [overwritten, before, later, next]
        · have earlier : ¬ offset + 1 ≤ index := by omega
          simp [overwritten, before, earlier]

theorem overwritten_of_outside {offset index : Nat} {values : List (Option Nat)}
    (outside : offset ≤ index → offset + values.length ≤ index) :
    overwritten offset values index = id := by
  funext cell
  by_cases before : offset ≤ index
  · have beyond : values[index - offset]? = none := by
      apply List.getElem?_eq_none
      have := outside before
      omega
    simp [overwritten, beyond]
  · simp [overwritten, before]

theorem size_overwrite (image : Image) (offset : Nat) (values : List (Option Nat)) :
    (image.overwrite offset values).size = image.size := by
  induction values generalizing image offset with
  | nil => rfl
  | cons value values induction => exact (induction _ _).trans Array.size_modify

theorem line?_overwrite (image : Image) (offset : Nat) (values : List (Option Nat)) (index : Nat) :
    (image.overwrite offset values).line? index = image.line? index := by
  rw [line?, getElem?_overwrite, Option.map_map, line?]
  congr 1
  funext cell
  simp only [Function.comp_apply, overwritten]
  split <;> rfl

theorem codeLine?_overwrite (image : Image) (offset : Nat) (values : List (Option Nat))
    (index : Nat) : (image.overwrite offset values).codeLine? index = image.codeLine? index := by
  have same (cell : Cell) :
      (overwritten offset values index cell).kind = cell.kind ∧
        (overwritten offset values index cell).line = cell.line := by
    unfold overwritten
    split <;> exact ⟨rfl, rfl⟩
  rw [codeLine?, getElem?_overwrite, codeLine?]
  cases image.cells[index]? with
  | none => rfl
  | some cell =>
      simp only [Option.map_some, Option.filter_some, (same cell).1]
      split <;> simp [(same cell).2]

theorem overwrite_comm (image : Image) {offset other : Nat} {values others : List (Option Nat)}
    (apart : offset + values.length ≤ other) :
    (image.overwrite offset values).overwrite other others =
      (image.overwrite other others).overwrite offset values := by
  apply congrArg Image.mk
  apply Array.ext_getElem?
  intro index
  simp only [getElem?_overwrite, Option.map_map]
  congr 1
  -- At every index one of the two leaves the cell alone.
  by_cases reached : other ≤ index
  · have past : overwritten offset values index = id := overwritten_of_outside fun _ => by omega
    rw [past]
    rfl
  · have ahead : overwritten other others index = id :=
      overwritten_of_outside fun before => absurd before reached
    rw [ahead]
    rfl

end Image

/-! ## Fixups in the second pass -/

namespace Fixup

def Holds (fixup : Fixup) (offset : Nat) : Prop :=
  fixup.offset ≤ offset ∧ offset < fixup.offset + fixup.length

def Before (first second : Fixup) : Prop :=
  first.offset + first.length ≤ second.offset

end Fixup

namespace Resolution

def values (resolution : Resolution) : List (Option Nat) :=
  match resolution.outcome with
  | .ok words => words.map some
  | .error _ => List.replicate resolution.fixup.length none

theorem apply_eq_overwrite (image : Image) (resolution : Resolution) :
    resolution.apply image = image.overwrite resolution.fixup.offset resolution.values := by
  unfold apply values
  cases resolution.outcome <;> rfl

def Fits (resolution : Resolution) : Prop :=
  resolution.values.length = resolution.fixup.length

def Apart (first second : Resolution) : Prop :=
  first.fixup.Before second.fixup ∨ second.fixup.Before first.fixup

instance : Std.Symm Apart :=
  ⟨fun _ _ apart => apart.symm⟩

theorem apply_comm {first second : Resolution} (firstFits : first.Fits) (secondFits : second.Fits)
    (apart : first.Apart second) (image : Image) :
    second.apply (first.apply image) = first.apply (second.apply image) := by
  simp only [apply_eq_overwrite]
  rcases apart with before | after
  · apply Image.overwrite_comm
    rw [firstFits]
    exact before
  · symm
    apply Image.overwrite_comm
    rw [secondFits]
    exact after

theorem getElem?_apply {resolution : Resolution} (fits : resolution.Fits) {offset : Nat}
    (outside : ¬ resolution.fixup.Holds offset) (image : Image) :
    (resolution.apply image).cells[offset]? = image.cells[offset]? := by
  have unchanged : Image.overwritten resolution.fixup.offset resolution.values offset = id := by
    apply Image.overwritten_of_outside
    intro before
    rw [fits]
    by_contra inside
    exact outside ⟨before, Nat.lt_of_not_le inside⟩
  rw [apply_eq_overwrite, Image.getElem?_overwrite, unchanged, Option.map_id_apply]

variable (resolutions : List Resolution) (image : Image)

theorem size_applyAll : (resolutions.foldl apply image).size = image.size := by
  induction resolutions generalizing image with
  | nil => rfl
  | cons resolution rest induction =>
      rw [List.foldl_cons, induction, apply_eq_overwrite, Image.size_overwrite]

theorem line?_applyAll (offset : Nat) :
    (resolutions.foldl apply image).line? offset = image.line? offset := by
  induction resolutions generalizing image with
  | nil => rfl
  | cons resolution rest induction =>
      rw [List.foldl_cons, induction, apply_eq_overwrite, Image.line?_overwrite]

theorem codeLine?_applyAll (offset : Nat) :
    (resolutions.foldl apply image).codeLine? offset = image.codeLine? offset := by
  induction resolutions generalizing image with
  | nil => rfl
  | cons resolution rest induction =>
      rw [List.foldl_cons, induction, apply_eq_overwrite, Image.codeLine?_overwrite]

variable {resolutions}

theorem getElem?_applyAll (fits : ∀ resolution ∈ resolutions, resolution.Fits) {offset : Nat}
    (outside : ∀ resolution ∈ resolutions, ¬ resolution.fixup.Holds offset) :
    (resolutions.foldl apply image).cells[offset]? = image.cells[offset]? := by
  induction resolutions generalizing image with
  | nil => rfl
  | cons resolution rest induction =>
      rcases List.forall_mem_cons.mp fits with ⟨fits, restFits⟩
      rcases List.forall_mem_cons.mp outside with ⟨outside, restOutside⟩
      rw [List.foldl_cons, induction _ restFits restOutside, getElem?_apply fits outside]

/-- Fixups with cells of their own may be encoded again in any order. -/
theorem applyAll_of_perm {order : List Resolution} (permuted : order.Perm resolutions)
    (fits : ∀ resolution ∈ resolutions, resolution.Fits)
    (apart : resolutions.Pairwise Apart) :
    order.foldl apply image = resolutions.foldl apply image := by
  symm
  apply permuted.symm.foldl_eq'
  intro first firstMember second secondMember image
  by_cases same : first = second
  · rw [same]
  · exact apply_comm (fits first firstMember) (fits second secondMember)
      (apart.forall firstMember secondMember same) image

end Resolution

/-! ## Fixups of a program -/

namespace Consecutive

theorem pairwise_before {offset : Nat} {statements : List Placement}
    (consecutive : Consecutive offset statements) :
    statements.Pairwise fun first second => first.fixup.Before second.fixup := by
  induction statements generalizing offset with
  | nil => exact .nil
  | cons first rest induction =>
      rcases consecutive with ⟨here, later⟩
      refine .cons (fun second member => ?_) (induction later)
      have after := later.le_offset member
      rw [← here] at after
      exact after

end Consecutive

theorem Placement.fits_resolution (placement : Placement) (profile : Profile) (labels : Labels) :
    (placement.resolution profile labels).Fits := by
  have length := placement.values_length profile labels
  unfold Resolution.Fits Resolution.values resolution
  unfold values at length
  cases encoded : placement.encode profile labels with
  | ok encoding =>
      rw [encoded] at length
      exact length
  | error problem => exact List.length_replicate

/-- The first pass comes to a statement in the state `before`, and goes on from the
state `after`. -/
def Scan.ComesTo (options : Options) (source : String) (line : SourceLine)
    (statement : Statement) (before after : Scan) : Prop :=
  let outline := Outline.ofSource options source
  after = before.place options.profile statement.cellKind line statement ∧
  ∃ earlier later,
    outline.actions = earlier ++ ⟨line, .place statement⟩ :: later ∧
    before = performAll options.profile { origin := outline.origin } earlier ∧
    ofLines options (SourceLine.ofText source) =
      (after.performAll options.profile later).close outline.ending

def Run.ofScan (options : Options) (scan : Scan) : Run :=
  let resolutions := scan.resolve options.profile
  { options, scan, resolutions, image := resolutions.foldl Resolution.apply scan.image }

section

variable {options : Options} {source : String}

theorem Scan.exists_comesTo {placement : Placement}
    (member : placement ∈ (Outline.ofSource options source).placements options.profile) :
    ∃ before after, ComesTo options source placement.line placement.statement before after ∧
      before.position = placement.position := by
  rcases List.mem_filterMap.mp member with ⟨located, present, isPlacement⟩
  rcases layout_split present with ⟨earlier, later, split, position⟩
  rcases located with ⟨_, line, effect⟩
  cases effect with
  | place statement =>
      cases isPlacement
      let before := performAll options.profile
        { origin := (Outline.ofSource options source).origin } earlier
      refine ⟨before, _, ⟨rfl, earlier, later, split, rfl, ?_⟩, ?_⟩
      · have whole := ofLines_eq_performAll options (SourceLine.ofText source)
        change _ = (performAll _ _ (Outline.ofSource options source).actions).close _ at whole
        rw [split, performAll_append] at whole
        exact whole
      · rw [performAll_position]
        exact position.symm
  | _ => cases isPlacement

theorem Scan.ComesTo.cells {line : SourceLine} {statement : Statement} {before after : Scan}
    (comes : ComesTo options source line statement before after) :
    ∃ own later : List Cell, own.length = statement.size ∧
      after.image.cells.toList = before.image.cells.toList ++ own ∧
      (Run.ofSource options source).scan.image.cells.toList =
        after.image.cells.toList ++ later := by
  rcases comes with ⟨here, earlier, rest, -, -, whole⟩
  let placement : Placement := ⟨before.position, line, statement⟩
  refine ⟨placement.cells options.profile (placement.known before.start),
    (placements options.profile after.position rest).flatMap fun later =>
      later.cells options.profile (later.known after.start),
    placement.cells_length _ _, ?_, ?_⟩
  · rw [here, place_eq_add, Array.toList_appendList]
  · change (ofLines options (SourceLine.ofText source)).image.cells.toList = _
    rw [whole, close_eq]
    exact performAll_cells options.profile after rest

namespace Run

theorem exists_placement_of_fixup {fixup : Fixup}
    (member : fixup ∈ (ofSource options source).scan.fixups) :
    ∃ placement ∈ (Outline.ofSource options source).placements options.profile,
      placement.fixup = fixup := by
  rw [fixups_eq] at member
  rcases List.mem_map.mp member with ⟨placement, waiting, same⟩
  exact ⟨placement, (List.mem_filter.mp waiting).1, same⟩

theorem fixup_recorded {fixup : Fixup}
    (member : fixup ∈ (ofSource options source).scan.fixups) :
    ∃ before after own later,
      Scan.ComesTo options source fixup.line fixup.statement before after ∧
      before.image.size = fixup.offset ∧
      own.length = fixup.length ∧
      after.image.cells.toList = before.image.cells.toList ++ own ∧
      (ofSource options source).scan.image.cells.toList = after.image.cells.toList ++ later := by
  rcases exists_placement_of_fixup member with ⟨placement, placed, rfl⟩
  rcases Scan.exists_comesTo placed with ⟨before, after, comes, position⟩
  rcases comes.cells with ⟨own, later, length, pushed, kept⟩
  exact ⟨before, after, own, later, comes, congrArg (·.offset) position, length, pushed, kept⟩

theorem fixup_inside {fixup : Fixup} (member : fixup ∈ (ofSource options source).scan.fixups) :
    fixup.offset + fixup.length ≤ (ofSource options source).scan.image.size := by
  rcases fixup_recorded member with ⟨before, after, own, later, -, size, length, pushed, kept⟩
  have total := congrArg List.length kept
  rw [pushed, List.length_append, List.length_append, Array.length_toList, Array.length_toList,
    length] at total
  rw [← size, Image.size, Image.size, total]
  exact Nat.le_add_right ..

variable (options source)

theorem fixups_pairwise : (ofSource options source).scan.fixups.Pairwise Fixup.Before := by
  rw [fixups_eq, List.pairwise_map]
  exact Outline.consecutive_placements.pairwise_before.filter _

theorem resolutions_fit :
    ∀ resolution ∈ (ofSource options source).resolutions, resolution.Fits := by
  intro resolution member
  change resolution ∈ (ofSource options source).scan.resolve options.profile at member
  rw [Scan.resolve_eq (fixups_eq options source)] at member
  rcases List.mem_map.mp member with ⟨placement, -, rfl⟩
  exact placement.fits_resolution options.profile _

theorem fixups_of_resolutions :
    (ofSource options source).resolutions.map (·.fixup) =
      (ofSource options source).scan.fixups :=
  (List.map_map ..).trans (List.map_id _)

theorem resolutions_apart : (ofSource options source).resolutions.Pairwise Resolution.Apart := by
  have ordered := fixups_pairwise options source
  rw [← fixups_of_resolutions, List.pairwise_map] at ordered
  exact ordered.imp .inl

end Run

end

/-- Each fixup holds the cells that its statement was given in the first pass, in
order and apart from those of every other, and as many words are put there when it is
encoded again. So the second pass leaves all else as it is, and comes to the same image
and the same diagnostics whatever order it takes the fixups in. -/
theorem fixups_in_any_order (options : Options) (source : String) :
    let run := Run.ofSource options source
    run.scan.fixups.Pairwise Fixup.Before ∧
    (∀ fixup ∈ run.scan.fixups,
      fixup.offset + fixup.length ≤ run.scan.image.size ∧
      (∃ before after own later,
        Scan.ComesTo options source fixup.line fixup.statement before after ∧
        before.image.size = fixup.offset ∧
        own.length = fixup.length ∧
        after.image.cells.toList = before.image.cells.toList ++ own ∧
        run.scan.image.cells.toList = after.image.cells.toList ++ later) ∧
      ∀ labels encoding,
        fixup.statement.encode options.profile labels fixup.offset = .ok encoding →
          encoding.words.length = fixup.length) ∧
    run.image.size = run.scan.image.size ∧
    run.image.line? = run.scan.image.line? ∧
    run.image.codeLine? = run.scan.image.codeLine? ∧
    (∀ offset, (∀ fixup ∈ run.scan.fixups, ¬ fixup.Holds offset) →
      run.image.cells[offset]? = run.scan.image.cells[offset]?) ∧
    Run.ofScan options run.scan = run ∧
    ∀ order, order.Perm run.scan.fixups →
      let reordered := Run.ofScan options { run.scan with fixups := order }
      reordered.image = run.image ∧ reordered.diagnostics.Perm run.diagnostics := by
  intro run
  have sameFixups := Run.fixups_of_resolutions options source
  have fits := Run.resolutions_fit options source
  refine ⟨Run.fixups_pairwise options source, fun fixup member => ?_,
    Resolution.size_applyAll _ _, funext (Resolution.line?_applyAll _ _),
    funext (Resolution.codeLine?_applyAll _ _), fun offset outside => ?_, rfl,
    fun order permuted => ?_⟩
  · refine ⟨Run.fixup_inside member, Run.fixup_recorded member, ?_⟩
    rcases Run.exists_placement_of_fixup member with ⟨placement, -, rfl⟩
    exact fun labels encoding encoded => Statement.encode_length encoded
  · apply Resolution.getElem?_applyAll _ fits
    intro resolution member
    apply outside
    rw [← sameFixups]
    exact List.mem_map_of_mem member
  · intro reordered
    have resolutions : reordered.resolutions.Perm run.resolutions := permuted.map _
    have image : reordered.image = run.image :=
      Resolution.applyAll_of_perm _ resolutions fits (Run.resolutions_apart options source)
    refine ⟨image, ?_⟩
    have emission : reordered.emissionDiagnostics = run.emissionDiagnostics := by
      unfold Run.emissionDiagnostics
      rw [image]
      rfl
    unfold Run.diagnostics
    rw [emission]
    exact ((resolutions.filterMap _).append_left _).append_right _

/-- The ledger has a fixup that cannot be encoded and one without cells, and is taken in
reverse. The last cell is in none of the fixups. -/
theorem fixups_in_reverse :
    let source := ".orig x3000\nbr lost\n.blkw 0 far\nld r0, far\n.blkw 2 far\nfar halt\n.end"
    let run := Run.ofSource {} source
    let reversed := Run.ofScan {} { run.scan with fixups := run.scan.fixups.reverse }
    run.scan.fixups.map (fun fixup => (fixup.offset, fixup.length)) =
      [(0, 1), (1, 0), (1, 1), (2, 2)] ∧
    run.image.cells.toList.map Cell.value =
      [none, some 0x2002, some 0x3004, some 0x3004, some 0xF025] ∧
    run.scan.image.cells[4]? = run.image.cells[4]? ∧
    (∀ encoding, (Statement.storage .block ["2", "far"]).encode .baseline run.scan.labels 2 =
      .ok encoding → encoding.words.length = 2) ∧
    reversed.image = run.image ∧
    reversed.diagnostics.Perm run.diagnostics := by
  intro source run reversed
  rcases fixups_in_any_order {} source with ⟨-, recorded, -, -, -, outside, -, anyOrder⟩
  have free : ∀ fixup ∈ run.scan.fixups, ¬ fixup.Holds 4 := by
    have bounded : ∀ fixup ∈ run.scan.fixups, fixup.offset + fixup.length ≤ 4 := by decide +kernel
    intro fixup member holds
    exact Nat.not_lt.mpr (bounded fixup member) holds.2
  have block : ⟨⟨4, ".blkw 2 far"⟩, 2, 2, .storage .block ["2", "far"]⟩ ∈ run.scan.fixups := by
    decide +kernel
  exact ⟨by decide +kernel, by decide +kernel, (outside 4 free).symm,
    (recorded _ block).2.2 run.scan.labels, anyOrder _ (List.reverse_perm _)⟩

end TwoPass
