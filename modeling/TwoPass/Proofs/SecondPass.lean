import Mathlib.Data.List.Basic
import TwoPass.Proofs.FirstPass

/-! # What the second pass leaves

Encoding a fixup again touches the cells of its own statement and no others. So
after the second pass every cell is what encoding its statement once, with every
label bound, would have put there. -/

namespace TwoPass

/-! ## Cells of one statement -/

namespace Image

theorem modify_append_cons (before after : List Cell) (cell : Cell) (change : Cell → Cell) :
    (before ++ cell :: after).modify before.length change = before ++ change cell :: after := by
  induction before with
  | nil => rfl
  | cons head tail induction => exact congrArg (head :: ·) induction

theorem overwrite_append {image : Image} {kind : CellKind} {line : SourceLine}
    {before after : List Cell} {old : List (Option Nat)} (values : List (Option Nat))
    (cells : image.cells.toList =
      before ++ (old.map fun value => Cell.mk value kind line) ++ after)
    (length : values.length = old.length) :
    (image.overwrite before.length values).cells.toList =
      before ++ (values.map fun value => Cell.mk value kind line) ++ after := by
  induction values generalizing image before old with
  | nil =>
      rw [List.eq_nil_of_length_eq_zero length.symm] at cells
      exact cells
  | cons value values induction =>
      cases old with
      | nil => cases length
      | cons previous old =>
          let cell : Cell := ⟨value, kind, line⟩
          let changed : Image :=
            ⟨image.cells.modify before.length fun cell => { cell with value }⟩
          have written : changed.cells.toList =
              (before ++ [cell]) ++ (old.map fun value => Cell.mk value kind line) ++ after := by
            rw [Array.toList_modify, cells]
            simp [modify_append_cons, cell]
          have rest : (changed.overwrite (before ++ [cell]).length values).cells.toList =
              (before ++ [cell]) ++
                (values.map fun value => Cell.mk value kind line) ++ after :=
            induction written (Nat.succ.inj length)
          rw [List.length_append, List.append_assoc before] at rest
          exact rest

end Image

namespace Placement

theorem apply_resolution (placement : Placement) (profile : Profile) (labels : Labels)
    (image : Image) :
    (placement.resolution profile labels).apply image =
      image.overwrite placement.position.offset (placement.values profile labels) := by
  unfold Resolution.apply resolution values
  cases encoded : placement.encode profile labels with
  | ok encoding => rfl
  | error problem =>
      have length := Statement.failedLength_of_error encoded
      simp only [Except.map, Image.markFailed, fixup, length]

theorem diagnostic?_resolution (placement : Placement) (profile : Profile) (labels : Labels) :
    (placement.resolution profile labels).diagnostic? = placement.error? profile labels := by
  unfold Resolution.diagnostic? resolution error?
  cases placement.encode profile labels <;> rfl

end Placement

/-! ## Cells of all statements -/

theorem cells_after_resolution {profile : Profile} {full : SymbolTable} {origin : Address}
    (before : List Cell) (statements : List Placement) {image : Image}
    (grown : ∀ placement ∈ statements,
      placement.position.symbols.definitions <+: full.definitions)
    (consecutive : Consecutive before.length statements)
    (cells : image.cells.toList = before ++
      statements.flatMap fun placement => placement.cells profile (placement.known origin)) :
    let labels : Labels := ⟨full, origin, .second⟩
    let resolutions := (statements.filter (·.deferred profile)).map (·.resolution profile labels)
    (resolutions.foldl Resolution.apply image).cells.toList =
      before ++ statements.flatMap (·.cells profile labels) := by
  intro labels
  -- The cells in `before` are final. Those after them still are as the first pass left them.
  induction statements generalizing image before with
  | nil => exact cells
  | cons placement rest induction =>
      rcases consecutive with ⟨here, later⟩
      have restGrown : ∀ placement ∈ rest,
          placement.position.symbols.definitions <+: full.definitions := fun other member =>
        grown other (List.mem_cons_of_mem placement member)
      have restConsecutive :
          Consecutive (before ++ placement.cells profile labels).length rest := by
        rw [List.length_append, placement.cells_length]
        exact later
      rw [List.flatMap_cons, ← List.append_assoc] at cells ⊢
      cases waiting : placement.deferred profile with
      | false =>
          have settled : placement.cells profile (placement.known origin) =
              placement.cells profile labels := by
            simp only [Placement.cells, Placement.values,
              Placement.encode_of_not_deferred origin (grown placement List.mem_cons_self) waiting,
              labels]
          rw [settled] at cells
          rw [List.filter_cons_of_neg (by simp [waiting])]
          exact induction (before ++ placement.cells profile labels) restGrown restConsecutive cells
      | true =>
          have patched : ((placement.resolution profile labels).apply image).cells.toList =
              before ++ placement.cells profile labels ++
                rest.flatMap fun placement =>
                  placement.cells profile (placement.known origin) := by
            rw [placement.apply_resolution, here]
            apply Image.overwrite_append (placement.values profile labels) cells
            rw [placement.values_length, placement.values_length]
          rw [List.filter_cons_of_pos (by simp [waiting]), List.map_cons]
          exact induction (before ++ placement.cells profile labels) restGrown
            restConsecutive patched

namespace Scan

def labels (scan : Scan) : Labels :=
  ⟨scan.symbols, scan.start, .second⟩

variable {scan : Scan} {profile : Profile} {statements : List Placement}

theorem labels_eq {start : Address} (accepted : scan.origin = some start) :
    scan.labels = ⟨scan.symbols, start, .second⟩ := by
  rw [labels, Scan.start, accepted]
  rfl

theorem resolve_eq
    (fixups : scan.fixups = (statements.filter (·.deferred profile)).map Placement.fixup) :
    scan.resolve profile =
      (statements.filter (·.deferred profile)).map (·.resolution profile scan.labels) := by
  rw [resolve, fixups, List.map_map]
  rfl

theorem resolved_cells
    (fixups : scan.fixups = (statements.filter (·.deferred profile)).map Placement.fixup)
    (grown : ∀ placement ∈ statements,
      placement.position.symbols.definitions <+: scan.symbols.definitions)
    (consecutive : Consecutive 0 statements)
    (cells : scan.image.cells.toList =
      statements.flatMap fun placement => placement.cells profile (placement.known scan.start)) :
    ((scan.resolve profile).foldl Resolution.apply scan.image).cells.toList =
      statements.flatMap (·.cells profile scan.labels) := by
  rw [resolve_eq fixups]
  exact cells_after_resolution [] statements grown consecutive cells

end Scan

/-! ## A whole run -/

namespace Run

variable (options : Options) (source : String)

theorem origin_eq :
    (ofSource options source).scan.origin = (Outline.ofSource options source).origin :=
  Scan.ofLines_origin options (SourceLine.ofText source)

theorem symbols_eq :
    (ofSource options source).scan.symbols =
      (Outline.ofSource options source).symbols options.profile :=
  Scan.ofLines_symbols options (SourceLine.ofText source)

theorem fixups_eq :
    (ofSource options source).scan.fixups =
      (((Outline.ofSource options source).placements options.profile).filter
        (·.deferred options.profile)).map Placement.fixup :=
  Scan.ofLines_fixups options (SourceLine.ofText source)

theorem grown {placement : Placement}
    (member : placement ∈ (Outline.ofSource options source).placements options.profile) :
    placement.position.symbols.definitions <+:
      (ofSource options source).scan.symbols.definitions := by
  rw [symbols_eq]
  exact Outline.placements_grown member

/-- Every cell is as if its statement had been encoded once, with all labels bound. -/
theorem image_cells :
    (ofSource options source).image.cells.toList =
      ((Outline.ofSource options source).placements options.profile).flatMap
        (·.cells options.profile (ofSource options source).scan.labels) :=
  Scan.resolved_cells (fixups_eq options source) (fun _ => grown options source)
    Outline.consecutive_placements (Scan.ofLines_cells options (SourceLine.ofText source))

theorem scan_diagnostics :
    (ofSource options source).scan.diagnostics =
      ((Outline.ofSource options source).located options.profile).filterMap
          (·.remark? options.profile
            (·.promptError? options.profile (ofSource options source).scan.labels)) ++
        (Outline.ofSource options source).ending.diagnostics := by
  have first := Scan.ofLines_diagnostics options (SourceLine.ofText source)
  have settled : ((Outline.ofSource options source).located options.profile).filterMap
      (·.remark? options.profile
        (·.firstError? options.profile (ofSource options source).scan.start)) =
      ((Outline.ofSource options source).located options.profile).filterMap
        (·.remark? options.profile
          (·.promptError? options.profile (ofSource options source).scan.labels)) := by
    apply List.filterMap_congr
    intro located member
    apply LocatedAction.remark?_congr
    intro placement places
    apply Placement.firstError?_eq_promptError?
    exact grown options source (Outline.mem_placements_of_located member places)
  rw [← settled]
  exact first

theorem resolution_diagnostics :
    (ofSource options source).resolutions.filterMap (·.diagnostic?) =
      (((Outline.ofSource options source).placements options.profile).filter
        (·.deferred options.profile)).filterMap
          (·.error? options.profile (ofSource options source).scan.labels) := by
  have again : (ofSource options source).resolutions =
      (ofSource options source).scan.resolve options.profile := rfl
  rw [again, Scan.resolve_eq (fixups_eq options source), List.filterMap_map]
  apply List.filterMap_congr
  intro placement _
  exact placement.diagnostic?_resolution options.profile _

end Run

end TwoPass
