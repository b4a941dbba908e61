import Mathlib.Data.List.Pairwise
import TwoPass.Proofs.Layout
import TwoPass.Proofs.LineByLine

/-! # The order of a program

Actions come in the order of the lines, and on one line a label is bound before
anything else is done. So no two statements share a line. -/

namespace TwoPass

namespace SourceLine

def Above (upper lower : SourceLine) : Prop :=
  upper.number < lower.number

theorem Above.ne {upper lower : SourceLine} (above : upper.Above lower) : upper ≠ lower := by
  intro same
  rw [Above, same] at above
  exact Nat.lt_irrefl _ above

theorem ofText_above (text : String) : (ofText text).Pairwise Above := by
  rw [ofText, List.pairwise_map]
  apply List.pairwise_iff_getElem.mpr
  intro first second firstBound secondBound before
  simpa [Above] using before

theorem number_of_ofText {text : String} {read rest : List SourceLine}
    {line : SourceLine} (lines : ofText text = read ++ line :: rest) :
    line.number = read.length := by
  have found : (ofText text)[read.length]? = some line := by
    rw [lines, List.getElem?_append_right (Nat.le_refl _), Nat.sub_self]
    rfl
  rw [ofText, List.getElem?_map, List.getElem?_zipIdx, Option.map_map] at found
  rcases Option.map_eq_some_iff.mp found with ⟨characters, -, rfl⟩
  exact Nat.zero_add _

theorem getElem?_ofText {text : String} {line : SourceLine} (member : line ∈ ofText text) :
    (ofText text)[line.number]? = some line := by
  rcases List.append_of_mem member with ⟨read, rest, lines⟩
  rw [number_of_ofText lines, lines, List.getElem?_append_right (Nat.le_refl _), Nat.sub_self]
  rfl

end SourceLine

def Action.Before (first second : Action) : Prop :=
  first.line.Above second.line ∨
    first.line = second.line ∧ ∃ name, first.effect = .bind name

namespace Outline

theorem Follows.line_mem {profile : Profile} {origin : Address} {lines : List SourceLine}
    {outline : Outline} (follows : Follows profile origin lines outline) {action : Action}
    (member : action ∈ outline.actions) : action.line ∈ lines := by
  have here {line : SourceLine} {effects : List Effect}
      (member : action ∈ effects.map (Action.mk line)) : action.line = line := by
    rcases List.mem_map.mp member with ⟨effect, -, rfl⟩
    rfl
  induction follows with
  | exhausted required => cases member
  | finished line lines effects _ _ => exact List.mem_cons.mpr (.inl (here member))
  | abandoned line lines effects problem _ _ => exact List.mem_cons.mpr (.inl (here member))
  | proceeds line lines effects rest _ _ _ induction =>
      rcases List.mem_append.mp member with now | later
      · exact List.mem_cons.mpr (.inl (here now))
      · exact List.mem_cons_of_mem line (induction later)

theorem line_mem_of_ofLines {options : Options} {lines : List SourceLine} {action : Action}
    (member : action ∈ (ofLines options lines).actions) : action.line ∈ lines := by
  have present {line : SourceLine} (member : line ∈ lines.filter SourceLine.isSignificant) :
      line ∈ lines := (List.mem_filter.mp member).1
  unfold ofLines at member
  cases significant : lines.filter SourceLine.isSignificant with
  | nil =>
      rw [significant] at member
      cases member
  | cons first rest =>
      rw [significant] at present
      simp only [significant] at member
      cases read : Scan.readOrigin first.tokens with
      | error problem =>
          simp only [read, List.mem_singleton] at member
          rw [member]
          exact present List.mem_cons_self
      | ok origin =>
          simp only [read] at member
          exact present (List.mem_cons_of_mem first ((ofBody_follows ..).line_mem member))

theorem Follows.ordered {profile : Profile} {origin : Address} {lines : List SourceLine}
    {outline : Outline} (follows : Follows profile origin lines outline)
    (above : lines.Pairwise SourceLine.Above) : outline.actions.Pairwise Action.Before := by
  have here (line : SourceLine) {effects : List Effect} (ordered : BindFirst effects) :
      (effects.map (Action.mk line)).Pairwise Action.Before := by
    rw [List.pairwise_map]
    exact ordered.imp fun binds => .inr ⟨rfl, binds⟩
  induction follows with
  | exhausted required => exact List.Pairwise.nil
  | finished line lines effects ordered _ => exact here line ordered
  | abandoned line lines effects problem ordered _ => exact here line ordered
  | proceeds line lines effects rest ordered _ follows induction =>
      rcases List.pairwise_cons.mp above with ⟨first, later⟩
      refine List.pairwise_append.mpr ⟨here line ordered, induction later, ?_⟩
      intro action now other member
      rcases List.mem_map.mp now with ⟨effect, -, rfl⟩
      exact .inl (first other.line (follows.line_mem member))

theorem ofLines_ordered (options : Options) {lines : List SourceLine}
    (above : lines.Pairwise SourceLine.Above) :
    (ofLines options lines).actions.Pairwise Action.Before := by
  have opens := ofLines_opens options lines
  generalize ofLines options lines = outline at opens ⊢
  cases opens with
  | blank => exact List.Pairwise.nil
  | refused line problem => exact List.pairwise_singleton _ _
  | opened first rest origin outline significant _ follows =>
      have kept := above.filter SourceLine.isSignificant
      rw [significant] at kept
      exact follows.ordered (List.pairwise_cons.mp kept).2

theorem ofSource_ordered (options : Options) (source : String) :
    (ofSource options source).actions.Pairwise Action.Before :=
  ofLines_ordered options (SourceLine.ofText_above source)

end Outline

/-! ## Actions and statements at their places -/

/-- Actions of which one binds its label, if they share a line. -/
def LocatedAction.Apart (first second : LocatedAction) : Prop :=
  first.action.line = second.action.line →
    (∃ name, first.action.effect = .bind name) ∨ ∃ name, second.action.effect = .bind name

instance : Std.Symm LocatedAction.Apart :=
  ⟨fun _ _ apart aligned => (apart aligned.symm).symm⟩

namespace Outline

variable {outline : Outline} {profile : Profile}

theorem located_ordered (ordered : outline.actions.Pairwise Action.Before) :
    (outline.located profile).Pairwise fun first second =>
      first.action.Before second.action := by
  rw [← List.pairwise_map, located, layout_actions]
  exact ordered

theorem located_apart (ordered : outline.actions.Pairwise Action.Before)
    {first second : LocatedAction} (firstMember : first ∈ outline.located profile)
    (secondMember : second ∈ outline.located profile) (different : first ≠ second) :
    first.Apart second := by
  have apart : (outline.located profile).Pairwise LocatedAction.Apart := by
    refine (located_ordered ordered).imp fun before aligned => ?_
    rcases before with above | ⟨-, binds⟩
    · exact absurd aligned above.ne
    · exact .inl binds
  exact apart.forall firstMember secondMember different

theorem placements_above (ordered : outline.actions.Pairwise Action.Before)
    (profile : Profile) :
    (outline.placements profile).Pairwise fun first second => first.line.Above second.line := by
  rw [placements, TwoPass.placements, List.pairwise_filterMap]
  refine (located_ordered ordered).imp ?_
  rintro ⟨_, firstLine, firstEffect⟩ ⟨_, secondLine, secondEffect⟩ before first places second others
  cases firstEffect with
  | place statement =>
      cases places
      cases secondEffect with
      | place other =>
          cases others
          rcases before with above | ⟨-, name, binds⟩
          · exact above
          · cases binds
      | _ => cases others
  | _ => cases places

end Outline

end TwoPass
