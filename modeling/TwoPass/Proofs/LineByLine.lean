import TwoPass.Proofs.Outline

/-! # Reading line by line

All that one line can do is said here once, and so is all that a program can do, line
after line. What holds of every program is proved along `Outline.Follows`, where
nothing is left of sections and directives but their effects. -/

namespace TwoPass

def SourceLine.EndsProgram (line : SourceLine) (profile : Profile) : Prop :=
  (profile.takeLabel line.tokens).statement = [".end"]

theorem SourceLine.tokens_of_blank {line : SourceLine} (blank : ¬ line.isSignificant) :
    line.tokens = [] := by
  have empty : line.normal = [] := by simpa [isSignificant] using blank
  rw [tokens, empty]
  rfl

theorem SourceLine.isSignificant_of_tokens {line : SourceLine} (some : line.tokens ≠ []) :
    line.isSignificant :=
  Decidable.byContradiction fun blank => some (tokens_of_blank blank)

theorem Scan.tokens_of_readOrigin {tokens : List String} {origin : Address}
    (read : readOrigin tokens = .ok origin) : ∃ start, tokens = [".orig", start] := by
  unfold readOrigin at read
  split at read
  · exact ⟨_, rfl⟩
  · cases read

theorem Directive.ofName?_eq_some_iff (profile : Profile) (name : String)
    (directive : Directive) :
    ofName? profile name = some directive ↔
      name = directive.name ∧ (directive.concernsSections → profile.sectioned) := by
  constructor
  · intro found
    have known := List.find?_some found
    simp only [Bool.and_eq_true, beq_iff_eq, Bool.or_eq_true, Bool.not_eq_true'] at known
    refine ⟨known.1.symm, fun concerns => ?_⟩
    rcases known.2 with plain | sectioned
    · cases concerns.symm.trans plain
    · exact sectioned
  · rintro ⟨rfl, concerns⟩
    cases directive with
    | origin => cases profile <;> decide
    | finish => cases profile <;> decide
    | storage kind => cases profile <;> cases kind <;> decide
    | text =>
        cases profile with
        | baseline => cases concerns rfl
        | compact => decide
    | data =>
        cases profile with
        | baseline => cases concerns rfl
        | compact => decide
    | global =>
        cases profile with
        | baseline => cases concerns rfl
        | compact => decide

theorem Directive.name_of_ofName? {profile : Profile} {name : String} {directive : Directive}
    (found : Directive.ofName? profile name = some directive) : directive.name = name :=
  ((ofName?_eq_some_iff profile name directive).mp found).1.symm

theorem Directive.ofName?_eq_finish_iff (profile : Profile) (name : String) :
    Directive.ofName? profile name = some .finish ↔ name = ".end" := by
  rw [ofName?_eq_some_iff]
  exact and_iff_left fun concerns => absurd concerns (by decide)

/-! ## One line -/

namespace Reading

/-- What the tokens after a label can do: end the program, or at most one thing. -/
inductive Possible (tokens : List String) : Reading → Prop where
  | finish (ends : tokens = [".end"]) : Possible tokens ⟨[], .finish⟩
  | nothing (continues : tokens ≠ [".end"]) : Possible tokens ⟨[], .proceed⟩
  | single (effect : Effect) (continues : tokens ≠ [".end"]) : Possible tokens (.single effect)
  | abandon (problem : Problem) (continues : tokens ≠ [".end"]) :
      Possible tokens ⟨[.report problem], .abandon⟩

theorem ofSection_possible {tokens : List String} (continues : tokens ≠ [".end"])
    (current : Option Section) (next : Section) (name : String) :
    Possible tokens (ofSection current next name) := by
  unfold ofSection
  split
  · exact .single _ continues
  · exact .abandon _ continues

theorem ofDirective_possible {profile : Profile} {name : String} {directive : Directive}
    (named : Directive.ofName? profile name = some directive) (current : Option Section)
    (operands : List String) :
    Possible (name :: operands) (ofDirective profile current directive operands) := by
  have finishes : directive = .finish ↔ name = ".end" := by
    rw [← Directive.ofName?_eq_finish_iff profile name, named, Option.some.injEq]
  have continues (other : directive ≠ .finish) : name :: operands ≠ [".end"] := by
    intro ends
    exact other (finishes.mpr (List.cons.inj ends).1)
  unfold ofDirective
  cases checked : directive.arity.check directive.name operands with
  | error problem =>
      refine .single _ fun ends => ?_
      rcases List.cons.inj ends with ⟨same, rfl⟩
      rw [finishes.mpr same] at checked
      cases checked
  | ok _ =>
      cases directive with
      | origin => exact .single _ (continues nofun)
      | finish =>
          cases operands with
          | nil => exact .finish (by rw [finishes.mp rfl])
          | cons first rest => cases checked
      | text => exact ofSection_possible (continues nofun) current .text _
      | data => exact ofSection_possible (continues nofun) current .data _
      | global =>
          dsimp only
          split
          · exact .single _ (continues nofun)
          · exact .nothing (continues nofun)
      | storage kind =>
          dsimp only [ofStorage]
          split <;> exact .single _ (continues nofun)

theorem ofStatement_possible (profile : Profile) (current : Option Section)
    (tokens : List String) : Possible tokens (ofStatement profile current tokens) := by
  cases tokens with
  | nil => exact .nothing nofun
  | cons name operands =>
      rw [ofStatement]
      split
      · cases named : Directive.ofName? profile name with
        | none =>
            refine .single _ fun ends => ?_
            have finishes := (Directive.ofName?_eq_finish_iff profile name).mpr
              (List.cons.inj ends).1
            cases named.symm.trans finishes
        | some directive => exact ofDirective_possible named current operands
      · rename_i plain
        have continues : name :: operands ≠ [".end"] := by
          intro ends
          rw [(List.cons.inj ends).1] at plain
          exact plain rfl
        unfold ofInstruction
        split <;> exact .single _ continues

end Reading

/-- Effects of which only the last may be other than to bind a label. -/
def BindFirst (effects : List Effect) : Prop :=
  effects.Pairwise fun first _ => ∃ name, first = .bind name

inductive Reading.Complete (tokens : List String) : Reading → Prop where
  | finish (effects : List Effect) (ordered : BindFirst effects) (ends : tokens = [".end"]) :
      Complete tokens ⟨effects, .finish⟩
  | proceed (effects : List Effect) (ordered : BindFirst effects)
      (continues : tokens ≠ [".end"]) : Complete tokens ⟨effects, .proceed⟩
  | abandon (effects : List Effect) (problem : Problem) (ordered : BindFirst effects)
      (reported : .report problem ∈ effects) : Complete tokens ⟨effects, .abandon⟩

theorem Reading.ofTokens_complete (profile : Profile) (current : Option Section)
    (tokens : List String) :
    Complete (profile.takeLabel tokens).statement (ofTokens profile current tokens) := by
  unfold ofTokens
  generalize profile.takeLabel tokens = parts
  have labelled (effects : List Effect) (alone : BindFirst effects) :
      BindFirst (parts.label.toList.map .bind ++ effects) := by
    cases parts.label with
    | none => exact alone
    | some name => exact List.Pairwise.cons (fun _ _ => ⟨name, rfl⟩) alone
  have possible := ofStatement_possible profile current parts.statement
  dsimp only
  generalize ofStatement profile current parts.statement = reading at possible ⊢
  cases possible with
  | finish ends => exact .finish _ (labelled [] .nil) ends
  | nothing continues => exact .proceed _ (labelled [] .nil) continues
  | single effect continues =>
      exact .proceed _ (labelled [effect] (List.pairwise_singleton _ _)) continues
  | abandon problem continues =>
      exact .abandon _ problem (labelled [.report problem] (List.pairwise_singleton _ _))
        (List.mem_append_right _ (List.mem_singleton_self _))

/-! ## A whole program -/

namespace Outline

inductive Follows (profile : Profile) (origin : Address) : List SourceLine → Outline → Prop where
  | exhausted (required : List OpeningLine) :
      Follows profile origin [] ⟨some origin, [], .exhausted (.body required)⟩
  | finished (line : SourceLine) (lines : List SourceLine) (effects : List Effect)
      (ordered : BindFirst effects) (ends : line.EndsProgram profile) :
      Follows profile origin (line :: lines)
        ⟨some origin, effects.map (Action.mk line), .finished⟩
  | abandoned (line : SourceLine) (lines : List SourceLine) (effects : List Effect)
      (problem : Problem) (ordered : BindFirst effects) (reported : .report problem ∈ effects) :
      Follows profile origin (line :: lines)
        ⟨some origin, effects.map (Action.mk line), .abandoned⟩
  | proceeds (line : SourceLine) (lines : List SourceLine) (effects : List Effect)
      (rest : Outline) (ordered : BindFirst effects) (continues : ¬ line.EndsProgram profile)
      (follows : Follows profile origin lines rest) :
      Follows profile origin (line :: lines)
        { rest with actions := effects.map (Action.mk line) ++ rest.actions }

theorem ofBody_follows (profile : Profile) (origin : Address) (required : List OpeningLine)
    (current : Option Section) (lines : List SourceLine) :
    Follows profile origin lines (ofBody profile origin required current lines) := by
  induction lines generalizing required current with
  | nil => exact .exhausted required
  | cons line lines induction =>
      rw [ofBody]
      cases unmet? required line with
      | some opening =>
          exact .abandoned line lines [.report _] _ (List.pairwise_singleton _ _)
            (List.mem_singleton_self _)
      | none =>
          have complete := Reading.ofTokens_complete profile current line.tokens
          generalize Reading.ofTokens profile current line.tokens = reading at complete ⊢
          cases complete with
          | finish effects ordered ends => exact .finished line lines effects ordered ends
          | abandon effects problem ordered reported =>
              exact .abandoned line lines effects problem ordered reported
          | proceed effects ordered continues =>
              exact .proceeds line lines effects _ ordered continues (induction _ _)

theorem Follows.origin_eq {profile : Profile} {origin : Address} {lines : List SourceLine}
    {outline : Outline} (follows : Follows profile origin lines outline) :
    outline.origin = some origin := by
  induction follows with
  | exhausted _ => rfl
  | finished _ _ _ _ _ => rfl
  | abandoned _ _ _ _ _ _ => rfl
  | proceeds _ _ _ _ _ _ _ induction => exact induction

inductive Opens (profile : Profile) (lines : List SourceLine) : Outline → Prop where
  | blank : Opens profile lines ⟨none, [], .exhausted .origin⟩
  | refused (line : SourceLine) (problem : Problem) :
      Opens profile lines ⟨none, [⟨line, .report problem⟩], .abandoned⟩
  | opened (first : SourceLine) (rest : List SourceLine) (origin : Address) (outline : Outline)
      (significant : lines.filter SourceLine.isSignificant = first :: rest)
      (read : Scan.readOrigin first.tokens = .ok origin)
      (follows : Follows profile origin rest outline) : Opens profile lines outline

theorem ofLines_opens (options : Options) (lines : List SourceLine) :
    Opens options.profile lines (ofLines options lines) := by
  unfold ofLines
  cases significant : lines.filter SourceLine.isSignificant with
  | nil => exact .blank
  | cons first rest =>
      dsimp only
      cases read : Scan.readOrigin first.tokens with
      | error problem => exact .refused first problem
      | ok origin =>
          exact .opened first rest origin _ significant read (ofBody_follows _ _ _ _ _)

end Outline

end TwoPass
