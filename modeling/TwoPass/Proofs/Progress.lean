import TwoPass.Proofs.FirstPass

/-! # Progress of the first pass

With each line the first pass goes from one state to the next. `Scan.Reaches` tells
the states it can come to and `Scan.Advances` all that a line can do on the way, so
what holds of every state is proved along the one by cases of the other. -/

namespace TwoPass

/-- The state after a line, whether or not reading goes on. -/
def Step.scan : Step → Scan
  | .proceed _ scan => scan
  | .halt scan => scan

namespace Scan

inductive Advances (options : Options) (line : SourceLine) :
    Stage → Scan → Stage → Scan → Prop where
  | blank (stage : Stage) (scan : Scan) (insignificant : ¬ line.isSignificant) :
      Advances options line stage scan stage scan
  | opens (scan : Scan) (origin : Address) (significant : line.isSignificant)
      (read : readOrigin line.tokens = .ok origin) :
      Advances options line .origin scan (.body options.prologue)
        { scan with origin := some origin }
  | reads (required : List OpeningLine) (scan : Scan) (effects : List Effect)
      (significant : line.isSignificant) (met : Outline.unmet? required line = none)
      (reading : Reading.ofTokens options.profile scan.openSection line.tokens =
        ⟨effects, .proceed⟩) :
      Advances options line (.body required) scan (.body required.tail)
        (scan.performAll options.profile (effects.map (Action.mk line)))

theorem step_blank (options : Options) (stage : Stage) (scan : Scan) {line : SourceLine}
    (insignificant : ¬ line.isSignificant) :
    scan.step options stage line = .proceed stage scan := by
  have empty : (normalize line.text.toList).isEmpty := by
    simpa [SourceLine.isSignificant, SourceLine.normal] using insignificant
  exact if_pos empty

theorem advances_of_step {options : Options} {stage next : Stage} {scan after : Scan}
    {line : SourceLine} (step : scan.step options stage line = .proceed next after) :
    Advances options line stage scan next after := by
  by_cases significant : line.isSignificant
  · cases stage with
    | origin =>
        rw [step_origin options scan line significant] at step
        cases read : readOrigin line.tokens with
        | ok origin =>
            rw [read] at step
            cases step
            exact .opens scan origin significant read
        | error problem =>
            rw [read] at step
            cases step
    | body required =>
        rw [step_body options required scan line significant] at step
        cases met : Outline.unmet? required line with
        | some opening =>
            rw [met] at step
            cases step
        | none =>
            rw [met] at step
            cases reading : Reading.ofTokens options.profile scan.openSection line.tokens with
            | mk effects flow =>
                simp only [reading, follow] at step
                cases flow with
                | proceed =>
                    cases step
                    exact .reads required scan effects significant met reading
                | finish => cases step
                | abandon => cases step
  · rw [step_blank options stage scan significant] at step
    cases step
    exact .blank stage scan significant

theorem step_image (options : Options) (stage : Stage) (scan : Scan) (line : SourceLine) :
    (scan.step options stage line).scan.image = scan.image ∨
      (scan.step options stage line).scan =
        scan.performAll options.profile
          ((Reading.ofTokens options.profile scan.openSection line.tokens).effects.map
            (Action.mk line)) := by
  by_cases significant : line.isSignificant
  · cases stage with
    | origin =>
        rw [step_origin options scan line significant]
        cases readOrigin line.tokens <;> exact .inl rfl
    | body required =>
        rw [step_body options required scan line significant]
        cases Outline.unmet? required line with
        | some opening => exact .inl rfl
        | none =>
            right
            generalize Reading.ofTokens options.profile scan.openSection line.tokens = reading
            rcases reading with ⟨effects, flow⟩
            cases flow <;> rfl
  · rw [step_blank options stage scan significant]
    exact .inl rfl

/-! ## States on the way -/

/-- The state that the first pass is in after the given lines, none of which ended it. -/
inductive Reaches (options : Options) : List SourceLine → Stage → Scan → Prop where
  | start : Reaches options [] .origin {}
  | proceeds {read : List SourceLine} {stage next : Stage} {scan after : Scan}
      (line : SourceLine) (reached : Reaches options read stage scan)
      (step : scan.step options stage line = .proceed next after) :
      Reaches options (read ++ [line]) next after

def readAll (options : Options) (stage : Stage) (scan : Scan) :
    List SourceLine → Option (Stage × Scan)
  | [] => some (stage, scan)
  | line :: lines =>
    match scan.step options stage line with
    | .proceed next after => after.readAll options next lines
    | .halt _ => none

variable {options : Options} {read : List SourceLine} {stage : Stage} {scan : Scan}

theorem Reaches.readAll (reached : Reaches options read stage scan)
    (rest : List SourceLine) {last : Stage × Scan}
    (comes : scan.readAll options stage rest = some last) :
    Reaches options (read ++ rest) last.1 last.2 := by
  induction rest generalizing read stage scan with
  | nil =>
      cases comes
      rwa [List.append_nil]
  | cons line rest induction =>
      rw [Scan.readAll] at comes
      cases step : scan.step options stage line with
      | halt final =>
          rw [step] at comes
          cases comes
      | proceed next after =>
          rw [step] at comes
          have onwards := induction (reached.proceeds line step) comes
          rwa [List.append_assoc] at onwards

/-- From a state that it reaches, the first pass of a program goes on with the lines
still to be read. -/
theorem Reaches.ofLines_eq_run (reached : Reaches options read stage scan)
    (rest : List SourceLine) : ofLines options (read ++ rest) = scan.run options stage rest := by
  induction reached generalizing rest with
  | start => rfl
  | proceeds line reached step induction =>
      rw [List.append_assoc, induction, List.singleton_append, run, step]

theorem Reaches.last (reached : Reaches options read stage scan) (rest : List SourceLine) :
    (∃ stage last, Reaches options (read ++ rest) stage last ∧
      (ofLines options (read ++ rest)).image = last.image) ∨
    ∃ more line later stage last, rest = more ++ line :: later ∧
      Reaches options (read ++ more) stage last ∧
      (last.step options stage line).scan = ofLines options (read ++ rest) := by
  induction rest generalizing read stage scan with
  | nil =>
      left
      rw [List.append_nil]
      refine ⟨stage, scan, reached, ?_⟩
      have ended := reached.ofLines_eq_run []
      rw [List.append_nil] at ended
      rw [ended, run]
  | cons line rest induction =>
      cases step : scan.step options stage line with
      | halt final =>
          right
          refine ⟨[], line, rest, stage, scan, rfl, by rwa [List.append_nil], ?_⟩
          rw [reached.ofLines_eq_run, run, step]
          rfl
      | proceed next after =>
          have onwards := induction (reached.proceeds line step)
          rw [List.append_assoc, List.singleton_append] at onwards
          rcases onwards with whole | ⟨more, stopped, later, stage, last, rfl, before, final⟩
          · exact .inl whole
          · refine .inr ⟨line :: more, stopped, later, stage, last, rfl, ?_, final⟩
            rwa [List.append_assoc, List.singleton_append] at before

/-! ## Outlines on the way -/

/-- What the outline of a program says of the lines that lead to a state. Whatever
comes after them, they are read in the same way. -/
inductive Traced (options : Options) (read : List SourceLine) : Stage → Scan → Prop where
  | blank (insignificant : ∀ line ∈ read, ¬ line.isSignificant) :
      Traced options read .origin {}
  | body (origin : Address) (required : List OpeningLine) (scan : Scan) (actions : List Action)
      (outline : ∀ rest, Outline.ofLines options (read ++ rest) =
        let body := Outline.ofBody options.profile origin required scan.openSection
          (rest.filter SourceLine.isSignificant)
        { body with actions := actions ++ body.actions }) :
      Traced options read (.body required) scan

theorem Advances.traced {line : SourceLine} {next : Stage} {after : Scan}
    (advances : Advances options line stage scan next after)
    (traced : Traced options read stage scan) : Traced options (read ++ [line]) next after := by
  cases advances with
  | blank stage scan insignificant =>
      cases traced with
      | blank before =>
          refine .blank fun other member => ?_
          rcases List.mem_append.mp member with earlier | last
          · exact before other earlier
          · rwa [List.mem_singleton.mp last]
      | body origin required scan actions outline =>
          refine .body origin required scan actions fun rest => ?_
          rw [List.append_assoc, outline, List.singleton_append,
            List.filter_cons_of_neg insignificant]
  | opens scan origin significant first =>
      cases traced with
      | blank before =>
          refine .body origin options.prologue _ [] fun rest => ?_
          have skipped : read.filter SourceLine.isSignificant = [] :=
            List.filter_eq_nil_iff.mpr before
          rw [Outline.ofLines, List.append_assoc, List.filter_append, skipped, List.nil_append,
            List.singleton_append, List.filter_cons_of_pos significant]
          simp only [first, List.nil_append]
  | reads required scan effects significant met reading =>
      cases traced with
      | body origin required scan actions outline =>
          refine .body origin required.tail _ (actions ++ effects.map (Action.mk line))
            fun rest => ?_
          rw [List.append_assoc, outline, List.singleton_append,
            List.filter_cons_of_pos significant, Outline.ofBody, met, performAll_openSection]
          simp only [reading, List.append_assoc]

theorem Reaches.traced (reached : Reaches options read stage scan) :
    Traced options read stage scan := by
  induction reached with
  | start => exact .blank nofun
  | proceeds line _ step induction => exact (advances_of_step step).traced induction

end Scan

end TwoPass
