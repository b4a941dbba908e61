import TwoPass.Proofs.SourceOrder
import TwoPass.Proofs.StatementProblems

/-! # Where actions come from

Whatever a program does is done on one of its lines, and can be read off the tokens
of the line. A statement that is placed is spelled there, and if it is data its
operands have been counted. -/

namespace TwoPass

/-- Whether a problem can lie on a line, rather than in the program as a whole. -/
def Problem.liesOnLine : Problem → Bool
  | .emptySource | .missingEnd | .programTooLarge _ _ | .missingLineInfo => false
  | _ => true

theorem Problem.liesOnLine_of_blamesStatement {problem : Problem}
    (blames : problem.blamesStatement = true) : problem.liesOnLine = true := by
  cases problem <;> first | rfl | cases blames

/-- How an effect is spelled by the tokens of a line after its label. -/
inductive Effect.Spelled (tokens : List String) : Effect → Prop where
  | instruction (mnemonic : String) (operands : List String)
      (spelled : tokens = mnemonic :: operands) :
      Spelled tokens (.place (.instruction mnemonic operands))
  | storage (kind : Storage) (operands : List String) (spelled : tokens = kind.name :: operands)
      (counted : kind.arity.accepts operands.length = true) :
      Spelled tokens (.place (.storage kind operands))
  | enter (next : Section) : Spelled tokens (.enter next)
  | report (problem : Problem) (lies : problem.liesOnLine = true) :
      Spelled tokens (.report problem)

namespace Reading

variable {profile : Profile} {current : Option Section} {effect : Effect}

theorem spelled_of_single {tokens : List String} {only : Effect}
    (member : effect ∈ (single only).effects) (spelled : only.Spelled tokens) :
    effect.Spelled tokens := by
  rwa [List.mem_singleton.mp member]

theorem ofSection_spelled {next : Section} {name : String} (tokens : List String)
    (member : effect ∈ (ofSection current next name).effects) : effect.Spelled tokens := by
  unfold ofSection at member
  split at member
  · exact spelled_of_single member (.enter next)
  · exact spelled_of_single member (.report _ rfl)

theorem ofDirective_spelled {directive : Directive} {operands : List String}
    (member : effect ∈ (ofDirective profile current directive operands).effects) :
    effect.Spelled (directive.name :: operands) := by
  unfold ofDirective at member
  cases accepted : directive.arity.accepts operands.length with
  | false =>
      rw [Arity.check_of_rejected accepted] at member
      exact spelled_of_single member (.report _ rfl)
  | true =>
      rw [Arity.check_of_accepted accepted] at member
      cases directive with
      | origin => exact spelled_of_single member (.report _ rfl)
      | finish => cases member
      | text => exact ofSection_spelled _ member
      | data => exact ofSection_spelled _ member
      | global =>
          dsimp only at member
          split at member
          · exact spelled_of_single member (.report _ rfl)
          · cases member
      | storage kind =>
          dsimp only [ofStorage] at member
          split at member
          · exact spelled_of_single member (.report _ rfl)
          · exact spelled_of_single member (.storage kind operands rfl accepted)

theorem ofStatement_spelled {tokens : List String}
    (member : effect ∈ (ofStatement profile current tokens).effects) : effect.Spelled tokens := by
  cases tokens with
  | nil => cases member
  | cons name operands =>
      rw [ofStatement] at member
      split at member
      · cases named : Directive.ofName? profile name with
        | none =>
            rw [named] at member
            exact spelled_of_single member (.report _ rfl)
        | some directive =>
            rw [named] at member
            rw [← Directive.name_of_ofName? named]
            exact ofDirective_spelled member
      · unfold ofInstruction at member
        split at member
        · exact spelled_of_single member (.report _ rfl)
        · exact spelled_of_single member (.instruction name operands rfl)

end Reading

inductive Action.Spelled (profile : Profile) : Action → Prop where
  | label (line : SourceLine) (name : String)
      (spelled : (profile.takeLabel line.tokens).label = some name) :
      Spelled profile ⟨line, .bind name⟩
  | statement (line : SourceLine) (effect : Effect)
      (spelled : effect.Spelled (profile.takeLabel line.tokens).statement) :
      Spelled profile ⟨line, effect⟩

theorem Action.Spelled.statement_eq {profile : Profile} {line : SourceLine}
    {statement : Statement} (spelled : Spelled profile ⟨line, .place statement⟩) :
    (profile.takeLabel line.tokens).statement = statement.name :: statement.operands := by
  cases spelled with
  | statement line effect spelled =>
      cases spelled with
      | instruction mnemonic operands spelled => exact spelled
      | storage kind operands spelled counted => exact spelled

theorem Reading.ofTokens_spelled {profile : Profile} {current : Option Section}
    {line : SourceLine} {effect : Effect}
    (member : effect ∈ (ofTokens profile current line.tokens).effects) :
    Action.Spelled profile ⟨line, effect⟩ := by
  rcases List.mem_append.mp member with label | statement
  · rcases List.mem_map.mp label with ⟨name, spelled, rfl⟩
    exact .label line name (Option.mem_toList.mp spelled)
  · exact .statement line effect (ofStatement_spelled statement)

theorem Scan.readOrigin_liesOnLine {tokens : List String} {problem : Problem}
    (failed : Scan.readOrigin tokens = .error problem) : problem.liesOnLine = true := by
  unfold Scan.readOrigin at failed
  split at failed
  · apply Problem.liesOnLine_of_blamesStatement
    apply Problem.blamesStatement_of_blamesOperand
    exact Numeral.immediate_blames .word _ problem (map_eq_error.mp failed)
  · cases failed
    rfl

namespace Outline

variable {options : Options} {lines : List SourceLine} {action : Action}

theorem ofBody_spelled {profile : Profile} {origin : Address} {required : List OpeningLine}
    {current : Option Section}
    (member : action ∈ (ofBody profile origin required current lines).actions) :
    action.Spelled profile := by
  induction lines generalizing required current with
  | nil => cases member
  | cons line lines induction =>
      rw [ofBody] at member
      cases met : unmet? required line with
      | some opening =>
          rw [met] at member
          rw [List.mem_singleton.mp member]
          exact .statement line _ (.report _ rfl)
      | none =>
          have here {effects : List Effect} {flow : Flow}
              (reading : Reading.ofTokens profile current line.tokens = ⟨effects, flow⟩)
              (member : action ∈ effects.map (Action.mk line)) : action.Spelled profile := by
            rcases List.mem_map.mp member with ⟨effect, present, rfl⟩
            apply Reading.ofTokens_spelled
            rw [reading]
            exact present
          rw [met] at member
          cases reading : Reading.ofTokens profile current line.tokens with
          | mk effects flow =>
              simp only [reading] at member
              cases flow with
              | finish => exact here reading member
              | abandon => exact here reading member
              | proceed =>
                  rcases List.mem_append.mp member with now | later
                  · exact here reading now
                  · exact induction later

theorem ofLines_spelled (member : action ∈ (ofLines options lines).actions) :
    action.Spelled options.profile := by
  unfold ofLines at member
  split at member
  · cases member
  · split at member
    · rename_i problem failed
      rw [List.mem_singleton.mp member]
      exact .statement _ _ (.report problem (Scan.readOrigin_liesOnLine failed))
    · exact ofBody_spelled member

end Outline

end TwoPass
