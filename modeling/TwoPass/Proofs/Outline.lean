import TwoPass.Program.Assembly

/-! # Outlines

What the lines of a program do can be told before a label is bound or a word is
encoded: only the section that is open has to be followed from line to line. The
outline of a program lists these effects in order. The first pass carries them out
and does nothing else, so what holds of it is proved along the outline. -/

namespace TwoPass

inductive Effect where
  | bind (name : String)
  | place (statement : Statement)
  | enter (next : Section)
  | report (problem : Problem)
  deriving DecidableEq, Repr

structure Action where
  line : SourceLine
  effect : Effect
  deriving DecidableEq, Repr

inductive Flow where
  | proceed
  | finish
  /-- The rest of the program has no meaning. -/
  | abandon
  deriving DecidableEq, Repr

structure Reading where
  effects : List Effect
  flow : Flow
  deriving DecidableEq, Repr

inductive Ending where
  | finished
  | abandoned
  | exhausted (stage : Stage)
  deriving DecidableEq, Repr

namespace SourceLine

def normal (line : SourceLine) : List Char :=
  normalize line.text.toList

def tokens (line : SourceLine) : List String :=
  tokenize line.normal

/-- Whether there is more to a line than blanks and a comment. -/
def isSignificant (line : SourceLine) : Bool :=
  !line.normal.isEmpty

end SourceLine

namespace Reading

def single (effect : Effect) : Reading :=
  ⟨[effect], .proceed⟩

/-- Sections come in order, text before data, and none of them twice. -/
def ofSection (current : Option Section) (next : Section) (name : String) : Reading :=
  if current = none ∨ current = some .text ∧ next = .data then
    single (.enter next)
  else
    ⟨[.report (.sectionOrder name)], .abandon⟩

def ofStorage (profile : Profile) (current : Option Section) (kind : Storage)
    (operands : List String) : Reading :=
  if profile.sectioned ∧ current ≠ some .data then
    single (.report (.dataInTextSection kind.name))
  else
    single (.place (.storage kind operands))

def ofInstruction (current : Option Section) (mnemonic : String) (operands : List String) :
    Reading :=
  if current = some .data then
    single (.report (.instructionInDataSection mnemonic))
  else
    single (.place (.instruction mnemonic operands))

def ofDirective (profile : Profile) (current : Option Section) (directive : Directive)
    (operands : List String) : Reading :=
  match directive.arity.check directive.name operands with
  | .error problem => single (.report problem)
  | .ok () =>
    match directive with
    | .origin => single (.report .duplicateOrigin)
    | .finish => ⟨[], .finish⟩
    | .text => ofSection current .text directive.name
    | .data => ofSection current .data directive.name
    | .global =>
      match operands.find? (!isLabelName ·) with
      | some symbol => single (.report (.invalidSymbol symbol))
      | none => ⟨[], .proceed⟩
    | .storage kind => ofStorage profile current kind operands

def ofStatement (profile : Profile) (current : Option Section) : List String → Reading
  | [] => ⟨[], .proceed⟩
  | name :: operands =>
    if startsWith '.' name then
      match Directive.ofName? profile name with
      | some directive => ofDirective profile current directive operands
      | none => single (.report (.unknownMnemonic name))
    else
      ofInstruction current name operands

def ofTokens (profile : Profile) (current : Option Section) (tokens : List String) : Reading :=
  let parts := profile.takeLabel tokens
  let reading := ofStatement profile current parts.statement
  ⟨parts.label.toList.map .bind ++ reading.effects, reading.flow⟩

end Reading

namespace Effect

def sectionAfter (current : Option Section) : Effect → Option Section
  | .enter next => some next
  | .bind _ | .place _ | .report _ => current

end Effect

structure Outline where
  /-- The address of the first word, if the line that gives it is accepted. -/
  origin : Option Address
  actions : List Action
  ending : Ending
  deriving DecidableEq, Repr

namespace Outline

/-- The line that is required next, if the given line is a different one. -/
def unmet? (required : List OpeningLine) (line : SourceLine) : Option OpeningLine :=
  required.head?.filter fun opening => !opening.accepts line.normal line.tokens

def ofBody (profile : Profile) (origin : Address) :
    List OpeningLine → Option Section → List SourceLine → Outline
  | required, _, [] => ⟨some origin, [], .exhausted (.body required)⟩
  | required, current, line :: lines =>
    match unmet? required line with
    | some opening =>
      ⟨some origin, [⟨line, .report (.missingPrologue opening.spelling)⟩], .abandoned⟩
    | none =>
      let reading := Reading.ofTokens profile current line.tokens
      let actions := reading.effects.map (Action.mk line)
      match reading.flow with
      | .finish => ⟨some origin, actions, .finished⟩
      | .abandon => ⟨some origin, actions, .abandoned⟩
      | .proceed =>
        let afterwards := reading.effects.foldl Effect.sectionAfter current
        let rest := ofBody profile origin required.tail afterwards lines
        { rest with actions := actions ++ rest.actions }

def ofLines (options : Options) (lines : List SourceLine) : Outline :=
  match lines.filter SourceLine.isSignificant with
  | [] => ⟨none, [], .exhausted .origin⟩
  | first :: rest =>
    match Scan.readOrigin first.tokens with
    | .error problem => ⟨none, [⟨first, .report problem⟩], .abandoned⟩
    | .ok origin => ofBody options.profile origin options.prologue none rest

def ofSource (options : Options) (source : String) : Outline :=
  ofLines options (SourceLine.ofText source)

theorem ofBody_origin (profile : Profile) (origin : Address) (required : List OpeningLine)
    (current : Option Section) (lines : List SourceLine) :
    (ofBody profile origin required current lines).origin = some origin := by
  induction lines generalizing required current with
  | nil => rfl
  | cons line lines induction =>
      rw [ofBody]
      cases unmet? required line with
      | some opening => rfl
      | none =>
          generalize Reading.ofTokens profile current line.tokens = reading
          rcases reading with ⟨effects, flow⟩
          cases flow with
          | finish => rfl
          | abandon => rfl
          | proceed => exact induction required.tail (effects.foldl Effect.sectionAfter current)

theorem ofBody_of_proceed {profile : Profile} {required : List OpeningLine} {line : SourceLine}
    {current : Option Section} {effects : List Effect} (met : unmet? required line = none)
    (reading : Reading.ofTokens profile current line.tokens = ⟨effects, .proceed⟩)
    (origin : Address) (lines : List SourceLine) :
    ofBody profile origin required current (line :: lines) =
      let rest := ofBody profile origin required.tail
        (effects.foldl Effect.sectionAfter current) lines
      { rest with actions := effects.map (Action.mk line) ++ rest.actions } := by
  rw [ofBody, met]
  simp only [reading]

theorem ofSource_of_origin {options : Options} {source : String} {first : SourceLine}
    {rest : List SourceLine} {origin : Address}
    (significant : (SourceLine.ofText source).filter SourceLine.isSignificant = first :: rest)
    (read : Scan.readOrigin first.tokens = .ok origin) :
    ofSource options source = ofBody options.profile origin options.prologue none rest := by
  simp only [ofSource, ofLines, significant, read]

end Outline

/-! ## The first pass along an outline -/

def Statement.cellKind : Statement → CellKind
  | .instruction _ _ => .instruction
  | .storage _ _ => .data

namespace Scan

def perform (profile : Profile) (scan : Scan) (action : Action) : Scan :=
  match action.effect with
  | .bind name => scan.defineLabel profile action.line name
  | .place statement => scan.place profile statement.cellKind action.line statement
  | .enter next => { scan with openSection := some next }
  | .report problem => scan.report action.line problem

def performAll (profile : Profile) (scan : Scan) (actions : List Action) : Scan :=
  actions.foldl (perform profile) scan

def close (scan : Scan) : Ending → Scan
  | .finished | .abandoned => scan
  | .exhausted stage => { scan with diagnostics := scan.diagnostics ++ [exhausted stage] }

def follow (profile : Profile) (scan : Scan) (stage : Stage) (line : SourceLine)
    (reading : Reading) : Step :=
  let done := scan.performAll profile (reading.effects.map (Action.mk line))
  match reading.flow with
  | .proceed => .proceed stage done
  | .finish | .abandon => .halt done

theorem performAll_append (profile : Profile) (scan : Scan) (first second : List Action) :
    scan.performAll profile (first ++ second) =
      (scan.performAll profile first).performAll profile second :=
  List.foldl_append

theorem defineLabel_openSection (scan : Scan) (profile : Profile) (line : SourceLine)
    (name : String) : (scan.defineLabel profile line name).openSection = scan.openSection := by
  unfold defineLabel
  split
  · split <;> rfl
  · rfl

theorem place_openSection (scan : Scan) (profile : Profile) (kind : CellKind)
    (line : SourceLine) (statement : Statement) :
    (scan.place profile kind line statement).openSection = scan.openSection := by
  simp only [place]
  split
  · split <;> rfl
  · rfl

theorem perform_openSection (profile : Profile) (scan : Scan) (action : Action) :
    (scan.perform profile action).openSection =
      action.effect.sectionAfter scan.openSection := by
  unfold perform
  split <;> rename_i given <;> rw [given]
  · exact scan.defineLabel_openSection profile action.line _
  · exact scan.place_openSection profile _ action.line _
  · rfl
  · rfl

theorem performAll_openSection (profile : Profile) (scan : Scan) (line : SourceLine)
    (effects : List Effect) :
    (scan.performAll profile (effects.map (Action.mk line))).openSection =
      effects.foldl Effect.sectionAfter scan.openSection := by
  induction effects generalizing scan with
  | nil => rfl
  | cons effect effects induction =>
      have step := scan.perform_openSection profile ⟨line, effect⟩
      rw [List.foldl_cons, ← step]
      exact induction (scan.perform profile ⟨line, effect⟩)

/-! Each part of the first pass carries out the reading of the same part. -/

theorem beginSection_eq_follow (profile : Profile) (scan : Scan) (stage : Stage)
    (line : SourceLine) (next : Section) (name : String) :
    scan.beginSection stage line next name =
      scan.follow profile stage line (.ofSection scan.openSection next name) := by
  unfold beginSection mayOpen Reading.ofSection
  rcases scan.openSection with _ | _ | _ <;> cases next <;> rfl

theorem storage_eq_follow (profile : Profile) (scan : Scan) (stage : Stage)
    (line : SourceLine) (kind : Storage) (operands : List String) :
    .proceed stage (scan.storage profile line kind operands) =
      scan.follow profile stage line (.ofStorage profile scan.openSection kind operands) := by
  unfold storage Reading.ofStorage
  split <;> rfl

theorem instruction_eq_follow (profile : Profile) (scan : Scan) (stage : Stage)
    (line : SourceLine) (mnemonic : String) (operands : List String) :
    .proceed stage (scan.instruction profile line mnemonic operands) =
      scan.follow profile stage line (.ofInstruction scan.openSection mnemonic operands) := by
  unfold instruction Reading.ofInstruction
  split <;> rfl

theorem directive_eq_follow (profile : Profile) (scan : Scan) (stage : Stage)
    (line : SourceLine) (directive : Directive) (operands : List String) :
    scan.directive profile stage line directive operands =
      scan.follow profile stage line
        (.ofDirective profile scan.openSection directive operands) := by
  unfold Scan.directive Reading.ofDirective
  cases directive.arity.check directive.name operands with
  | error problem => rfl
  | ok _ =>
      cases directive with
      | origin => rfl
      | finish => rfl
      | text => exact scan.beginSection_eq_follow profile stage line .text _
      | data => exact scan.beginSection_eq_follow profile stage line .data _
      | global => cases operands.find? (!isLabelName ·) <;> rfl
      | storage kind => exact scan.storage_eq_follow profile stage line kind operands

theorem unlabelled_eq_follow (profile : Profile) (scan : Scan) (stage : Stage)
    (line : SourceLine) (tokens : List String) :
    scan.unlabelled profile stage line tokens =
      scan.follow profile stage line (.ofStatement profile scan.openSection tokens) := by
  cases tokens with
  | nil => rfl
  | cons name operands =>
      rw [unlabelled, Reading.ofStatement]
      split
      · cases Directive.ofName? profile name with
        | none => rfl
        | some directive => exact scan.directive_eq_follow profile stage line directive operands
      · exact scan.instruction_eq_follow profile stage line name operands

theorem statement_eq_follow (profile : Profile) (scan : Scan) (stage : Stage)
    (line : SourceLine) (tokens : List String) :
    scan.statement profile stage line tokens =
      scan.follow profile stage line (.ofTokens profile scan.openSection tokens) := by
  unfold Scan.statement Reading.ofTokens
  dsimp only
  cases (profile.takeLabel tokens).label with
  | none => exact scan.unlabelled_eq_follow profile stage line _
  | some name =>
      have bound := (scan.defineLabel profile line name).unlabelled_eq_follow profile stage line
        (profile.takeLabel tokens).statement
      rw [scan.defineLabel_openSection profile line name] at bound
      exact bound

/-! ## The first pass of a whole program -/

theorem run_filter (options : Options) (stage : Stage) (scan : Scan)
    (lines : List SourceLine) :
    scan.run options stage lines =
      scan.run options stage (lines.filter SourceLine.isSignificant) := by
  induction lines generalizing stage scan with
  | nil => rfl
  | cons line lines induction =>
      by_cases blank : line.normal.isEmpty
      · have skipped : scan.step options stage line = .proceed stage scan := if_pos blank
        rw [List.filter_cons_of_neg (by simp [SourceLine.isSignificant, blank]), ← induction]
        simp only [run, skipped]
      · rw [List.filter_cons_of_pos (by simp [SourceLine.isSignificant, blank])]
        simp only [run]
        cases scan.step options stage line with
        | proceed stage scan => exact induction stage scan
        | halt scan => rfl

theorem step_origin (options : Options) (scan : Scan) (line : SourceLine)
    (significant : line.isSignificant) :
    scan.step options .origin line =
      match readOrigin line.tokens with
      | .ok origin => .proceed (.body options.prologue) { scan with origin := some origin }
      | .error problem => .halt (scan.report line problem) := by
  have present : ¬ (normalize line.text.toList).isEmpty := by
    simpa [SourceLine.isSignificant, SourceLine.normal] using significant
  unfold Scan.step
  rw [if_neg present]
  cases read : readOrigin line.tokens with
  | ok origin =>
      have found : readOrigin (tokenize (normalize line.text.toList)) = .ok origin := read
      simp only [found]
  | error problem =>
      have found : readOrigin (tokenize (normalize line.text.toList)) = .error problem := read
      simp only [found]

theorem step_body (options : Options) (required : List OpeningLine) (scan : Scan)
    (line : SourceLine) (significant : line.isSignificant) :
    scan.step options (.body required) line =
      match Outline.unmet? required line with
      | some opening => .halt (scan.report line (.missingPrologue opening.spelling))
      | none =>
        scan.follow options.profile (.body required.tail) line
          (.ofTokens options.profile scan.openSection line.tokens) := by
  have present : ¬ (normalize line.text.toList).isEmpty := by
    simpa [SourceLine.isSignificant, SourceLine.normal] using significant
  unfold Scan.step
  rw [if_neg present]
  cases required with
  | nil => exact scan.statement_eq_follow options.profile (.body []) line line.tokens
  | cons opening others =>
      by_cases accepted : opening.accepts line.normal line.tokens
      · have met : Outline.unmet? (opening :: others) line = none := by
          simp [Outline.unmet?, accepted]
        rw [met]
        exact (if_pos accepted).trans
          (scan.statement_eq_follow options.profile (.body others) line line.tokens)
      · have unmet : Outline.unmet? (opening :: others) line = some opening := by
          simp [Outline.unmet?, accepted]
        rw [unmet]
        exact if_neg accepted

theorem run_body (options : Options) (origin : Address) (required : List OpeningLine)
    (scan : Scan) (lines : List SourceLine)
    (significant : ∀ line ∈ lines, line.isSignificant) :
    let outline := Outline.ofBody options.profile origin required scan.openSection lines
    scan.run options (.body required) lines =
      (scan.performAll options.profile outline.actions).close outline.ending := by
  -- The outline is that of the section which the scan has open, at every line.
  induction lines generalizing required scan with
  | nil => rfl
  | cons line lines induction =>
      have here : line.isSignificant := significant line List.mem_cons_self
      have later : ∀ line ∈ lines, line.isSignificant := fun other member =>
        significant other (List.mem_cons_of_mem line member)
      rw [run, step_body options required scan line here, Outline.ofBody]
      cases Outline.unmet? required line with
      | some opening => rfl
      | none =>
          generalize Reading.ofTokens options.profile scan.openSection line.tokens = reading
          rcases reading with ⟨effects, flow⟩
          cases flow with
          | finish => rfl
          | abandon => rfl
          | proceed =>
              have rest := induction required.tail
                (scan.performAll options.profile (effects.map (Action.mk line))) later
              rw [performAll_openSection] at rest
              simp only [follow, performAll_append]
              exact rest

/-- The first pass carries out the outline of a program. -/
theorem ofLines_eq_performAll (options : Options) (lines : List SourceLine) :
    let outline := Outline.ofLines options lines
    ofLines options lines =
      (performAll options.profile { origin := outline.origin } outline.actions).close
        outline.ending := by
  have significant : ∀ line ∈ lines.filter SourceLine.isSignificant, line.isSignificant :=
    fun line member => (List.mem_filter.mp member).2
  unfold ofLines Outline.ofLines
  rw [run_filter]
  cases present : lines.filter SourceLine.isSignificant with
  | nil => rfl
  | cons first rest =>
      rw [present] at significant
      dsimp only
      rw [run, step_origin options {} first (significant first List.mem_cons_self)]
      cases readOrigin first.tokens with
      | error problem => rfl
      | ok origin =>
          have body := run_body options origin options.prologue { origin := some origin } rest
            fun line member => significant line (List.mem_cons_of_mem first member)
          dsimp only
          rw [Outline.ofBody_origin]
          exact body

end Scan

end TwoPass
