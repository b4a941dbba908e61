import Mathlib.Data.List.TakeWhile
import TwoPass.Proofs.DefinedLabels
import TwoPass.Proofs.Tokens

/-! # The prologue

A user's program with sections has to open with certain lines. These lines are read
like any others while they are checked, so a program that has them is assembled as if
nothing had been required, and one that lacks them comes to nothing else. -/

namespace TwoPass

/-! ## Required lines -/

namespace OpeningLine

def MetBy (line : SourceLine) : OpeningLine → Prop
  | .openText => line.tokens = [".text"]
  | .declareEntry => line.tokens = [".global", "_start"]
  | .defineEntry => ∃ blanks rest, (∀ character ∈ blanks, isBlank character = true) ∧
      line.normal = "_start".toList ++ blanks ++ ':' :: rest

theorem head?_trimStart_iff (text : List Char) :
    (trimStart text).head? = some ':' ↔
      ∃ blanks rest, (∀ character ∈ blanks, isBlank character = true) ∧
        text = blanks ++ ':' :: rest := by
  constructor
  · intro colon
    rcases List.head?_eq_some_iff.mp colon with ⟨rest, after⟩
    refine ⟨text.takeWhile isBlank, rest, fun _ => List.mem_takeWhile_imp, ?_⟩
    rw [← after]
    exact List.takeWhile_append_dropWhile.symm
  · rintro ⟨blanks, rest, blank, rfl⟩
    have dropped : trimStart (blanks ++ ':' :: rest) = trimStart (':' :: rest) :=
      List.dropWhile_append_of_pos blank
    rw [dropped]
    rfl

theorem accepts_iff_metBy (required : OpeningLine) (line : SourceLine) :
    required.accepts line.normal line.tokens = true ↔ required.MetBy line := by
  cases required with
  | openText => exact beq_iff_eq
  | declareEntry => exact beq_iff_eq
  | defineEntry =>
      simp only [accepts, MetBy, List.append_assoc]
      cases start : "_start".toList.isPrefixOf? line.normal with
      | none =>
          refine ⟨fun accepted => absurd accepted Bool.false_ne_true, ?_⟩
          rintro ⟨blanks, rest, -, spelled⟩
          cases start.symm.trans (List.isPrefixOf?_eq_some_iff_append_eq.mpr spelled.symm)
      | some rest =>
          have spelled := List.isPrefixOf?_eq_some_iff_append_eq.mp start
          simp only [← spelled, List.append_cancel_left_eq, beq_iff_eq]
          exact head?_trimStart_iff rest

theorem tokens_of_defineEntry {line : SourceLine} (met : OpeningLine.defineEntry.MetBy line) :
    ∃ others, line.tokens = "_start" :: others := by
  rcases met with ⟨blanks, rest, blank, spelled⟩
  have letters : "_start".toList = ['_', 's', 't', 'a', 'r', 't'] := by decide
  have plain : ∀ character ∈ "_start".toList,
      separatesTokens character = false ∧ isQuote character = false := by
    simp only [letters, List.forall_mem_cons, List.not_mem_nil, false_implies, implies_true]
    decide
  rw [List.append_assoc] at spelled
  rw [SourceLine.tokens, spelled]
  cases blanks with
  | nil => exact ⟨_, tokenize_append (by decide) plain rfl rfl rest⟩
  | cons first others =>
      have blank : isBlank first = true := blank first List.mem_cons_self
      have cuts : separatesTokens first = true := by simp [separatesTokens, blank]
      exact ⟨_, tokenize_append (by decide) plain cuts (not_isQuote_of_isBlank blank) _⟩

end OpeningLine

inductive Met : List OpeningLine → List SourceLine → Prop where
  | done (lines : List SourceLine) : Met [] lines
  | next {required : OpeningLine} {others : List OpeningLine} {line : SourceLine}
      {lines : List SourceLine} (here : required.MetBy line) (later : Met others lines) :
      Met (required :: others) (line :: lines)

theorem Met.exists_cons {required : OpeningLine} {others : List OpeningLine}
    {lines : List SourceLine} (met : Met (required :: others) lines) :
    ∃ line later, lines = line :: later ∧ required.MetBy line ∧ Met others later := by
  cases met with
  | next here later => exact ⟨_, _, rfl, here, later⟩

/-- The first of the required lines that is missing, and where it is missed. -/
inductive FirstUnmet : List OpeningLine → List SourceLine → OpeningLine → Location → Prop where
  | exhausted (required : OpeningLine) (others : List OpeningLine) :
      FirstUnmet (required :: others) [] required .program
  | differs {required : OpeningLine} {line : SourceLine} (different : ¬ required.MetBy line)
      (others : List OpeningLine) (lines : List SourceLine) :
      FirstUnmet (required :: others) (line :: lines) required (.line line)
  | later {required missing : OpeningLine} {others : List OpeningLine} {line : SourceLine}
      {lines : List SourceLine} {location : Location} (here : required.MetBy line)
      (unmet : FirstUnmet others lines missing location) :
      FirstUnmet (required :: others) (line :: lines) missing location

theorem met_or_firstUnmet (required : List OpeningLine) (lines : List SourceLine) :
    Met required lines ∨ ∃ missing location, FirstUnmet required lines missing location := by
  induction required generalizing lines with
  | nil => exact .inl (.done lines)
  | cons opening others induction =>
      cases lines with
      | nil => exact .inr ⟨opening, .program, .exhausted opening others⟩
      | cons line lines =>
          by_cases here : opening.MetBy line
          · rcases induction lines with met | ⟨missing, location, unmet⟩
            · exact .inl (.next here met)
            · exact .inr ⟨missing, location, .later here unmet⟩
          · exact .inr ⟨opening, .line line, .differs here others lines⟩

namespace Reading

theorem ofTokens_of_openText {line : SourceLine} (met : OpeningLine.openText.MetBy line) :
    ofTokens .compact none line.tokens = ⟨[.enter .text], .proceed⟩ := by
  have tokens : line.tokens = [".text"] := met
  rw [tokens]
  decide +kernel

theorem ofTokens_of_declareEntry {line : SourceLine} (met : OpeningLine.declareEntry.MetBy line) :
    ofTokens .compact (some .text) line.tokens = ⟨[], .proceed⟩ := by
  have tokens : line.tokens = [".global", "_start"] := met
  rw [tokens]
  decide +kernel

end Reading

/-! ## Outlines of checked lines -/

namespace Outline

theorem unmet?_of_metBy {required : OpeningLine} {line : SourceLine} (met : required.MetBy line)
    (others : List OpeningLine) : unmet? (required :: others) line = none := by
  have accepted := (required.accepts_iff_metBy line).mpr met
  simp [unmet?, accepted]

theorem unmet?_of_not_metBy {required : OpeningLine} {line : SourceLine}
    (different : ¬ required.MetBy line) (others : List OpeningLine) :
    unmet? (required :: others) line = some required := by
  have refused : required.accepts line.normal line.tokens = false :=
    Bool.eq_false_iff.mpr fun accepted => different ((required.accepts_iff_metBy line).mp accepted)
  simp [unmet?, refused]

/-- Lines that are as required are read as if nothing were. -/
theorem ofBody_of_met {required : List OpeningLine} {lines : List SourceLine}
    (met : Met required lines) (profile : Profile) (origin : Address)
    (current : Option Section) :
    ofBody profile origin required current lines = ofBody profile origin [] current lines := by
  induction met generalizing current with
  | done lines => rfl
  | @next required others line lines here later induction =>
      have free : unmet? [] line = none := rfl
      rw [ofBody, ofBody, unmet?_of_metBy here, free]
      simp only [List.tail_cons, List.tail_nil, induction]

theorem ofBody_actions_cons (profile : Profile) (origin : Address) (current : Option Section)
    (line : SourceLine) (lines : List SourceLine) :
    ∃ later, (ofBody profile origin [] current (line :: lines)).actions =
      (Reading.ofTokens profile current line.tokens).effects.map (Action.mk line) ++ later := by
  have free : unmet? [] line = none := rfl
  rw [ofBody, free]
  generalize Reading.ofTokens profile current line.tokens = reading
  rcases reading with ⟨effects, flow⟩
  cases flow with
  | proceed => exact ⟨_, rfl⟩
  | finish => exact ⟨[], (List.append_nil _).symm⟩
  | abandon => exact ⟨[], (List.append_nil _).symm⟩

end Outline

/-! ## Programs that do nothing -/

/-- What an action says if it binds no label and places no word. -/
def Action.report? (action : Action) : Option Diagnostic :=
  match action.effect with
  | .report problem => some (.errorAt action.line problem)
  | .bind _ | .place _ | .enter _ => none

def Effect.Idle : Effect → Prop
  | .enter _ | .report _ => True
  | .bind _ | .place _ => False

/-- A program that is abandoned for one reason before it has done anything. -/
structure Outline.Refused (outline : Outline) (origin : Address) (diagnostic : Diagnostic) :
    Prop where
  accepted : outline.origin = some origin
  idle : ∀ action ∈ outline.actions, action.effect.Idle
  reported : outline.actions.filterMap Action.report? ++ outline.ending.diagnostics = [diagnostic]

theorem LocatedAction.remark?_of_idle {located : LocatedAction}
    (idle : located.action.effect.Idle) (profile : Profile)
    (judge : Placement → Option Diagnostic) :
    located.remark? profile judge = located.action.report? := by
  rcases located with ⟨position, line, effect⟩
  cases effect with
  | enter next => rfl
  | report problem => rfl
  | bind name => exact idle.elim
  | place statement => exact idle.elim

theorem placements_of_idle {actions : List Action} (idle : ∀ action ∈ actions, action.effect.Idle)
    (profile : Profile) (position : Position) : placements profile position actions = [] := by
  apply List.eq_nil_iff_forall_not_mem.mpr
  intro placement member
  exact idle _ (action_of_placement member)

theorem remarks_of_idle {actions : List Action} (idle : ∀ action ∈ actions, action.effect.Idle)
    (profile : Profile) (position : Position) (judge : Placement → Option Diagnostic) :
    (layout profile position actions).filterMap (·.remark? profile judge) =
      actions.filterMap Action.report? := by
  conv_rhs => rw [← layout_actions profile position actions, List.filterMap_map]
  apply List.filterMap_congr
  intro located member
  apply LocatedAction.remark?_of_idle
  apply idle
  rw [← layout_actions profile position actions]
  exact List.mem_map_of_mem member

namespace Run

variable {options : Options} {source : String}

theorem result_of_refused {origin : Address} {diagnostic : Diagnostic}
    (refused : (Outline.ofSource options source).Refused origin diagnostic)
    (wrong : diagnostic.isError) :
    (ofSource options source).result = .error ⟨[diagnostic], some ⟨origin, []⟩⟩ := by
  have accepted : (ofSource options source).scan.origin = some origin :=
    (origin_eq options source).trans refused.accepted
  have nowhere : (Outline.ofSource options source).placements options.profile = [] :=
    placements_of_idle refused.idle options.profile {}
  have cells : (ofSource options source).image.cells.toList = [] := by
    rw [image_cells, nowhere]
    rfl
  have empty : (ofSource options source).image.size = 0 := by
    rw [Image.size, ← Array.length_toList, cells]
    rfl
  have said : (ofSource options source).diagnostics = [diagnostic] := by
    have emitted : (ofSource options source).emissionDiagnostics = [] := by
      apply emissionDiagnostics_of_fits accepted
      · rw [cells]
        exact fun cell member => absurd member List.not_mem_nil
      · exact .inl empty
    have scanned : (ofSource options source).scan.diagnostics = [diagnostic] := by
      rw [scan_diagnostics, ← refused.reported]
      exact congrArg (· ++ _) (remarks_of_idle refused.idle options.profile {} _)
    rw [diagnostics, scanned, resolution_diagnostics, nowhere, emitted]
    rfl
  apply (result_eq_error_iff _ _).mpr
  refine ⟨.inr ⟨diagnostic, ?_, wrong⟩, ?_⟩
  · rw [said]
    exact List.mem_singleton_self diagnostic
  · rw [said, accepted, Image.emit, cells]
    rfl

/-- An assembly depends on nothing but the profile and the outline of the program. -/
theorem result_congr {other : Options} (profile : other.profile = options.profile)
    (outline : Outline.ofSource other source = Outline.ofSource options source) :
    (ofSource other source).result = (ofSource options source).result := by
  have scan : Scan.ofLines other (SourceLine.ofText source) =
      Scan.ofLines options (SourceLine.ofText source) := by
    have same : Outline.ofLines other (SourceLine.ofText source) =
        Outline.ofLines options (SourceLine.ofText source) := outline
    rw [Scan.ofLines_eq_performAll, Scan.ofLines_eq_performAll, profile, same]
  simp only [ofSource, scan, profile]
  rfl

end Run

/-! ## Programs with a missing line -/

namespace Outline

theorem Refused.later {profile : Profile} {origin : Address} {required : OpeningLine}
    {others : List OpeningLine} {current : Option Section} {line : SourceLine}
    {lines : List SourceLine} {effects : List Effect} {diagnostic : Diagnostic}
    (here : required.MetBy line)
    (reading : Reading.ofTokens profile current line.tokens = ⟨effects, .proceed⟩)
    (enters : ∀ effect ∈ effects, ∃ next, effect = .enter next)
    (refused : (ofBody profile origin others (effects.foldl Effect.sectionAfter current)
      lines).Refused origin diagnostic) :
    (ofBody profile origin (required :: others) current (line :: lines)).Refused origin
      diagnostic := by
  rw [ofBody_of_proceed (unmet?_of_metBy here others) reading]
  constructor
  case accepted => exact refused.accepted
  case idle =>
    intro action member
    rcases List.mem_append.mp member with own | later
    · rcases List.mem_map.mp own with ⟨effect, listed, rfl⟩
      rcases enters effect listed with ⟨next, rfl⟩
      trivial
    · exact refused.idle action later
  case reported =>
    have silent : (effects.map (Action.mk line)).filterMap Action.report? = [] := by
      rw [List.filterMap_map]
      apply List.filterMap_eq_nil_iff.mpr
      intro effect listed
      rcases enters effect listed with ⟨next, rfl⟩
      rfl
    simp only [List.filterMap_append, silent, List.nil_append]
    exact refused.reported

theorem refused_of_exhausted (profile : Profile) (origin : Address) (required : OpeningLine)
    (others : List OpeningLine) (current : Option Section) :
    (ofBody profile origin (required :: others) current []).Refused origin
      ⟨.error, .program, .missingPrologue required.spelling⟩ :=
  ⟨rfl, nofun, rfl⟩

theorem refused_of_differs {required : OpeningLine} {line : SourceLine}
    (different : ¬ required.MetBy line) (profile : Profile) (origin : Address)
    (others : List OpeningLine) (current : Option Section) (lines : List SourceLine) :
    (ofBody profile origin (required :: others) current (line :: lines)).Refused origin
      ⟨.error, .line line, .missingPrologue required.spelling⟩ := by
  rw [ofBody, unmet?_of_not_metBy different]
  refine ⟨rfl, ?_, rfl⟩
  intro action member
  rw [List.mem_singleton.mp member]
  trivial

/-- The lines before the entry point open a section and do nothing else. -/
theorem refused_of_firstUnmet {lines : List SourceLine} {missing : OpeningLine}
    {location : Location}
    (unmet : FirstUnmet [.openText, .declareEntry, .defineEntry] lines missing location)
    (origin : Address) :
    (ofBody .compact origin [.openText, .declareEntry, .defineEntry] none lines).Refused origin
      ⟨.error, location, .missingPrologue missing.spelling⟩ := by
  cases unmet with
  | exhausted _ _ => exact refused_of_exhausted _ _ _ _ _
  | differs different _ _ => exact refused_of_differs different _ _ _ _ _
  | later opens unmet =>
      refine .later opens (Reading.ofTokens_of_openText opens) (by simp) ?_
      cases unmet with
      | exhausted _ _ => exact refused_of_exhausted _ _ _ _ _
      | differs different _ _ => exact refused_of_differs different _ _ _ _ _
      | later declares unmet =>
          refine .later declares (Reading.ofTokens_of_declareEntry declares) nofun ?_
          cases unmet with
          | exhausted _ _ => exact refused_of_exhausted _ _ _ _ _
          | differs different _ _ => exact refused_of_differs different _ _ _ _ _
          | later _ unmet => cases unmet

theorem ofSource_congr {options other : Options}
    (profile : options.profile = other.profile) (prologue : options.prologue = other.prologue)
    (source : String) : ofSource options source = ofSource other source := by
  rw [ofSource, ofSource, ofLines, ofLines, profile, prologue]

theorem exists_origin {options : Options} {source : String} {origin : Address}
    (accepted : (ofSource options source).origin = some origin) :
    ∃ first rest,
      (SourceLine.ofText source).filter SourceLine.isSignificant = first :: rest ∧
      Scan.readOrigin first.tokens = .ok origin := by
  have opens := ofLines_opens options (SourceLine.ofText source)
  change (ofLines options (SourceLine.ofText source)).origin = some origin at accepted
  generalize ofLines options (SourceLine.ofText source) = outline at opens accepted
  cases opens with
  | blank => cases accepted
  | refused _ _ => cases accepted
  | opened first rest start outline significant read follows =>
      rw [follows.origin_eq] at accepted
      cases accepted
      exact ⟨first, rest, significant, read⟩

end Outline

/-! ## The entry point -/

theorem Position.definitions_of_entry (text entry : SourceLine) (actions : List Action) :
    ∃ others, (Position.afterAll .compact {}
      (⟨text, .enter .text⟩ :: ⟨entry, .bind "_start"⟩ :: actions)).symbols.definitions =
        ⟨"_start", 0⟩ :: others := by
  have bound : Position.after .compact {} (.bind "_start") = ⟨0, ⟨[⟨"_start", 0⟩]⟩⟩ := by
    decide +kernel
  rcases Position.afterAll_prefix .compact ⟨0, ⟨[⟨"_start", 0⟩]⟩⟩ actions with ⟨others, grown⟩
  rw [← bound] at grown
  exact ⟨others, grown.symm⟩

namespace Run

variable {source : String} {assembly : Assembly}

theorem actions_of_entry {rest : List SourceLine}
    (met : Met [.openText, .declareEntry, .defineEntry] rest)
    (done : (ofSource ⟨.compact, .primary⟩ source).result = .ok assembly)
    (outline : Outline.ofSource ⟨.compact, .primary⟩ source =
      .ofBody .compact assembly.start [.openText, .declareEntry, .defineEntry] none rest) :
    ∃ text entry actions, (Outline.ofSource ⟨.compact, .primary⟩ source).actions =
      ⟨text, .enter .text⟩ :: ⟨entry, .bind "_start"⟩ :: actions := by
  rw [Outline.ofBody_of_met met] at outline
  rcases met.exists_cons with ⟨text, _, rfl, opens, met⟩
  rcases met.exists_cons with ⟨_, _, rfl, declares, met⟩
  rcases met.exists_cons with ⟨entry, more, rfl, defines, -⟩
  rcases Outline.ofBody_actions_cons .compact assembly.start (some .text) entry more with
    ⟨later, entering⟩
  have actions : (Outline.ofSource ⟨.compact, .primary⟩ source).actions =
      ⟨text, .enter .text⟩ ::
        ((Reading.ofTokens .compact (some .text) entry.tokens).effects.map (Action.mk entry) ++
          later) := by
    rw [outline, Outline.ofBody_of_proceed rfl (Reading.ofTokens_of_openText opens)]
    dsimp only [List.foldl, Effect.sectionAfter, List.tail_nil]
    rw [Outline.ofBody_of_proceed rfl (Reading.ofTokens_of_declareEntry declares)]
    dsimp only [List.foldl, List.tail_nil, List.map, List.cons_append, List.nil_append]
    rw [entering]
  have carried : ∀ effect ∈ (Reading.ofTokens .compact (some .text) entry.tokens).effects,
      ⟨entry, effect⟩ ∈ (Outline.ofSource ⟨.compact, .primary⟩ source).actions := by
    intro effect listed
    rw [actions]
    apply List.mem_cons_of_mem
    exact List.mem_append_left later (List.mem_map_of_mem listed)
  have clean := ((result_eq_ok_iff _ assembly).mp done).1
  have label : (Profile.compact.takeLabel entry.tokens).label = some "_start" := by
    have allowed : Profile.compact.mayDefine "_start" = true := by decide +kernel
    rcases OpeningLine.tokens_of_defineEntry defines with ⟨others, tokens⟩
    rw [label_of_clean (start_of_ok done) clean carried, SourceLine.label?, tokens]
    simp [allowed]
  rw [actions, Reading.ofTokens, label]
  exact ⟨text, entry, _, rfl⟩

theorem entries_of_entry {rest : List SourceLine}
    (met : Met [.openText, .declareEntry, .defineEntry] rest)
    (done : (ofSource ⟨.compact, .primary⟩ source).result = .ok assembly)
    (outline : Outline.ofSource ⟨.compact, .primary⟩ source =
      .ofBody .compact assembly.start [.openText, .declareEntry, .defineEntry] none rest) :
    ∃ others, assembly.symbols.entries = ("_start", assembly.start.toNat) :: others := by
  rcases actions_of_entry met done outline with ⟨text, entry, actions, opening⟩
  rcases Position.definitions_of_entry text entry actions with ⟨others, definitions⟩
  rw [← opening] at definitions
  have table : (ofSource ⟨.compact, .primary⟩ source).scan.symbols.definitions =
      ⟨"_start", 0⟩ :: others := by
    rw [symbols_eq]
    exact definitions
  rw [definitions_of_ok done, table]
  exact ⟨_, rfl⟩

end Run

/-- The lines that are required of a program only decide whether it is assembled. If a
program has them, it makes no difference that they are required; if it does not, the
first that is missing is all that is said, and there are no words. In an assembled
program the entry point is the first symbol, at the address of the first word. Programs
without sections are the same in either role. -/
theorem prologue_is_filter (source : String) :
    (∀ first rest origin,
      (SourceLine.ofText source).filter SourceLine.isSignificant = first :: rest →
      Scan.readOrigin first.tokens = .ok origin →
      (Met [.openText, .declareEntry, .defineEntry] rest →
        assemble ⟨.compact, .primary⟩ source = assemble ⟨.compact, .library⟩ source) ∧
      (¬ Met [.openText, .declareEntry, .defineEntry] rest →
        ∃ missing location,
          FirstUnmet [.openText, .declareEntry, .defineEntry] rest missing location ∧
          assemble ⟨.compact, .primary⟩ source =
            .error ⟨[⟨.error, location, .missingPrologue missing.spelling⟩],
              some ⟨origin, []⟩⟩)) ∧
    (∀ assembly, assemble ⟨.compact, .primary⟩ source = .ok assembly →
      ∃ others, assembly.symbols.entries = ("_start", assembly.start.toNat) :: others) ∧
    assemble ⟨.baseline, .primary⟩ source = assemble ⟨.baseline, .library⟩ source := by
  have refused {first : SourceLine} {rest : List SourceLine} {origin : Address}
      (significant : (SourceLine.ofText source).filter SourceLine.isSignificant = first :: rest)
      (read : Scan.readOrigin first.tokens = .ok origin) {missing : OpeningLine}
      {location : Location}
      (unmet : FirstUnmet [.openText, .declareEntry, .defineEntry] rest missing location) :
      assemble ⟨.compact, .primary⟩ source =
        .error ⟨[⟨.error, location, .missingPrologue missing.spelling⟩], some ⟨origin, []⟩⟩ := by
    refine Run.result_of_refused ?_ rfl
    rw [Outline.ofSource_of_origin significant read]
    exact Outline.refused_of_firstUnmet unmet origin
  refine ⟨?_, ?_, ?_⟩
  · intro first rest origin significant read
    constructor
    · intro met
      have same : Outline.ofSource ⟨.compact, .primary⟩ source =
          Outline.ofSource ⟨.compact, .library⟩ source := by
        rw [Outline.ofSource_of_origin significant read,
          Outline.ofSource_of_origin significant read]
        exact Outline.ofBody_of_met met .compact origin none
      exact Run.result_congr (by rfl) same
    · intro lacking
      rcases met_or_firstUnmet [.openText, .declareEntry, .defineEntry] rest with
        met | ⟨missing, location, unmet⟩
      · exact absurd met lacking
      · exact ⟨missing, location, unmet, refused significant read unmet⟩
  · intro assembly done
    have accepted := (Run.origin_eq ⟨.compact, .primary⟩ source).symm.trans (Run.start_of_ok done)
    rcases Outline.exists_origin accepted with ⟨first, rest, significant, read⟩
    rcases met_or_firstUnmet [.openText, .declareEntry, .defineEntry] rest with
      met | ⟨missing, location, unmet⟩
    · exact Run.entries_of_entry met done (Outline.ofSource_of_origin significant read)
    · cases done.symm.trans (refused significant read unmet)
  · have same : Outline.ofSource ⟨.baseline, .primary⟩ source =
        Outline.ofSource ⟨.baseline, .library⟩ source :=
      Outline.ofSource_congr (by rfl) (by rfl) source
    exact Run.result_congr (by rfl) same

/-- In the second program another entry point is declared. -/
theorem prologue_met_and_missed :
    let whole := ".orig x3000\n\n.text ; code\n.global _start\n_start : nop\n.end"
    let broken := ".orig x3000\n.text\n.global main\n_start: nop\n.end"
    assemble ⟨.compact, .primary⟩ whole = assemble ⟨.compact, .library⟩ whole ∧
    (∃ assembly, assemble ⟨.compact, .primary⟩ whole = .ok assembly ∧
      ∃ others, assembly.symbols.entries = ("_start", assembly.start.toNat) :: others) ∧
    assemble ⟨.compact, .primary⟩ broken =
      .error ⟨[⟨.error, .line ⟨2, ".global main"⟩, .missingPrologue ".global _start"⟩],
        some ⟨⟨0x3000⟩, []⟩⟩ := by
  intro whole broken
  have read : Scan.readOrigin (SourceLine.tokens ⟨0, ".orig x3000"⟩) = .ok ⟨0x3000⟩ := by rfl
  have wholeText : SourceLine.ofText whole =
      [⟨0, ".orig x3000"⟩, ⟨1, ""⟩, ⟨2, ".text ; code"⟩, ⟨3, ".global _start"⟩,
        ⟨4, "_start : nop"⟩, ⟨5, ".end"⟩] := by decide +kernel
  have wholeLines : (SourceLine.ofText whole).filter SourceLine.isSignificant =
      [⟨0, ".orig x3000"⟩, ⟨2, ".text ; code"⟩, ⟨3, ".global _start"⟩, ⟨4, "_start : nop"⟩,
        ⟨5, ".end"⟩] := by
    rw [wholeText]
    decide +kernel
  have met : Met [.openText, .declareEntry, .defineEntry]
      [⟨2, ".text ; code"⟩, ⟨3, ".global _start"⟩, ⟨4, "_start : nop"⟩, ⟨5, ".end"⟩] := by
    refine .next ?_ (.next ?_ (.next ?_ (.done _))) <;>
      exact (OpeningLine.accepts_iff_metBy _ _).mp (by decide +kernel)
  have brokenLines : (SourceLine.ofText broken).filter SourceLine.isSignificant =
      [⟨0, ".orig x3000"⟩, ⟨1, ".text"⟩, ⟨2, ".global main"⟩, ⟨3, "_start: nop"⟩,
        ⟨4, ".end"⟩] := by decide +kernel
  have opens : OpeningLine.openText.MetBy ⟨1, ".text"⟩ :=
    (OpeningLine.accepts_iff_metBy _ _).mp (by decide +kernel)
  have different : ¬ OpeningLine.declareEntry.MetBy ⟨2, ".global main"⟩ := fun met =>
    absurd ((OpeningLine.accepts_iff_metBy _ _).mpr met) (by decide +kernel)
  refine ⟨((prologue_is_filter whole).1 _ _ _ wholeLines read).1 met, ?_, ?_⟩
  · have assembled : (assemble ⟨.compact, .primary⟩ whole).isOk = true := by decide +kernel
    rcases exists_of_isOk assembled with ⟨assembly, done⟩
    exact ⟨assembly, done, (prologue_is_filter whole).2.1 assembly done⟩
  · have lacking : ¬ Met [.openText, .declareEntry, .defineEntry]
        [⟨1, ".text"⟩, ⟨2, ".global main"⟩, ⟨3, "_start: nop"⟩, ⟨4, ".end"⟩] := by
      intro met
      cases met with
      | next _ met =>
          cases met with
          | next declares _ => exact different declares
    rcases ((prologue_is_filter broken).1 _ _ _ brokenLines read).2 lacking with
      ⟨missing, location, unmet, failed⟩
    cases unmet with
    | differs other _ _ => exact absurd opens other
    | later _ unmet =>
        cases unmet with
        | differs _ _ _ => exact failed
        | later declares _ => exact absurd declares different

end TwoPass
