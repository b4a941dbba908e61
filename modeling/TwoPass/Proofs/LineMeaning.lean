import Mathlib.Data.List.Forall2
import TwoPass.Proofs.Emission

/-! # The meaning of lines

All that is read of a line is what is left of it without its comment, the blanks around
it and the case of its letters, and a line of which nothing is left is passed over. So
two programs of whose lines the same is left do the same, line for line. They differ in
the numbers and the wording of their lines, and only where a result names a line can
the difference be seen. -/

namespace TwoPass

namespace SourceLine

def significant (source : String) : List SourceLine :=
  (ofText source).filter isSignificant

/-- What is left of the lines of a program, where anything is left. -/
def meaning (source : String) : List (List Char) :=
  ((ofText source).map normal).filter (!·.isEmpty)

/-- Lines of two programs that come equally far down, blank lines not counted. -/
def Counterparts (source other : String) (line counterpart : SourceLine) : Prop :=
  ∃ index : Nat, (significant source)[index]? = some line ∧
    (significant other)[index]? = some counterpart

theorem tokens_of_normal {line other : SourceLine} (same : other.normal = line.normal) :
    other.tokens = line.tokens := by
  rw [tokens, same, tokens]

theorem meaning_eq_map (source : String) : meaning source = (significant source).map normal :=
  List.filter_map

variable {source other : String} (same : meaning source = meaning other)
include same

theorem normal_of_counterparts {line counterpart : SourceLine}
    (pair : Counterparts source other line counterpart) : counterpart.normal = line.normal := by
  rcases pair with ⟨index, here, there⟩
  have left := congrArg (·[index]?) same
  simp only [meaning_eq_map, List.getElem?_map, here, there, Option.map_some] at left
  exact (Option.some.inj left).symm

theorem significant_counterparts :
    List.Forall₂ (Counterparts source other) (significant source) (significant other) := by
  have length : (significant source).length = (significant other).length := by
    simpa only [meaning_eq_map, List.length_map] using congrArg List.length same
  refine List.forall₂_iff_get.mpr ⟨length, fun index inside otherInside => ?_⟩
  exact ⟨index, List.getElem?_eq_getElem inside, List.getElem?_eq_getElem otherInside⟩

end SourceLine

/-! ## What is done on paired lines -/

section

variable (paired : SourceLine → SourceLine → Prop)

structure Action.Matches (first second : Action) : Prop where
  line : paired first.line second.line
  effect : second.effect = first.effect

structure Outline.Matches (first second : Outline) : Prop where
  origin : second.origin = first.origin
  actions : List.Forall₂ (Action.Matches paired) first.actions second.actions
  ending : second.ending = first.ending

structure LocatedAction.Matches (first second : LocatedAction) : Prop where
  position : second.position = first.position
  action : first.action.Matches paired second.action

structure Placement.Matches (first second : Placement) : Prop where
  position : second.position = first.position
  line : paired first.line second.line
  statement : second.statement = first.statement

structure Cell.Matches (first second : Cell) : Prop where
  value : second.value = first.value
  kind : second.kind = first.kind
  line : paired first.line second.line

inductive Location.Matches : Location → Location → Prop where
  | line {first second : SourceLine} (pair : paired first second) :
      Matches (.line first) (.line second)
  | address (address : Address) : Matches (.address address) (.address address)
  | program : Matches .program .program

structure Diagnostic.Matches (first second : Diagnostic) : Prop where
  severity : second.severity = first.severity
  problem : second.problem = first.problem
  location : first.location.Matches paired second.location

structure EmittedWord.Matches (first second : EmittedWord) : Prop where
  word : second.word = first.word
  source : Option.Rel
    (fun text other => ∃ line counterpart, paired line counterpart ∧
      text = line.text ∧ other = counterpart.text)
    first.source second.source

end

variable {paired : SourceLine → SourceLine → Prop}

theorem Diagnostic.Matches.errorAt {first second : SourceLine} (pair : paired first second)
    (problem : Problem) : (errorAt first problem).Matches paired (errorAt second problem) :=
  ⟨rfl, rfl, .line pair⟩

namespace Outline

variable {lines others : List SourceLine}

theorem actions_matches {line other : SourceLine} (pair : paired line other)
    (effects : List Effect) :
    List.Forall₂ (Action.Matches paired) (effects.map (Action.mk line))
      (effects.map (Action.mk other)) := by
  rw [List.forall₂_map_left_iff, List.forall₂_map_right_iff, List.forall₂_same]
  exact fun _ _ => ⟨pair, rfl⟩

theorem unmet?_of_normal {line other : SourceLine} (same : other.normal = line.normal)
    (required : List OpeningLine) : unmet? required other = unmet? required line := by
  simp only [unmet?, same, SourceLine.tokens_of_normal same]

variable (kept : ∀ line other, paired line other → other.normal = line.normal)
include kept

theorem ofBody_matches (pairs : List.Forall₂ paired lines others) (profile : Profile)
    (origin : Address) (required : List OpeningLine) (current : Option Section) :
    (ofBody profile origin required current lines).Matches paired
      (ofBody profile origin required current others) := by
  induction pairs generalizing required current with
  | nil => exact ⟨rfl, .nil, rfl⟩
  | @cons line other lines others pair pairs induction =>
      have same := kept line other pair
      rw [ofBody, ofBody, unmet?_of_normal same, SourceLine.tokens_of_normal same]
      cases unmet? required line with
      | some opening => exact ⟨rfl, actions_matches pair [.report _], rfl⟩
      | none =>
          generalize Reading.ofTokens profile current line.tokens = reading
          rcases reading with ⟨effects, flow⟩
          have here := actions_matches pair effects
          cases flow with
          | finish => exact ⟨rfl, here, rfl⟩
          | abandon => exact ⟨rfl, here, rfl⟩
          | proceed =>
              have rest := induction required.tail (effects.foldl Effect.sectionAfter current)
              exact ⟨rest.origin, List.rel_append here rest.actions, rest.ending⟩

theorem ofLines_matches
    (pairs : List.Forall₂ paired (lines.filter SourceLine.isSignificant)
      (others.filter SourceLine.isSignificant)) (options : Options) :
    (ofLines options lines).Matches paired (ofLines options others) := by
  rw [ofLines, ofLines]
  generalize lines.filter SourceLine.isSignificant = present at pairs ⊢
  generalize others.filter SourceLine.isSignificant = counterparts at pairs ⊢
  cases pairs with
  | nil => exact ⟨rfl, .nil, rfl⟩
  | @cons first other rest others pair pairs =>
      simp only [SourceLine.tokens_of_normal (kept first other pair)]
      cases Scan.readOrigin first.tokens with
      | error problem => exact ⟨rfl, actions_matches pair [.report problem], rfl⟩
      | ok origin => exact ofBody_matches kept pairs options.profile origin options.prologue none

end Outline

/-! ## Places -/

theorem Position.afterAll_of_matches {actions others : List Action}
    (pairs : List.Forall₂ (Action.Matches paired) actions others) (profile : Profile)
    (position : Position) :
    position.afterAll profile others = position.afterAll profile actions := by
  induction pairs generalizing position with
  | nil => rfl
  | @cons action other actions others pair _ induction =>
      have step : position.after profile other.effect = position.after profile action.effect := by
        rw [pair.effect]
      have rest := induction (position.after profile action.effect)
      simp only [afterAll, List.foldl_cons, step] at rest ⊢
      exact rest

theorem layout_matches {actions others : List Action}
    (pairs : List.Forall₂ (Action.Matches paired) actions others) (profile : Profile)
    (position : Position) :
    List.Forall₂ (LocatedAction.Matches paired) (layout profile position actions)
      (layout profile position others) := by
  induction pairs generalizing position with
  | nil => exact .nil
  | @cons action other actions others pair _ induction =>
      rw [layout, layout, pair.effect]
      exact .cons ⟨rfl, pair⟩ (induction _)

theorem LocatedAction.Matches.placement? {first second : LocatedAction}
    (pair : first.Matches paired second) :
    Option.Rel (Placement.Matches paired) first.placement? second.placement? := by
  rcases first with ⟨_, line, _⟩
  rcases second with ⟨position, other, effect⟩
  rcases pair with ⟨rfl, pair, rfl⟩
  cases effect with
  | place statement => exact .some ⟨rfl, pair, rfl⟩
  | bind name => exact .none
  | enter next => exact .none
  | report problem => exact .none

theorem LocatedAction.Matches.remark? {first second : LocatedAction}
    (pair : first.Matches paired second) (profile : Profile)
    {judge : Placement → Option Diagnostic}
    (judged : ∀ placement other, placement.Matches paired other →
      Option.Rel (Diagnostic.Matches paired) (judge placement) (judge other)) :
    Option.Rel (Diagnostic.Matches paired) (first.remark? profile judge)
      (second.remark? profile judge) := by
  rcases first with ⟨_, line, _⟩
  rcases second with ⟨position, other, effect⟩
  rcases pair with ⟨rfl, pair, rfl⟩
  cases effect with
  | bind name =>
      simp only [LocatedAction.remark?]
      cases position.symbols.bind profile name position.offset with
      | ok symbols => exact .none
      | error problem => exact .some (.errorAt pair problem)
  | place statement => exact judged _ _ ⟨rfl, pair, rfl⟩
  | enter next => exact .none
  | report problem => exact .some (.errorAt pair problem)

namespace Placement.Matches

variable {first second : Placement} (pair : first.Matches paired second) (profile : Profile)
include pair

theorem encode_eq (labels : Labels) :
    second.encode profile labels = first.encode profile labels := by
  rw [encode, encode, pair.statement, pair.position]

theorem deferred_eq : second.deferred profile = first.deferred profile := by
  rw [deferred, deferred, pair.statement, pair.position]

theorem cells (labels : Labels) :
    List.Forall₂ (Cell.Matches paired) (first.cells profile labels)
      (second.cells profile labels) := by
  have values : second.values profile labels = first.values profile labels := by
    rw [Placement.values, Placement.values, pair.encode_eq, pair.statement]
  rw [Placement.cells, Placement.cells, values, pair.statement, List.forall₂_map_left_iff,
    List.forall₂_map_right_iff, List.forall₂_same]
  exact fun _ _ => ⟨rfl, rfl, pair.line⟩

theorem error? (labels : Labels) :
    Option.Rel (Diagnostic.Matches paired) (first.error? profile labels)
      (second.error? profile labels) := by
  rw [Placement.error?, Placement.error?, pair.encode_eq]
  cases first.encode profile labels with
  | ok encoding => exact .none
  | error problem => exact .some (.errorAt pair.line problem)

theorem promptError? (labels : Labels) :
    Option.Rel (Diagnostic.Matches paired) (first.promptError? profile labels)
      (second.promptError? profile labels) := by
  rw [Placement.promptError?, Placement.promptError?, pair.deferred_eq]
  split
  · exact .none
  · exact pair.error? profile labels

end Placement.Matches

/-! ## Images -/

namespace Image

variable {image other : Image}
  (pairs : List.Forall₂ (Cell.Matches paired) image.cells.toList other.cells.toList)
include pairs

theorem size_of_matches : other.size = image.size := by
  rw [size, size, ← Array.length_toList, ← Array.length_toList]
  exact pairs.length_eq.symm

theorem emit_matches : List.Forall₂ (EmittedWord.Matches paired) image.emit other.emit := by
  refine List.rel_map ?_ pairs
  rintro ⟨_, _, line⟩ ⟨value, kind, counterpart⟩ ⟨rfl, rfl, pair⟩
  cases kind with
  | instruction => exact ⟨rfl, .some ⟨line, counterpart, pair, rfl, rfl⟩⟩
  | data => exact ⟨rfl, .none⟩

theorem diagnostics_matches (origin : Address) :
    List.Forall₂ (Diagnostic.Matches paired) (image.diagnostics origin)
      (other.diagnostics origin) := by
  simp only [diagnostics, size_of_matches pairs]
  refine List.rel_append ?_ (List.rel_filterMap ?_ pairs)
  · rw [List.forall₂_same]
    intro diagnostic member
    split at member
    · rw [List.mem_singleton.mp member]
      exact ⟨rfl, rfl, .program⟩
    · cases member
  · rintro ⟨_, _, line⟩ ⟨value, kind, counterpart⟩ ⟨rfl, rfl, pair⟩
    simp only [Cell.oversized?]
    cases value.filter (65536 ≤ ·) with
    | none => exact .none
    | some wide => exact .some (.errorAt pair _)

end Image

theorem forall₂_zipIdx {related : α → β → Prop} {items : List α} {others : List β}
    (pairs : List.Forall₂ related items others) (start : Nat) :
    List.Forall₂ (fun entry other => related entry.1 other.1 ∧ other.2 = entry.2)
      (items.zipIdx start) (others.zipIdx start) := by
  induction pairs generalizing start with
  | nil => exact .nil
  | cons pair _ induction => exact .cons ⟨pair, rfl⟩ (induction (start + 1))

theorem Assembly.sourceLines_matches {assembly other : Assembly}
    (start : other.start = assembly.start)
    (words : List.Forall₂ (EmittedWord.Matches paired) assembly.emitted other.emitted) :
    List.Forall₂
      (fun entry counterpart => counterpart.1 = entry.1 ∧
        ∃ line further, paired line further ∧ entry.2 = line.text ∧ counterpart.2 = further.text)
      assembly.sourceLines other.sourceLines := by
  refine List.rel_filterMap ?_ (forall₂_zipIdx words 0)
  rintro ⟨⟨_, text⟩, _⟩ ⟨⟨word, wording⟩, offset⟩ ⟨⟨rfl, texts⟩, rfl⟩
  simp only [start]
  cases assembly.start.offset? offset with
  | none => exact .none
  | some address =>
      cases texts with
      | none => exact .none
      | some pair => exact .some ⟨rfl, pair⟩

theorem Ending.diagnostics_matches (ending : Ending) :
    List.Forall₂ (Diagnostic.Matches paired) ending.diagnostics ending.diagnostics := by
  cases ending with
  | finished => exact .nil
  | abandoned => exact .nil
  | exhausted stage =>
      refine .cons ⟨rfl, rfl, ?_⟩ .nil
      rcases stage with _ | _ | _ <;> exact .program

/-! ## Runs of programs with paired lines -/

namespace Run

theorem isOk_result (run : Run) :
    run.result.isOk = (run.scan.origin.isSome && !run.diagnostics.any Diagnostic.isError) := by
  rw [result]
  cases run.scan.origin with
  | none => rfl
  | some start => cases run.diagnostics.any Diagnostic.isError <;> rfl

variable {options : Options} {source other : String}
  (pairs : (Outline.ofSource options source).Matches paired (Outline.ofSource options other))
include pairs

theorem origin_of_matches :
    (ofSource options other).scan.origin = (ofSource options source).scan.origin := by
  rw [origin_eq, origin_eq, pairs.origin]

theorem symbols_of_matches :
    (ofSource options other).scan.symbols = (ofSource options source).scan.symbols := by
  rw [symbols_eq, symbols_eq]
  exact congrArg Position.symbols
    (Position.afterAll_of_matches pairs.actions options.profile {})

theorem labels_of_matches :
    (ofSource options other).scan.labels = (ofSource options source).scan.labels := by
  rw [Scan.labels, Scan.labels, Scan.start, Scan.start, origin_of_matches pairs,
    symbols_of_matches pairs]

theorem located_matches :
    List.Forall₂ (LocatedAction.Matches paired)
      ((Outline.ofSource options source).located options.profile)
      ((Outline.ofSource options other).located options.profile) :=
  layout_matches pairs.actions options.profile {}

theorem placements_matches :
    List.Forall₂ (Placement.Matches paired)
      ((Outline.ofSource options source).placements options.profile)
      ((Outline.ofSource options other).placements options.profile) :=
  List.rel_filterMap (fun _ _ pair => pair.placement?) (located_matches pairs)

theorem cells_matches :
    List.Forall₂ (Cell.Matches paired) (ofSource options source).image.cells.toList
      (ofSource options other).image.cells.toList := by
  rw [image_cells, image_cells, labels_of_matches pairs]
  exact List.rel_flatMap (placements_matches pairs)
    fun _ _ pair => pair.cells options.profile _

theorem scan_diagnostics_matches :
    List.Forall₂ (Diagnostic.Matches paired) (ofSource options source).scan.diagnostics
      (ofSource options other).scan.diagnostics := by
  rw [scan_diagnostics, scan_diagnostics, labels_of_matches pairs, pairs.ending]
  refine List.rel_append (List.rel_filterMap ?_ (located_matches pairs))
    (Ending.diagnostics_matches _)
  intro located counterpart pair
  exact pair.remark? options.profile fun _ _ placed => placed.promptError? options.profile _

theorem resolution_diagnostics_matches :
    List.Forall₂ (Diagnostic.Matches paired)
      ((ofSource options source).resolutions.filterMap (·.diagnostic?))
      ((ofSource options other).resolutions.filterMap (·.diagnostic?)) := by
  rw [resolution_diagnostics, resolution_diagnostics, labels_of_matches pairs]
  refine List.rel_filterMap (fun _ _ pair => pair.error? options.profile _)
    (List.rel_filter ?_ (placements_matches pairs))
  intro placement counterpart pair
  simp only [pair.deferred_eq]

theorem emissionDiagnostics_matches :
    List.Forall₂ (Diagnostic.Matches paired) (ofSource options source).emissionDiagnostics
      (ofSource options other).emissionDiagnostics := by
  rw [emissionDiagnostics, emissionDiagnostics, origin_of_matches pairs]
  cases (ofSource options source).scan.origin with
  | none => exact .nil
  | some origin => exact Image.diagnostics_matches (cells_matches pairs) origin

theorem diagnostics_matches :
    List.Forall₂ (Diagnostic.Matches paired) (ofSource options source).diagnostics
      (ofSource options other).diagnostics :=
  List.rel_append
    (List.rel_append (scan_diagnostics_matches pairs) (resolution_diagnostics_matches pairs))
    (emissionDiagnostics_matches pairs)

theorem words_of_matches :
    (ofSource options other).image.emit.map (·.word) =
      (ofSource options source).image.emit.map (·.word) := by
  rw [← List.forall₂_eq_eq_eq]
  exact (List.rel_map (fun _ _ pair => pair.word)
    (Image.emit_matches (cells_matches pairs)).flip)

theorem severities_of_matches :
    (ofSource options other).diagnostics.map (·.severity) =
      (ofSource options source).diagnostics.map (·.severity) := by
  rw [← List.forall₂_eq_eq_eq]
  exact List.rel_map (fun _ _ pair => pair.severity) (diagnostics_matches pairs).flip

theorem isOk_of_matches :
    (ofSource options other).result.isOk = (ofSource options source).result.isOk := by
  have errors : (ofSource options other).diagnostics.any Diagnostic.isError =
      (ofSource options source).diagnostics.any Diagnostic.isError := by
    have same := congrArg (List.any · (· == .error)) (severities_of_matches pairs)
    simp only [List.any_map] at same
    exact same
  rw [isOk_result, isOk_result, origin_of_matches pairs, errors]

end Run

theorem Outline.ofSource_matches {source other : String}
    (same : SourceLine.meaning source = SourceLine.meaning other) (options : Options) :
    (ofSource options source).Matches (SourceLine.Counterparts source other)
      (ofSource options other) :=
  ofLines_matches (fun _ _ => SourceLine.normal_of_counterparts same)
    (SourceLine.significant_counterparts same) options

/-- Programs that say the same line by line, whatever their comments, blanks and letters,
are assembled alike: both or neither of them, to the same words and symbols, and with the
same diagnostics and source lines at lines that come equally far down. -/
theorem only_meaning_matters (options : Options) (source other : String)
    (same : SourceLine.meaning source = SourceLine.meaning other) :
    let result := assemble options source
    let counterpart := assemble options other
    let paired := SourceLine.Counterparts source other
    counterpart.isOk = result.isOk ∧
    outputBinary counterpart = outputBinary result ∧
    (Run.ofSource options other).scan.symbols = (Run.ofSource options source).scan.symbols ∧
    (∀ assembly further, result = .ok assembly → counterpart = .ok further →
      further.symbols = assembly.symbols ∧
      List.Forall₂
        (fun entry other => other.1 = entry.1 ∧
          ∃ line further, paired line further ∧ entry.2 = line.text ∧ other.2 = further.text)
        assembly.sourceLines further.sourceLines) ∧
    List.Forall₂ (Diagnostic.Matches paired) (outputDiagnostics result)
      (outputDiagnostics counterpart) := by
  intro result counterpart paired
  have pairs := Outline.ofSource_matches same options
  refine ⟨Run.isOk_of_matches pairs, ?_, Run.symbols_of_matches pairs, ?_, ?_⟩
  · simp only [counterpart, result, assemble, Run.outputBinary_result,
      Run.origin_of_matches pairs, Run.words_of_matches pairs]
  · intro assembly further done otherDone
    have start : further.start = assembly.start := by
      have accepted := Run.start_of_ok otherDone
      rw [Run.origin_of_matches pairs, Run.start_of_ok done] at accepted
      exact (Option.some.inj accepted).symm
    refine ⟨?_, Assembly.sourceLines_matches start ?_⟩
    · rw [Run.symbols_of_ok otherDone, Run.symbols_of_ok done, start,
        Run.symbols_of_matches pairs]
    · rw [Run.emitted_of_ok otherDone, Run.emitted_of_ok done]
      exact Image.emit_matches (Run.cells_matches pairs)
  · simp only [counterpart, result, assemble, Run.outputDiagnostics_result]
    exact Run.diagnostics_matches pairs

/-- The second form of each program differs in comments, blanks and letters, and its
lines come further down. -/
theorem meaning_behind_comments :
    let plain := ".orig x3000\nbr next\nnext: .stringz \"A;b\"\n.end"
    let adorned := "; start\n\n.ORIG X3000 ;here\n\tBR Next\n\nNEXT: .StringZ \"A;b\" ; text\n.End "
    let wrong := ".orig x3000\nbr lost\n.end"
    let wrongBelow := "\n.Orig x3000\n;\n BR lost ; where?\n.end"
    outputBinary (assemble {} adorned) = outputBinary (assemble {} plain) ∧
    outputBinary (assemble {} plain) = some ⟨⟨0x3000⟩, [0x0E00, 0x41, 0x3B, 0x62, 0]⟩ ∧
    outputDiagnostics (assemble {} wrong) =
      [.errorAt ⟨1, "br lost"⟩ (.unknownLabel "lost")] ∧
    outputDiagnostics (assemble {} wrongBelow) =
      [.errorAt ⟨3, " BR lost ; where?"⟩ (.unknownLabel "lost")] ∧
    List.Forall₂ (Diagnostic.Matches (SourceLine.Counterparts wrong wrongBelow))
      (outputDiagnostics (assemble {} wrong)) (outputDiagnostics (assemble {} wrongBelow)) := by
  intro plain adorned wrong wrongBelow
  have samePrograms : SourceLine.meaning plain = SourceLine.meaning adorned := by decide +kernel
  have sameErrors : SourceLine.meaning wrong = SourceLine.meaning wrongBelow := by decide +kernel
  refine ⟨(only_meaning_matters {} plain adorned samePrograms).2.1, by decide +kernel,
    by decide +kernel, by decide +kernel, ?_⟩
  exact (only_meaning_matters {} wrong wrongBelow sameErrors).2.2.2.2

end TwoPass
