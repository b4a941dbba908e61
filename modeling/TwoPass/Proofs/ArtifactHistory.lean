import TwoPass.Program.RecentArtifacts
import TwoPass.Proofs.Except

/-! # The history of the artifacts

Whatever has been assembled and cleared so far, the artifacts that are held are those of
the last user's program, or there are none. An operation that decides what is held does
so whatever was held before it, and any other leaves what is held as it is. So the last
operation that decides is the only one that matters. -/

namespace TwoPass

inductive Operation where
  | assemble (options : Options) (source : String)
  | clear

namespace Operation

/-- Whether what is held is given up or replaced. -/
def decides : Operation → Bool
  | .assemble options _ => options.role == .primary
  | .clear => true

/-- What is answered if nothing is ever held. -/
def outcome? : Operation → Option (Except Failure Assembly)
  | .assemble options source => some (TwoPass.assemble options source)
  | .clear => none

def made? : Operation → Option Assembly
  | .assemble options source => (TwoPass.assemble options source).toOption
  | .clear => none

end Operation

def lastDeciding? (operations : List Operation) : Option Operation :=
  (operations.filter Operation.decides).getLast?

theorem decides_of_lastDeciding? {operations : List Operation} {operation : Operation}
    (last : lastDeciding? operations = some operation) : operation.decides :=
  (List.mem_filter.mp (List.mem_of_getLast? last)).2

theorem made?_of_lastDeciding?_iff (operations : List Operation) (assembly : Assembly) :
    (lastDeciding? operations).bind Operation.made? = some assembly ↔
      ∃ profile source,
        lastDeciding? operations = some (.assemble ⟨profile, .primary⟩ source) ∧
        assemble ⟨profile, .primary⟩ source = .ok assembly := by
  constructor
  · intro made
    rcases Option.bind_eq_some_iff.mp made with ⟨operation, last, made⟩
    have decides := decides_of_lastDeciding? last
    cases operation with
    | clear => cases made
    | assemble options source =>
        rcases options with ⟨profile, role⟩
        cases eq_of_beq decides
        exact ⟨profile, source, last, toOption_eq_some_iff.mp made⟩
  · rintro ⟨profile, source, last, assembled⟩
    rw [last]
    exact toOption_eq_some_iff.mpr assembled

namespace RecentArtifacts

def ofMade (made : Option Assembly) : RecentArtifacts :=
  ⟨made.map (·.binary.bytes), made.map (·.symbols.text)⟩

def perform (recent : RecentArtifacts) :
    Operation → RecentArtifacts × Option (Except Failure Assembly)
  | .assemble options source =>
    let assembled := recent.assemble options source
    (assembled.1, some assembled.2)
  | .clear => (recent.clear, none)

def performAll (recent : RecentArtifacts) :
    List Operation → RecentArtifacts × List (Option (Except Failure Assembly))
  | [] => (recent, [])
  | operation :: operations =>
    let performed := recent.perform operation
    let rest := performed.1.performAll operations
    (rest.1, performed.2 :: rest.2)

/-! ## One operation -/

theorem perform_of_decides (recent : RecentArtifacts) {operation : Operation}
    (decides : operation.decides) : (recent.perform operation).1 = ofMade operation.made? := by
  cases operation with
  | clear => rfl
  | assemble options source =>
      have primary : options.role = .primary := eq_of_beq decides
      simp only [perform, assemble, primary, Operation.made?]
      cases TwoPass.assemble options source <;> rfl

theorem perform_of_not_decides (recent : RecentArtifacts) {operation : Operation}
    (keeps : ¬ operation.decides) : (recent.perform operation).1 = recent := by
  cases operation with
  | clear => exact absurd rfl keeps
  | assemble options source =>
      have library : options.role = .library := by
        cases role : options.role with
        | library => rfl
        | primary => exact absurd (beq_of_eq role) keeps
      simp only [perform, assemble, library]

theorem perform_answer (recent : RecentArtifacts) (operation : Operation) :
    (recent.perform operation).2 = operation.outcome? := by
  cases operation with
  | clear => rfl
  | assemble options source =>
      simp only [perform, assemble, Operation.outcome?]
      cases options.role with
      | library => rfl
      | primary => cases TwoPass.assemble options source <;> rfl

/-! ## All operations -/

theorem performAll_artifacts (recent : RecentArtifacts) (operations : List Operation) :
    (recent.performAll operations).1 =
      (lastDeciding? operations).elim recent fun last => ofMade last.made? := by
  induction operations generalizing recent with
  | nil => rfl
  | cons operation operations induction =>
      refine (induction (recent.perform operation).1).trans ?_
      rw [lastDeciding?, lastDeciding?]
      by_cases decides : operation.decides
      · rw [List.filter_cons_of_pos decides, List.getLast?_cons,
          recent.perform_of_decides decides]
        cases (operations.filter Operation.decides).getLast? <;> rfl
      · rw [List.filter_cons_of_neg decides, recent.perform_of_not_decides decides]

theorem performAll_answers (recent : RecentArtifacts) (operations : List Operation) :
    (recent.performAll operations).2 = operations.map Operation.outcome? := by
  induction operations generalizing recent with
  | nil => rfl
  | cons operation operations induction =>
      rw [performAll, List.map_cons, ← recent.perform_answer operation]
      exact congrArg _ (induction _)

end RecentArtifacts

/-- Whatever is done, what is held is what was made of the last user's program, if it could be
assembled and was not cleared since, and otherwise nothing. A program that is not the user's
changes nothing, and nothing that is held has an effect on what is answered. -/
theorem last_program_is_held (operations : List Operation) :
    let recent := (RecentArtifacts.performAll {} operations).1
    recent.object.isSome = recent.symbols.isSome ∧
    (∀ object symbols,
      recent.object = some object ∧ recent.symbols = some symbols ↔
        ∃ profile source assembly,
          lastDeciding? operations = some (.assemble ⟨profile, .primary⟩ source) ∧
          assemble ⟨profile, .primary⟩ source = .ok assembly ∧
          object = assembly.binary.bytes ∧ symbols = assembly.symbols.text) ∧
    (∀ profile source, (recent.assemble ⟨profile, .library⟩ source).1 = recent) ∧
    (RecentArtifacts.performAll {} operations).2 = operations.map Operation.outcome? := by
  intro recent
  have held : recent = .ofMade ((lastDeciding? operations).bind Operation.made?) := by
    refine (RecentArtifacts.performAll_artifacts {} operations).trans ?_
    cases lastDeciding? operations <;> rfl
  refine ⟨?_, fun object symbols => ?_, fun _ _ => rfl,
    RecentArtifacts.performAll_answers {} operations⟩
  · rw [held, RecentArtifacts.ofMade, Option.isSome_map, Option.isSome_map]
  · rw [held]
    constructor
    · rintro ⟨objectHeld, symbolsHeld⟩
      rcases Option.map_eq_some_iff.mp objectHeld with ⟨assembly, made, rfl⟩
      rw [RecentArtifacts.ofMade, made] at symbolsHeld
      rcases (made?_of_lastDeciding?_iff operations assembly).mp made with
        ⟨profile, source, last, assembled⟩
      exact ⟨profile, source, assembly, last, assembled, rfl, (Option.some.inj symbolsHeld).symm⟩
    · rintro ⟨profile, source, assembly, last, assembled, rfl, rfl⟩
      have made := (made?_of_lastDeciding?_iff operations assembly).mpr
        ⟨profile, source, last, assembled⟩
      rw [made]
      exact ⟨rfl, rfl⟩

example : (RecentArtifacts.performAll {} [.assemble {} ".orig x3000\nstart halt\n.end",
    .assemble ⟨.baseline, .library⟩ "start"]).1 =
      ⟨some [0x30, 0x00, 0xF0, 0x25], some "start = 3000\n"⟩ := by
  decide +kernel

end TwoPass
