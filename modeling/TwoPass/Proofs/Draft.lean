import TwoPass.Program.Statement
import TwoPass.Proofs.Except

/-! # Statements without their labels

Encoding reads every operand of a statement before it looks up the one label that
the operands may name. A draft is what is known in between. The table of labels
reaches the words only through the offset of that label, and never decides how
many words there are. -/

namespace TwoPass

/-- A statement whose operands are read and whose label is not looked up yet. -/
inductive Draft where
  | baseline (instruction : Baseline.Instruction Target)
  | compact (instruction : Compact.Instruction Target)
  | data (content : Storage.Content)

namespace Storage.Content

def size : Content → Nat
  | .copies count _ => count
  | .codes values => values.length

end Storage.Content

namespace Draft

def label? : Draft → Option String
  | .baseline instruction => instruction.label?
  | .compact instruction => instruction.label?
  | .data content => content.label?

def size : Draft → Nat
  | .baseline _ | .compact _ => 1
  | .data content => content.size

def resolve (labels : Labels) (pc : Nat) : Draft → Except Problem (List Nat)
  | .baseline instruction =>
    (fun resolved => [resolved.word.toNat]) <$> instruction.resolve labels pc
  | .compact instruction =>
    (fun resolved => [resolved.word.toNat]) <$> instruction.resolve labels pc
  | .data content => content.resolve labels

/-! ## How the words of a draft depend on labels -/

/-- The three ways in which labels enter the words of a draft at `pc`: not at all,
as a displacement in a field of one word, or as an address in every word. -/
inductive Dependence (draft : Draft) (pc : Nat) : Prop where
  | constant (words : List Nat) (unlabelled : draft.label? = none)
      (length : words.length = draft.size)
      (resolves : ∀ labels, draft.resolve labels pc = .ok words)
  | displacement (name : String) (field : Field) (finish : BitVec field.width → Word)
      (labelled : draft.label? = some name) (length : draft.size = 1)
      (resolves : ∀ labels, draft.resolve labels pc =
        (fun bits => [(finish bits).toNat]) <$> labels.displacement pc field name)
  | address (name : String) (labelled : draft.label? = some name)
      (resolves : ∀ labels, draft.resolve labels pc =
        List.replicate draft.size <$> labels.address name)

theorem Dependence.ofTarget {draft : Draft} {pc : Nat} (field : Field)
    (target : Target field.width) (finish : BitVec field.width → Word)
    (labelled : draft.label? = target.label?) (length : draft.size = 1)
    (resolves : ∀ labels, draft.resolve labels pc =
      (fun bits => [(finish bits).toNat]) <$> target.resolve labels pc field) :
    draft.Dependence pc := by
  cases target with
  | distance bits => exact .constant [(finish bits).toNat] labelled length.symm resolves
  | label name => exact .displacement name field finish labelled length resolves

theorem dependence (draft : Draft) (pc : Nat) : draft.Dependence pc := by
  cases draft with
  | baseline instruction =>
      cases instruction with
      | branch flags target =>
          exact .ofTarget Baseline.pcOffset9 target
            (fun bits => (Baseline.Instruction.branch flags bits).word) rfl rfl
            fun labels => Functor.map_map _ _ _
      | call target =>
          exact .ofTarget Baseline.pcOffset11 target
            (fun bits => (Baseline.Instruction.call bits).word) rfl rfl
            fun labels => Functor.map_map _ _ _
      | direct access register target =>
          exact .ofTarget Baseline.pcOffset9 target
            (fun bits => (Baseline.Instruction.direct access register bits).word) rfl rfl
            fun labels => Functor.map_map _ _ _
      | _ => exact .constant _ rfl rfl fun labels => rfl
  | compact instruction =>
      cases instruction with
      | loadRelative rd target =>
          exact .ofTarget Compact.pcOffset8 target
            (fun bits => (Compact.Instruction.loadRelative rd bits).word) rfl rfl
            fun labels => Functor.map_map _ _ _
      | relativeAddress rd target =>
          exact .ofTarget Compact.pcOffset8 target
            (fun bits => (Compact.Instruction.relativeAddress rd bits).word) rfl rfl
            fun labels => Functor.map_map _ _ _
      | branchIf condition target =>
          exact .ofTarget Compact.pcOffset8 target
            (fun bits => (Compact.Instruction.branchIf condition bits).word) rfl rfl
            fun labels => Functor.map_map _ _ _
      | branch target =>
          exact .ofTarget Compact.pcOffset11 target
            (fun bits => (Compact.Instruction.branch bits).word) rfl rfl
            fun labels => Functor.map_map _ _ _
      | branchLink target =>
          exact .ofTarget Compact.pcOffset11 target
            (fun bits => (Compact.Instruction.branchLink bits).word) rfl rfl
            fun labels => Functor.map_map _ _ _
      | _ => exact .constant _ rfl rfl fun labels => rfl
  | data content =>
      cases content with
      | copies count value =>
          cases value with
          | number bits =>
              exact .constant (List.replicate count bits.toNat) rfl List.length_replicate
                fun labels => rfl
          | label name => exact .address name rfl fun labels => rfl
      | codes values => exact .constant values rfl rfl fun labels => rfl

theorem resolve_length {draft : Draft} {labels : Labels} {pc : Nat} {words : List Nat}
    (resolved : draft.resolve labels pc = .ok words) : words.length = draft.size := by
  cases draft.dependence pc with
  | constant constantWords _ length resolves =>
      rw [resolves] at resolved
      cases resolved
      exact length
  | displacement name field finish _ length resolves =>
      rw [resolves] at resolved
      rcases map_eq_ok.mp resolved with ⟨bits, -, rfl⟩
      exact length.symm
  | address name _ resolves =>
      rw [resolves] at resolved
      rcases map_eq_ok.mp resolved with ⟨value, -, rfl⟩
      exact List.length_replicate

/-- Only the label of a draft is looked up. -/
theorem resolve_congr (draft : Draft) (pc : Nat) {left right : Labels}
    (origin : left.origin = right.origin)
    (same : ∀ name, draft.label? = some name → left.offset name = right.offset name) :
    draft.resolve left pc = draft.resolve right pc := by
  cases draft.dependence pc with
  | constant words _ _ resolves => rw [resolves, resolves]
  | displacement name field finish labelled _ resolves =>
      rw [resolves, resolves]
      simp only [Labels.displacement, same name labelled]
  | address name labelled resolves =>
      rw [resolves, resolves]
      simp only [Labels.address, same name labelled, origin]

theorem resolve_of_awaited {draft : Draft} {labels : Labels} {name : String} (pc : Nat)
    (labelled : draft.label? = some name) (awaited : labels.offset name = .ok none) :
    ∃ words, draft.resolve labels pc = .ok words := by
  cases draft.dependence pc with
  | constant words _ _ resolves => exact ⟨words, resolves labels⟩
  | displacement other field finish otherLabelled _ resolves =>
      cases labelled.symm.trans otherLabelled
      rw [resolves]
      simp only [Labels.displacement, awaited]
      exact ⟨_, rfl⟩
  | address other otherLabelled resolves =>
      cases labelled.symm.trans otherLabelled
      rw [resolves]
      simp only [Labels.address, awaited]
      exact ⟨_, rfl⟩

theorem resolve_of_unknown {draft : Draft} {labels : Labels} {name : String}
    {problem : Problem} (pc : Nat) (labelled : draft.label? = some name)
    (unknown : labels.offset name = .error problem) :
    draft.resolve labels pc = .error problem := by
  cases draft.dependence pc with
  | constant words unlabelled _ _ => cases labelled.symm.trans unlabelled
  | displacement other field finish otherLabelled _ resolves =>
      cases labelled.symm.trans otherLabelled
      rw [resolves]
      simp only [Labels.displacement, unknown]
      rfl
  | address other otherLabelled resolves =>
      cases labelled.symm.trans otherLabelled
      rw [resolves]
      simp only [Labels.address, unknown]
      rfl

theorem labelled_of_resolve_error {draft : Draft} {labels : Labels} {pc : Nat}
    {problem : Problem} (failed : draft.resolve labels pc = .error problem) :
    ∃ name, draft.label? = some name := by
  cases draft.dependence pc with
  | constant words _ _ resolves =>
      rw [resolves] at failed
      cases failed
  | displacement name field finish labelled _ _ => exact ⟨name, labelled⟩
  | address name labelled _ => exact ⟨name, labelled⟩

end Draft

theorem SymbolTable.offset?_of_prefix {table full : SymbolTable} {name : String} {offset : Nat}
    (grown : table.definitions <+: full.definitions)
    (bound : table.offset? name = some offset) : full.offset? name = some offset := by
  rcases grown with ⟨more, extended⟩
  rcases Option.map_eq_some_iff.mp bound with ⟨definition, found, rfl⟩
  rw [offset?, ← extended, List.find?_append, found]
  rfl

namespace Statement

def draft (profile : Profile) : Statement → Except Problem Draft
  | .instruction mnemonic operands =>
    match profile with
    | .baseline => .baseline <$> Baseline.parse mnemonic operands
    | .compact => .compact <$> Compact.parse mnemonic operands
  | .storage kind operands => .data <$> kind.parse operands

/-- The number of words that a statement takes up, whether or not it can be
encoded. -/
def size : Statement → Nat
  | .instruction _ _ => 1
  | .storage kind operands =>
    match kind.parse operands with
    | .ok content => content.size
    | .error _ => kind.failedLength operands

theorem encode_eq_draft (profile : Profile) (labels : Labels) (pc : Nat)
    (statement : Statement) :
    statement.encode profile labels pc = (do
      let draft ← statement.draft profile
      let words ← draft.resolve labels pc
      return ⟨words, draft.label?.any labels.defers⟩) := by
  cases statement with
  | instruction mnemonic operands =>
      cases profile with
      | baseline =>
          simp only [encode, Profile.encode, Statement.draft]
          cases Baseline.parse mnemonic operands with
          | error problem => rfl
          | ok instruction => simp [Draft.resolve, Draft.label?]
      | compact =>
          simp only [encode, Profile.encode, Statement.draft]
          cases Compact.parse mnemonic operands with
          | error problem => rfl
          | ok instruction => simp [Draft.resolve, Draft.label?]
  | storage kind operands =>
      simp only [encode, Storage.encode, Statement.draft]
      cases kind.parse operands <;> rfl

theorem draft_size {profile : Profile} {statement : Statement} {draft : Draft}
    (read : statement.draft profile = .ok draft) : draft.size = statement.size := by
  cases statement with
  | instruction mnemonic operands =>
      cases profile with
      | baseline =>
          rcases map_eq_ok.mp read with ⟨instruction, parsed, rfl⟩
          rfl
      | compact =>
          rcases map_eq_ok.mp read with ⟨instruction, parsed, rfl⟩
          rfl
  | storage kind operands =>
      rcases map_eq_ok.mp read with ⟨content, parsed, rfl⟩
      simp only [size, parsed, Draft.size]

theorem failedLength_of_unread {profile : Profile} {statement : Statement} {problem : Problem}
    (unread : statement.draft profile = .error problem) :
    statement.failedLength = statement.size := by
  cases statement with
  | instruction mnemonic operands => rfl
  | storage kind operands =>
      have unparsed : kind.parse operands = .error problem := map_eq_error.mp unread
      simp only [failedLength, size, unparsed]

theorem failedLength_of_label {profile : Profile} {statement : Statement} {draft : Draft}
    {name : String} (read : statement.draft profile = .ok draft)
    (labelled : draft.label? = some name) : statement.failedLength = statement.size := by
  cases statement with
  | instruction mnemonic operands => rfl
  | storage kind operands =>
      rcases map_eq_ok.mp read with ⟨content, parsed, rfl⟩
      simp only [failedLength, size, parsed]
      unfold Storage.parse at parsed
      split at parsed
      · rcases map_eq_ok.mp parsed with ⟨operand, -, rfl⟩
        rfl
      · rcases bind_eq_ok.mp parsed with ⟨number, -, built⟩
        cases built
        cases labelled
      · rcases bind_eq_ok.mp parsed with ⟨number, counted, built⟩
        rcases bind_eq_ok.mp built with ⟨operand, -, built⟩
        cases built
        simp [Storage.failedLength, counted, Storage.Content.size, Except.toOption]
      · rcases bind_eq_ok.mp parsed with ⟨codes, -, built⟩
        cases built
        cases labelled
      · cases parsed

theorem encode_length {profile : Profile} {labels : Labels} {pc : Nat} {statement : Statement}
    {encoding : Encoding} (encoded : statement.encode profile labels pc = .ok encoding) :
    encoding.words.length = statement.size := by
  rw [encode_eq_draft] at encoded
  rcases bind_eq_ok.mp encoded with ⟨draft, read, encoded⟩
  rcases bind_eq_ok.mp encoded with ⟨words, resolved, built⟩
  cases built
  exact (Draft.resolve_length resolved).trans (draft_size read)

theorem failedLength_of_error {profile : Profile} {labels : Labels} {pc : Nat}
    {statement : Statement} {problem : Problem}
    (failed : statement.encode profile labels pc = .error problem) :
    statement.failedLength = statement.size := by
  rw [encode_eq_draft] at failed
  rcases bind_eq_error.mp failed with unread | ⟨draft, read, failed⟩
  · exact failedLength_of_unread unread
  · rcases bind_eq_error.mp failed with unresolved | ⟨words, -, built⟩
    · rcases Draft.labelled_of_resolve_error unresolved with ⟨name, labelled⟩
      exact failedLength_of_label read labelled
    · cases built

def awaits (profile : Profile) (table : SymbolTable) (statement : Statement) : Bool :=
  match statement.draft profile with
  | .ok draft => draft.label?.any fun name => (table.offset? name).isNone
  | .error _ => false

theorem awaits_of_draft {profile : Profile} {statement : Statement} {draft : Draft}
    (read : statement.draft profile = .ok draft) (table : SymbolTable) :
    statement.awaits profile table = draft.label?.any fun name => (table.offset? name).isNone := by
  simp only [awaits, read]

theorem encode_of_awaits {profile : Profile} {table : SymbolTable} {statement : Statement}
    (origin : Address) (pc : Nat) (waiting : statement.awaits profile table) :
    ∃ words, statement.encode profile ⟨table, origin, .first⟩ pc = .ok ⟨words, true⟩ := by
  cases read : statement.draft profile with
  | error problem => simp [awaits, read] at waiting
  | ok draft =>
      rw [awaits_of_draft read] at waiting
      rcases (Option.any_eq_true _ _).mp waiting with ⟨name, labelled, unbound⟩
      have absent : table.offset? name = none := Option.isNone_iff_eq_none.mp unbound
      have awaited : Labels.offset ⟨table, origin, .first⟩ name = .ok none := by
        simp [Labels.offset, absent]
      rcases Draft.resolve_of_awaited pc labelled awaited with ⟨words, resolved⟩
      refine ⟨words, ?_⟩
      rw [encode_eq_draft, read, ok_bind, resolved, ok_bind, labelled]
      simp [Labels.defers, absent]

theorem encode_first_deferred {profile : Profile} {table : SymbolTable} {origin : Address}
    {pc : Nat} {statement : Statement} {encoding : Encoding}
    (encoded : statement.encode profile ⟨table, origin, .first⟩ pc = .ok encoding) :
    encoding.deferred = statement.awaits profile table := by
  rw [encode_eq_draft] at encoded
  rcases bind_eq_ok.mp encoded with ⟨draft, read, encoded⟩
  rcases bind_eq_ok.mp encoded with ⟨words, resolved, built⟩
  cases built
  rw [awaits_of_draft read]
  rfl

/-- A statement that does not wait is encoded at once as it would be with all
labels bound. -/
theorem encode_of_not_awaits {profile : Profile} {table full : SymbolTable}
    {statement : Statement} (origin : Address) (pc : Nat)
    (grown : table.definitions <+: full.definitions)
    (ready : statement.awaits profile table = false) :
    statement.encode profile ⟨table, origin, .first⟩ pc =
      statement.encode profile ⟨full, origin, .second⟩ pc := by
  rw [encode_eq_draft, encode_eq_draft]
  cases read : statement.draft profile with
  | error problem => rfl
  | ok draft =>
      rw [awaits_of_draft read] at ready
      -- Growth keeps offsets, so the two tables agree on the one label that is looked up.
      have bound (name : String) (labelled : draft.label? = some name) :
          ∃ offset, table.offset? name = some offset := by
        rw [labelled] at ready
        exact Option.isSome_iff_exists.mp (by simpa using ready)
      have resolved : draft.resolve ⟨table, origin, .first⟩ pc =
          draft.resolve ⟨full, origin, .second⟩ pc := by
        refine draft.resolve_congr pc rfl fun name labelled => ?_
        rcases bound name labelled with ⟨offset, known⟩
        have kept : full.offset? name = some offset := SymbolTable.offset?_of_prefix grown known
        simp only [Labels.offset, known, kept]
      have undeferred : draft.label?.any (Labels.defers ⟨table, origin, .first⟩) =
          draft.label?.any (Labels.defers ⟨full, origin, .second⟩) := by
        cases labelled : draft.label? with
        | none => rfl
        | some name =>
            rcases bound name labelled with ⟨offset, known⟩
            simp [Labels.defers, known]
      rw [ok_bind, ok_bind, resolved, undeferred]

end Statement

end TwoPass
