import Mathlib.Data.List.Basic
import TwoPass.Proofs.Draft

/-! # What can be wrong with a statement

Encoding a statement fails over its mnemonic, the number of its operands, one of
them or the label that it names, and over nothing else. Once the number of operands
is accepted only the operands themselves are to blame: an encoder knows what to do
with every number that it accepts. -/

namespace TwoPass

/-- Whether a problem can lie in an operand, or in the label that it names. -/
def Problem.blamesOperand : Problem → Bool
  | .malformedImmediate _ | .immediateOutOfRange _ _ | .malformedRegister _
  | .malformedOperand _ _ | .unknownLabel _ | .labelOutOfRange _ _ _ | .malformedString _
  | .emptyString => true
  | _ => false

/-- Whether a problem can lie in what is encoded, rather than in a label that is
bound, the shape of the program or the finished image. -/
def Problem.blamesStatement : Problem → Bool
  | .operandCount _ _ _ | .unknownMnemonic _ | .malformedImmediate _
  | .immediateOutOfRange _ _ | .malformedRegister _ | .malformedOperand _ _
  | .unknownLabel _ | .labelOutOfRange _ _ _ | .malformedString _ | .emptyString => true
  | _ => false

theorem Problem.blamesStatement_of_blamesOperand {problem : Problem}
    (blames : problem.blamesOperand = true) : problem.blamesStatement = true := by
  cases problem <;> first | rfl | cases blames

variable {α β : Type}

def BlamesStatement (outcome : Except Problem α) : Prop :=
  ∀ problem, outcome = .error problem → problem.blamesStatement = true

def BlamesOperand (outcome : Except Problem α) : Prop :=
  ∀ problem, outcome = .error problem → problem.blamesOperand = true

namespace BlamesOperand

theorem ok (value : α) : BlamesOperand (.ok value : Except Problem α) := by
  intro problem failed
  cases failed

theorem error {problem : Problem} (blames : problem.blamesOperand = true) :
    BlamesOperand (.error problem : Except Problem α) := by
  intro other failed
  cases failed
  exact blames

theorem bind {first : Except Problem α} {next : α → Except Problem β}
    (firstBlames : BlamesOperand first) (nextBlames : ∀ value, BlamesOperand (next value)) :
    BlamesOperand (first >>= next) := by
  intro problem failed
  rcases bind_eq_error.mp failed with failed | ⟨value, -, failed⟩
  · exact firstBlames problem failed
  · exact nextBlames value problem failed

theorem map {outcome : Except Problem α} (blames : BlamesOperand outcome) (change : α → β) :
    BlamesOperand (change <$> outcome) := by
  intro problem failed
  exact blames problem (map_eq_error.mp failed)

end BlamesOperand

/-! ## Operands -/

theorem Arity.check_of_accepted {arity : Arity} {operands : List String}
    (accepted : arity.accepts operands.length = true) (name : String) :
    arity.check name operands = .ok () :=
  if_pos accepted

theorem Arity.check_of_rejected {arity : Arity} {operands : List String}
    (rejected : arity.accepts operands.length = false) (name : String) :
    arity.check name operands = .error (.operandCount name arity operands.length) :=
  if_neg (Bool.eq_false_iff.mp rejected)

theorem Numeral.parse_blames (token : String) : BlamesOperand (parse token) := by
  unfold parse
  extract_lets unmarked
  dsimp only
  split
  · exact .error rfl
  · split
    · exact .error rfl
    · split
      · exact .error rfl
      · split <;> exact .ok _

theorem Numeral.immediate_blames (field : Field) (token : String) :
    BlamesOperand (immediate field token) := by
  refine (parse_blames token).bind fun value => ?_
  split
  · exact .ok _
  · exact .error rfl

theorem Register.parse_blames (file : RegisterFile) (token : String) :
    BlamesOperand (parse file token) := by
  unfold parse
  split
  · exact .ok _
  · exact .error rfl

theorem Target.parse_blames (field : Field) (token : String) :
    BlamesOperand (parse field token) := by
  unfold parse
  split
  · exact (Numeral.immediate_blames field token).map _
  · exact .ok _

theorem WordOperand.parse_blames (token : String) : BlamesOperand (parse token) := by
  unfold parse
  split
  · exact (Numeral.immediate_blames .word token).map _
  · exact .ok _

theorem Literal.codes_blames (literal : String) : BlamesOperand (codes literal) := by
  have characters_blames : BlamesOperand (characters literal) := by
    unfold characters
    split
    · exact .error rfl
    · exact .error rfl
    · split
      · exact .ok _
      · exact .error rfl
  exact characters_blames.bind fun _ => .ok _

/-! ## Labels -/

theorem Labels.offset_blames (labels : Labels) (name : String) :
    BlamesOperand (labels.offset name) := by
  unfold offset
  split
  · exact .ok _
  · exact .ok _
  · exact .error rfl

theorem Labels.address_blames (labels : Labels) (name : String) :
    BlamesOperand (labels.address name) := by
  refine (labels.offset_blames name).bind fun offset => ?_
  cases offset <;> exact .ok _

theorem Labels.displacement_blames (labels : Labels) (pc : Nat) (field : Field)
    (name : String) : BlamesOperand (labels.displacement pc field name) := by
  refine (labels.offset_blames name).bind fun offset => ?_
  cases offset with
  | none => exact .ok _
  | some target =>
      dsimp only
      split
      · exact .ok _
      · exact .error rfl

theorem Draft.resolve_blames (draft : Draft) (labels : Labels) (pc : Nat) :
    BlamesOperand (draft.resolve labels pc) := by
  cases draft.dependence pc with
  | constant words _ _ resolves =>
      rw [resolves]
      exact .ok words
  | displacement name field finish _ _ resolves =>
      rw [resolves]
      exact (labels.displacement_blames pc field name).map _
  | address name _ resolves =>
      rw [resolves]
      exact (labels.address_blames name).map _

/-! ## Baseline instructions -/

namespace Baseline

theorem registerNumber_blames (token : String) : BlamesOperand (registerNumber token) :=
  (Register.parse_blames .eight token).map _

theorem Source.parse_blames (token : String) : BlamesOperand (parse token) := by
  unfold parse
  split
  · exact (registerNumber_blames token).map _
  · exact (Numeral.immediate_blames immediate5 token).map _

theorem Form.parse_blames {form : Form} (mnemonic : String) {operands : List String}
    (accepted : form.arity.accepts operands.length = true) :
    BlamesOperand (form.parse mnemonic operands) := by
  cases form with
  | operate operation =>
      rcases List.length_eq_three.mp (beq_iff_eq.mp accepted) with ⟨rd, rs, last, rfl⟩
      exact (Source.parse_blames last).bind fun _ =>
        (registerNumber_blames rd).bind fun _ => (registerNumber_blames rs).bind fun _ => .ok _
  | not =>
      rcases List.length_eq_two.mp (beq_iff_eq.mp accepted) with ⟨rd, rs, rfl⟩
      exact (registerNumber_blames rd).bind fun _ => (registerNumber_blames rs).bind fun _ => .ok _
  | branch flags =>
      rcases List.length_eq_one_iff.mp (beq_iff_eq.mp accepted) with ⟨target, rfl⟩
      exact (Target.parse_blames pcOffset9 target).map _
  | jump =>
      rcases List.length_eq_one_iff.mp (beq_iff_eq.mp accepted) with ⟨base, rfl⟩
      exact (registerNumber_blames base).map _
  | call =>
      rcases List.length_eq_one_iff.mp (beq_iff_eq.mp accepted) with ⟨target, rfl⟩
      exact (Target.parse_blames pcOffset11 target).map _
  | callRegister =>
      rcases List.length_eq_one_iff.mp (beq_iff_eq.mp accepted) with ⟨base, rfl⟩
      exact (registerNumber_blames base).map _
  | direct access =>
      rcases List.length_eq_two.mp (beq_iff_eq.mp accepted) with ⟨register, target, rfl⟩
      exact (registerNumber_blames register).bind fun _ =>
        (Target.parse_blames pcOffset9 target).bind fun _ => .ok _
  | based access =>
      rcases List.length_eq_three.mp (beq_iff_eq.mp accepted) with ⟨register, base, offset, rfl⟩
      exact (registerNumber_blames register).bind fun _ =>
        (registerNumber_blames base).bind fun _ =>
          (Numeral.immediate_blames offset6 offset).bind fun _ => .ok _
  | trap =>
      rcases List.length_eq_one_iff.mp (beq_iff_eq.mp accepted) with ⟨vector, rfl⟩
      exact (Numeral.immediate_blames trapVector vector).map _
  | service vector =>
      rw [List.length_eq_zero_iff.mp (beq_iff_eq.mp accepted)]
      exact .ok _
  | subroutineReturn =>
      rw [List.length_eq_zero_iff.mp (beq_iff_eq.mp accepted)]
      exact .ok _
  | interruptReturn =>
      rw [List.length_eq_zero_iff.mp (beq_iff_eq.mp accepted)]
      exact .ok _

theorem Form.parse_of_rejected {form : Form} (mnemonic : String) {operands : List String}
    (rejected : form.arity.accepts operands.length = false) :
    form.parse mnemonic operands =
      .error (.operandCount mnemonic form.arity operands.length) := by
  unfold parse
  split <;> first | rfl | cases rejected

end Baseline

/-! ## Compact instructions -/

namespace Compact

theorem RegisterList.insertEntry_blames (extra : Option Register) (registers : RegisterList)
    (entry : String) : BlamesOperand (insertEntry extra registers entry) := by
  unfold insertEntry
  split
  · split
    · exact .ok _
    · exact .error rfl
  · refine (Register.parse_blames .sixteen entry).bind fun register => ?_
    split
    · exact .ok _
    · exact .error rfl

theorem RegisterList.insertEntries_blames (extra : Option Register) (registers : RegisterList)
    (entries : List String) :
    BlamesOperand (entries.foldlM (insertEntry extra) registers) := by
  induction entries generalizing registers with
  | nil => exact .ok registers
  | cons entry entries induction =>
      exact (insertEntry_blames extra registers entry).bind induction

theorem RegisterList.parse_blames (extra : Option Register) (tokens : List String) :
    BlamesOperand (parse extra tokens) := by
  unfold parse
  split
  · exact .error rfl
  · exact .error rfl
  · exact insertEntries_blames extra empty _

theorem eitherBank_blames (token : String) : BlamesOperand (eitherBank token) :=
  Register.parse_blames .sixteen token

theorem lowNumber_blames (register : Register) (token : String) :
    BlamesOperand (lowNumber register token) := by
  unfold lowNumber
  split
  · exact .ok _
  · exact .error rfl

theorem lowRegister_blames (token : String) : BlamesOperand (lowRegister token) :=
  (eitherBank_blames token).bind fun register => lowNumber_blames register token

theorem parseSum_blames (sum : Sum) (rd rs last : String) :
    BlamesOperand (parseSum sum rd rs last) := by
  refine (lowRegister_blames rs).bind fun _ => (lowRegister_blames rd).bind fun _ => ?_
  split
  · exact (lowRegister_blames last).bind fun _ => .ok _
  · exact (Numeral.immediate_blames immediate3 last).bind fun _ => .ok _

theorem parseByte_blames (operation : ByteOperation) (rd value : String) :
    BlamesOperand (parseByte operation rd value) :=
  (lowRegister_blames rd).bind fun _ =>
    (Numeral.immediate_blames immediate8 value).bind fun _ => .ok _

theorem parsePair_blames (operation : HighOperation)
    (ofLow : BitVec 3 → BitVec 3 → Instruction Target) (rd rs : String) :
    BlamesOperand (parsePair operation ofLow rd rs) := by
  refine (eitherBank_blames rd).bind fun _ => (eitherBank_blames rs).bind fun _ => ?_
  split <;> exact .ok _

theorem parseBaseAddress_blames (base : AddressBase) (rd offset : String) :
    BlamesOperand (parseBaseAddress base rd offset) :=
  (lowRegister_blames rd).bind fun _ =>
    (Numeral.immediate_blames immediate8 offset).bind fun _ => .ok _

theorem parseAddThree_blames (rd rs last : String) :
    BlamesOperand (parseAddThree rd rs last) := by
  unfold parseAddThree
  split
  · exact parseBaseAddress_blames .sp rd last
  · split
    · exact parseBaseAddress_blames .pc rd last
    · exact parseSum_blames .add rd rs last

theorem parseAdd_blames (rd source : String) : BlamesOperand (parseAdd rd source) := by
  unfold parseAdd
  split
  · exact parsePair_blames .add _ rd source
  · split
    · exact (Numeral.immediate_blames immediate7 source).map _
    · exact parseByte_blames .add rd source

theorem parseSubtract_blames (rd source : String) :
    BlamesOperand (parseSubtract rd source) := by
  unfold parseSubtract
  split
  · exact (Numeral.immediate_blames immediate7 source).map _
  · split
    · exact (lowRegister_blames rd).bind fun _ =>
        (lowRegister_blames source).bind fun _ => .ok _
    · exact parseByte_blames .subtract rd source

theorem parseMove_blames (rd source : String) : BlamesOperand (parseMove rd source) := by
  unfold parseMove
  split
  · exact parsePair_blames .move _ rd source
  · exact parseByte_blames .move rd source

theorem parseCompare_blames (rd source : String) : BlamesOperand (parseCompare rd source) := by
  unfold parseCompare
  split
  · exact parsePair_blames .compare _ rd source
  · exact parseByte_blames .compare rd source

theorem requireForm_blames (form : Option α) (token : String) :
    BlamesOperand (requireForm form token) := by
  unfold requireForm
  split
  · exact .ok _
  · exact .error rfl

theorem parseBased_blames (forms : AddressForms) (rd : BitVec 3) (baseToken offset : String) :
    BlamesOperand (parseBased forms rd baseToken offset) := by
  refine (eitherBank_blames baseToken).bind fun base => ?_
  split
  · exact (requireForm_blames forms.stack baseToken).bind fun _ =>
      (Numeral.immediate_blames immediate8 offset).bind fun _ => .ok _
  · split
    · exact (requireForm_blames forms.relative baseToken).bind fun _ =>
        (Target.parse_blames pcOffset8 offset).bind fun _ => .ok _
    · split
      · exact (requireForm_blames forms.register offset).bind fun _ =>
          (lowRegister_blames offset).bind fun _ =>
            (lowNumber_blames base baseToken).bind fun _ => .ok _
      · exact (Numeral.immediate_blames immediate5 offset).bind fun _ =>
          (lowNumber_blames base baseToken).bind fun _ => .ok _

theorem parseBracketed_blames (forms : AddressForms) (rd : BitVec 3) (operands : List String) :
    BlamesOperand (parseBracketed forms rd operands) := by
  unfold parseBracketed
  split
  · exact parseBased_blames forms rd _ "#0"
  · exact parseBased_blames forms rd _ _
  · exact .error rfl

theorem parseMemory_blames (forms : AddressForms) (rd : String) (operands : List String) :
    BlamesOperand (parseMemory forms rd operands) := by
  refine (lowRegister_blames rd).bind fun rd => ?_
  split
  · split
    · exact parseBracketed_blames forms rd _
    · exact (requireForm_blames forms.relative _).bind fun _ =>
        (Target.parse_blames pcOffset8 _).bind fun _ => .ok _
  · exact parseBracketed_blames forms rd operands

theorem parseWriteBack_blames (token : String) : BlamesOperand (parseWriteBack token) := by
  unfold parseWriteBack
  split
  · exact lowRegister_blames _
  · exact .error rfl

theorem two_or_three {operands : List String}
    (accepted : (Arity.between 2 3).accepts operands.length = true) :
    (∃ first second, operands = [first, second]) ∨
      ∃ first second third, operands = [first, second, third] := by
  simp only [Arity.accepts, Bool.and_eq_true, decide_eq_true_eq] at accepted
  have counts : operands.length = 2 ∨ operands.length = 3 := by omega
  exact counts.imp List.length_eq_two.mp List.length_eq_three.mp

theorem Form.parse_blames {form : Form} (mnemonic : String) {operands : List String}
    (accepted : form.arity.accepts operands.length = true) :
    BlamesOperand (form.parse mnemonic operands) := by
  cases form with
  | shift kind operation =>
      rcases two_or_three accepted with ⟨rd, rs, rfl⟩ | ⟨rd, rs, amount, rfl⟩
      · exact (lowRegister_blames rs).bind fun _ => (lowRegister_blames rd).bind fun _ => .ok _
      · exact (Numeral.immediate_blames immediate5 amount).bind fun _ =>
          (lowRegister_blames rs).bind fun _ => (lowRegister_blames rd).bind fun _ => .ok _
  | add =>
      rcases two_or_three accepted with ⟨rd, source, rfl⟩ | ⟨rd, rs, last, rfl⟩
      · exact parseAdd_blames rd source
      · exact parseAddThree_blames rd rs last
  | subtract =>
      rcases two_or_three accepted with ⟨rd, source, rfl⟩ | ⟨rd, rs, last, rfl⟩
      · exact parseSubtract_blames rd source
      · exact parseSum_blames .subtract rd rs last
  | move =>
      rcases List.length_eq_two.mp (beq_iff_eq.mp accepted) with ⟨rd, source, rfl⟩
      exact parseMove_blames rd source
  | compare =>
      rcases List.length_eq_two.mp (beq_iff_eq.mp accepted) with ⟨rd, source, rfl⟩
      exact parseCompare_blames rd source
  | alu operation =>
      rcases List.length_eq_two.mp (beq_iff_eq.mp accepted) with ⟨rd, rs, rfl⟩
      exact (lowRegister_blames rs).bind fun _ => (lowRegister_blames rd).bind fun _ => .ok _
  | branchExchange =>
      rcases List.length_eq_one_iff.mp (beq_iff_eq.mp accepted) with ⟨rs, rfl⟩
      exact (eitherBank_blames rs).map _
  | memory access extent =>
      cases operands with
      | nil => cases accepted
      | cons rd operands => exact parseMemory_blames _ rd operands
  | stackList access extra =>
      exact (RegisterList.parse_blames (some extra) operands).bind fun _ => .ok _
  | multiple access =>
      cases operands with
      | nil => cases accepted
      | cons base operands =>
          exact (parseWriteBack_blames base).bind fun _ =>
            (RegisterList.parse_blames none operands).bind fun _ => .ok _
  | branchIf condition =>
      rcases List.length_eq_one_iff.mp (beq_iff_eq.mp accepted) with ⟨target, rfl⟩
      exact (Target.parse_blames pcOffset8 target).map _
  | softwareInterrupt =>
      rcases List.length_eq_one_iff.mp (beq_iff_eq.mp accepted) with ⟨number, rfl⟩
      exact (Numeral.immediate_blames immediate8 number).map _
  | branch =>
      rcases List.length_eq_one_iff.mp (beq_iff_eq.mp accepted) with ⟨target, rfl⟩
      exact (Target.parse_blames pcOffset11 target).map _
  | branchLink =>
      rcases List.length_eq_one_iff.mp (beq_iff_eq.mp accepted) with ⟨target, rfl⟩
      exact (Target.parse_blames pcOffset11 target).map _
  | address =>
      rcases List.length_eq_two.mp (beq_iff_eq.mp accepted) with ⟨rd, target, rfl⟩
      exact (lowRegister_blames rd).bind fun _ =>
        (Target.parse_blames pcOffset8 target).bind fun _ => .ok _
  | noOperation =>
      rw [List.length_eq_zero_iff.mp (beq_iff_eq.mp accepted)]
      exact .ok _

end Compact

/-! ## Data and statements -/

namespace Storage

theorem blockCount_blames (token : String) : BlamesOperand (blockCount token) := by
  refine (Numeral.parse_blames token).bind fun count => ?_
  split
  · exact .ok _
  · exact .error rfl

theorem parse_blames {storage : Storage} {operands : List String}
    (accepted : storage.arity.accepts operands.length = true) :
    BlamesOperand (storage.parse operands) := by
  cases storage with
  | fill =>
      rcases List.length_eq_one_iff.mp (beq_iff_eq.mp accepted) with ⟨value, rfl⟩
      exact (WordOperand.parse_blames value).map _
  | block =>
      simp only [arity, Arity.accepts, Bool.and_eq_true, decide_eq_true_eq] at accepted
      have counts : operands.length = 1 ∨ operands.length = 2 := by omega
      rcases counts with one | two
      · rcases List.length_eq_one_iff.mp one with ⟨count, rfl⟩
        exact (blockCount_blames count).bind fun _ => .ok _
      · rcases List.length_eq_two.mp two with ⟨count, value, rfl⟩
        exact (blockCount_blames count).bind fun _ =>
          (WordOperand.parse_blames value).bind fun _ => .ok _
  | string =>
      rcases List.length_eq_one_iff.mp (beq_iff_eq.mp accepted) with ⟨literal, rfl⟩
      exact (Literal.codes_blames literal).bind fun _ => .ok _

theorem parse_of_rejected {storage : Storage} {operands : List String}
    (rejected : storage.arity.accepts operands.length = false) :
    storage.parse operands =
      .error (.operandCount storage.name storage.arity operands.length) := by
  unfold parse
  split <;> first | rfl | cases rejected

end Storage

def Profile.arity? (profile : Profile) (mnemonic : String) : Option Arity :=
  match profile with
  | .baseline => (Baseline.mnemonics.lookup mnemonic).map Baseline.Form.arity
  | .compact => (Compact.mnemonics.lookup mnemonic).map Compact.Form.arity

namespace Statement

def arity? (profile : Profile) : Statement → Option Arity
  | .instruction mnemonic _ => profile.arity? mnemonic
  | .storage kind _ => some kind.arity

theorem draft_of_unknown {profile : Profile} {statement : Statement}
    (unknown : statement.arity? profile = none) :
    statement.draft profile = .error (.unknownMnemonic statement.name) := by
  cases statement with
  | instruction mnemonic operands =>
      cases profile with
      | baseline =>
          have missing := Option.map_eq_none_iff.mp unknown
          simp only [draft, Baseline.parse, missing]
          rfl
      | compact =>
          have missing := Option.map_eq_none_iff.mp unknown
          simp only [draft, Compact.parse, missing]
          rfl
  | storage kind operands => cases unknown

theorem draft_of_rejected {profile : Profile} {statement : Statement} {arity : Arity}
    (known : statement.arity? profile = some arity)
    (rejected : arity.accepts statement.operands.length = false) :
    statement.draft profile =
      .error (.operandCount statement.name arity statement.operands.length) := by
  cases statement with
  | instruction mnemonic operands =>
      cases profile with
      | baseline =>
          rcases Option.map_eq_some_iff.mp known with ⟨form, found, rfl⟩
          have failed := Baseline.Form.parse_of_rejected mnemonic rejected
          simp only [draft, Baseline.parse, found]
          exact congrArg (Draft.baseline <$> ·) failed
      | compact =>
          rcases Option.map_eq_some_iff.mp known with ⟨form, found, rfl⟩
          have failed := Arity.check_of_rejected rejected mnemonic
          simp only [draft, Compact.parse, found]
          exact congrArg (fun checked => Draft.compact <$> (checked >>= fun _ => _)) failed
  | storage kind operands =>
      cases known
      exact congrArg (Draft.data <$> ·) (Storage.parse_of_rejected rejected)

theorem draft_of_accepted {profile : Profile} {statement : Statement} {arity : Arity}
    (known : statement.arity? profile = some arity)
    (accepted : arity.accepts statement.operands.length = true) :
    BlamesOperand (statement.draft profile) := by
  cases statement with
  | instruction mnemonic operands =>
      cases profile with
      | baseline =>
          rcases Option.map_eq_some_iff.mp known with ⟨form, found, rfl⟩
          simp only [draft, Baseline.parse, found]
          exact (Baseline.Form.parse_blames mnemonic accepted).map _
      | compact =>
          rcases Option.map_eq_some_iff.mp known with ⟨form, found, rfl⟩
          simp only [draft, Compact.parse, found]
          refine .map (.bind ?_ fun _ => Compact.Form.parse_blames mnemonic accepted) _
          have checked := Arity.check_of_accepted accepted mnemonic
          exact checked ▸ .ok ()
  | storage kind operands =>
      cases known
      exact (Storage.parse_blames accepted).map _

theorem draft_blames (profile : Profile) (statement : Statement) :
    BlamesStatement (statement.draft profile) := by
  intro problem failed
  cases known : statement.arity? profile with
  | none =>
      cases (draft_of_unknown known).symm.trans failed
      rfl
  | some arity =>
      cases accepted : arity.accepts statement.operands.length with
      | false =>
          cases (draft_of_rejected known accepted).symm.trans failed
          rfl
      | true =>
          apply Problem.blamesStatement_of_blamesOperand
          exact draft_of_accepted known accepted problem failed

/-- What resolving labels adds to the problems of a statement lies in its operands. -/
theorem encode_eq_error {profile : Profile} {labels : Labels} {pc : Nat} {statement : Statement}
    {problem : Problem} (failed : statement.encode profile labels pc = .error problem) :
    statement.draft profile = .error problem ∨ problem.blamesOperand = true := by
  rw [encode_eq_draft] at failed
  rcases bind_eq_error.mp failed with unread | ⟨draft, -, unresolved⟩
  · exact .inl unread
  · right
    rcases bind_eq_error.mp unresolved with unresolved | ⟨words, -, impossible⟩
    · exact draft.resolve_blames labels pc problem unresolved
    · cases impossible

theorem encode_blames (profile : Profile) (labels : Labels) (pc : Nat) (statement : Statement) :
    BlamesStatement (statement.encode profile labels pc) := by
  intro problem failed
  rcases encode_eq_error failed with unread | blames
  · exact statement.draft_blames profile problem unread
  · exact Problem.blamesStatement_of_blamesOperand blames

theorem encode_eq_operandCount_iff {profile : Profile} {labels : Labels} {pc : Nat}
    {statement : Statement} {name : String} {expected : Arity} {found : Nat} :
    statement.encode profile labels pc = .error (.operandCount name expected found) ↔
      statement.arity? profile = some expected ∧
      expected.accepts statement.operands.length = false ∧
      name = statement.name ∧ found = statement.operands.length := by
  constructor
  · intro failed
    have unread : statement.draft profile = .error (.operandCount name expected found) :=
      (encode_eq_error failed).resolve_right Bool.false_ne_true
    cases known : statement.arity? profile with
    | none => cases (draft_of_unknown known).symm.trans unread
    | some arity =>
        cases accepted : arity.accepts statement.operands.length with
        | false =>
            cases (draft_of_rejected known accepted).symm.trans unread
            exact ⟨rfl, accepted, rfl, rfl⟩
        | true => cases draft_of_accepted known accepted _ unread
  · rintro ⟨known, rejected, rfl, rfl⟩
    rw [encode_eq_draft, draft_of_rejected known rejected]
    rfl

end Statement

end TwoPass
