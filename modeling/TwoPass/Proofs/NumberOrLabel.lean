import Mathlib.Computability.Language
import TwoPass.Operand.Target
import TwoPass.Proofs.DefinedLabels
import TwoPass.Proofs.LabelSpelling

/-! # Numbers and labels

Where a number or a label may stand, the spelling alone decides which of them it is. The
shapes of tokens are patterns: a reader takes the longest text that matches one of them, by
the foremost pattern if there are several, and a token has a shape if that text is all of it.
Names that are no numbers in letters are labels, and no numeral is among them. -/

namespace TwoPass

open scoped Computability

/-! ## Patterns -/

namespace Pattern

def range (first last : Char) : Language Char :=
  {text | ∃ character, text = [character] ∧ first ≤ character ∧ character ≤ last}

def single (character : Char) : Language Char :=
  {[character]}

def optionalMinus : Language Char :=
  1 + single '-'

def digit : Language Char :=
  range '0' '9'

def hexDigit : Language Char :=
  digit + range 'a' 'f'

def binaryDigit : Language Char :=
  single '0' + single '1'

def nameStart : Language Char :=
  range 'a' 'z' + single '_'

def nameCharacter : Language Char :=
  nameStart + digit

def many (pattern : Language Char) : Language Char :=
  pattern * pattern∗

end Pattern

namespace Shape

open Pattern

def pattern : Shape → Language Char
  | .marked => single '#' * (nameCharacter + single '-')∗
  | .digits => optionalMinus * (digit * nameCharacter∗)
  | .lettered =>
    optionalMinus * (single 'x' * (optionalMinus * many hexDigit)) +
      optionalMinus * (single 'b' * (optionalMinus * many binaryDigit))
  | .lowRegister => single 'r' * many digit
  | .highRegister => single 'h' * many digit
  | .name => nameStart * nameCharacter∗

/-- Of two shapes that match the same text, that of higher priority is taken. -/
def priority : Shape → Nat
  | .marked | .digits => 20
  | .lettered => 15
  | .lowRegister | .highRegister => 12
  | .name => 1

/-- What a reader of shapes takes off the start of its input: the longest text that matches
a pattern, as the foremost of the shapes that it matches. -/
structure Takes (input : List Char) (shape : Shape) (text : List Char) : Prop where
  starts : text <+: input
  matched : text ∈ shape.pattern
  longest : ∀ (other : Shape) (candidate : List Char), candidate <+: input →
    candidate ∈ other.pattern → candidate.length ≤ text.length
  foremost : ∀ other : Shape, text ∈ other.pattern → other.priority ≤ shape.priority

end Shape

/-! ### Texts that match -/

namespace Pattern

def OneOf (pattern : Language Char) (kind : Char → Bool) : Prop :=
  ∀ text, text ∈ pattern ↔ ∃ character, text = [character] ∧ kind character = true

theorem OneOf.add {pattern other : Language Char} {kind otherKind : Char → Bool}
    (first : OneOf pattern kind) (second : OneOf other otherKind) :
    OneOf (pattern + other) fun character => kind character || otherKind character := by
  intro text
  rw [Language.mem_add, first, second, ← exists_or]
  simp only [Bool.or_eq_true, and_or_left]

theorem oneOf_single (character : Char) : OneOf (single character) (· == character) := by
  intro text
  simp only [beq_iff_eq, exists_eq_right]
  rfl

theorem oneOf_range (first last : Char) :
    OneOf (range first last) fun character => first ≤ character && character ≤ last := by
  intro text
  simp only [Bool.and_eq_true, decide_eq_true_eq]
  rfl

theorem oneOf_digit : OneOf digit Char.isDigit :=
  oneOf_range '0' '9'

theorem oneOf_hexDigit : OneOf hexDigit Shape.isHexDigit :=
  oneOf_digit.add (oneOf_range 'a' 'f')

theorem oneOf_binaryDigit : OneOf binaryDigit Shape.isBinaryDigit :=
  (oneOf_single '0').add (oneOf_single '1')

theorem oneOf_nameStart : OneOf nameStart Shape.isNameStart :=
  (oneOf_range 'a' 'z').add (oneOf_single '_')

theorem oneOf_nameCharacter : OneOf nameCharacter Shape.isNameCharacter :=
  oneOf_nameStart.add oneOf_digit

section

variable {pattern rest : Language Char} {kind : Char → Bool} {text : List Char}

theorem OneOf.mem_star (one : OneOf pattern kind) : text ∈ pattern∗ ↔ text.all kind = true := by
  rw [Language.mem_kstar, List.all_eq_true]
  constructor
  · rintro ⟨parts, rfl, each⟩ character member
    obtain ⟨part, inParts, inPart⟩ := List.mem_flatten.mp member
    obtain ⟨only, rfl, holds⟩ := (one part).mp (each part inParts)
    rwa [List.mem_singleton.mp inPart]
  · intro all
    refine ⟨text.map fun character => [character], ?_, ?_⟩
    · rw [← List.flatMap_def, List.flatMap_singleton']
    · intro part member
      obtain ⟨character, inText, rfl⟩ := List.mem_map.mp member
      exact (one _).mpr ⟨character, rfl, all character inText⟩

theorem OneOf.mem_mul (one : OneOf pattern kind) :
    text ∈ pattern * rest ↔
      ∃ first others, text = first :: others ∧ kind first = true ∧ others ∈ rest := by
  rw [Language.mem_mul]
  constructor
  · rintro ⟨front, inFront, back, inBack, rfl⟩
    obtain ⟨first, rfl, holds⟩ := (one front).mp inFront
    exact ⟨first, back, rfl, holds, inBack⟩
  · rintro ⟨first, others, rfl, holds, inRest⟩
    exact ⟨[first], (one _).mpr ⟨first, rfl, holds⟩, others, inRest, rfl⟩

theorem OneOf.mem_many (one : OneOf pattern kind) :
    text ∈ many pattern ↔ Shape.isRun kind text = true := by
  rw [many, one.mem_mul]
  cases text with
  | nil => simp [Shape.isRun]
  | cons first others => simp [Shape.isRun, one.mem_star]

theorem mem_single_mul {character : Char} :
    text ∈ single character * rest ↔ ∃ others, text = character :: others ∧ others ∈ rest := by
  simp [(oneOf_single character).mem_mul]

/-- If what follows never starts with a minus sign itself, one that is there is dropped. -/
theorem mem_optionalMinus_mul (plain : ∀ others, '-' :: others ∉ rest) :
    text ∈ optionalMinus * rest ↔ Shape.dropMinus text ∈ rest := by
  rw [optionalMinus, add_mul, one_mul, Language.mem_add, mem_single_mul]
  unfold Shape.dropMinus
  split
  · rename_i others
    simp [plain others]
  · rename_i unsigned
    constructor
    · rintro (matched | ⟨others, rfl, -⟩)
      · exact matched
      · exact absurd rfl (unsigned others)
    · exact .inl

end

end Pattern

/-! ### Shapes are patterns -/

namespace Shape

open Pattern

theorem mem_lettered_iff {letter : Char} {pattern : Language Char} {kind : Char → Bool}
    {text : List Char} (one : OneOf pattern kind) (unsigned : kind '-' = false)
    (other : letter ≠ '-') :
    text ∈ optionalMinus * (single letter * (optionalMinus * many pattern)) ↔
      ∃ rest, dropMinus text = letter :: rest ∧ isRun kind (dropMinus rest) = true := by
  have plainRun : ∀ others, '-' :: others ∉ many pattern := by
    intro others matched
    simp [one.mem_many, isRun, unsigned] at matched
  have plain : ∀ others, '-' :: others ∉ single letter * (optionalMinus * many pattern) := by
    intro others matched
    obtain ⟨rest, same, -⟩ := mem_single_mul.mp matched
    exact other (List.cons.inj same).1.symm
  rw [mem_optionalMinus_mul plain, mem_single_mul]
  simp only [mem_optionalMinus_mul plainRun, one.mem_many]

theorem accepts_iff_mem (shape : Shape) (text : List Char) :
    shape.accepts text = true ↔ text ∈ shape.pattern := by
  cases shape with
  | marked =>
      have marks := oneOf_nameCharacter.add (oneOf_single '-')
      simp only [pattern, accepts, mem_single_mul, marks.mem_star]
      split <;> simp_all
  | digits =>
      have plain : ∀ others, '-' :: others ∉ digit * nameCharacter∗ := by
        intro others matched
        simp [oneOf_digit.mem_mul] at matched
      simp only [pattern, accepts, mem_optionalMinus_mul plain, oneOf_digit.mem_mul,
        oneOf_nameCharacter.mem_star]
      split <;> simp_all
  | lettered =>
      simp only [pattern, accepts, Language.mem_add,
        mem_lettered_iff oneOf_hexDigit (by decide) (by decide : 'x' ≠ '-'),
        mem_lettered_iff oneOf_binaryDigit (by decide) (by decide : 'b' ≠ '-')]
      split <;> simp_all
  | lowRegister =>
      simp only [pattern, accepts, mem_single_mul, oneOf_digit.mem_many]
      split <;> simp_all
  | highRegister =>
      simp only [pattern, accepts, mem_single_mul, oneOf_digit.mem_many]
      split <;> simp_all
  | name =>
      simp only [pattern, accepts, oneOf_nameStart.mem_mul, oneOf_nameCharacter.mem_star]
      split <;> simp_all

/-! ### The reader of shapes -/

theorem mem_inOrder (shape : Shape) : shape ∈ inOrder := by
  cases shape <;> decide

theorem not_digits_of_marked {text : List Char} (accepted : marked.accepts text = true) :
    digits.accepts text = false := by
  simp only [accepts] at accepted
  split at accepted
  · rfl
  · cases accepted

theorem not_highRegister_of_lowRegister {text : List Char}
    (accepted : lowRegister.accepts text = true) : highRegister.accepts text = false := by
  simp only [accepts] at accepted
  split at accepted
  · rfl
  · cases accepted

theorem eq_of_priority {shape other : Shape} {text : List Char}
    (accepted : shape.accepts text = true) (otherAccepted : other.accepts text = true)
    (same : shape.priority = other.priority) : shape = other := by
  cases shape with
  | marked =>
      cases other with
      | marked => rfl
      | digits => cases otherAccepted.symm.trans (not_digits_of_marked accepted)
      | _ => exact absurd same (by decide)
  | digits =>
      cases other with
      | marked => cases accepted.symm.trans (not_digits_of_marked otherAccepted)
      | digits => rfl
      | _ => exact absurd same (by decide)
  | lettered =>
      cases other with
      | lettered => rfl
      | _ => exact absurd same (by decide)
  | lowRegister =>
      cases other with
      | lowRegister => rfl
      | highRegister => cases otherAccepted.symm.trans (not_highRegister_of_lowRegister accepted)
      | _ => exact absurd same (by decide)
  | highRegister =>
      cases other with
      | lowRegister => cases accepted.symm.trans (not_highRegister_of_lowRegister otherAccepted)
      | highRegister => rfl
      | _ => exact absurd same (by decide)
  | name =>
      cases other with
      | name => rfl
      | _ => exact absurd same (by decide)

theorem takes_of_of? {token : String} {shape : Shape} (shaped : of? token = some shape) :
    Takes token.toList shape token.toList := by
  obtain ⟨accepted, before, after, order, refused⟩ := List.find?_eq_some_iff_append.mp shaped
  refine ⟨List.prefix_rfl, (accepts_iff_mem _ _).mp accepted, ?_, ?_⟩
  · intro other candidate starts _
    exact starts.length_le
  · intro other matched
    have sorted : inOrder.Pairwise fun first second => second.priority ≤ first.priority := by
      decide
    have listed := mem_inOrder other
    rw [order] at sorted listed
    rcases List.mem_append.mp listed with earlier | later
    · have rejected := refused other earlier
      rw [(accepts_iff_mem _ _).mpr matched] at rejected
      cases rejected
    · rcases List.mem_cons.mp later with rfl | later
      · exact Nat.le_refl _
      · exact List.rel_of_pairwise_cons (List.pairwise_append.mp sorted).2.1 later

/-- A token has a shape just if the reader of shapes takes all of it as that. -/
theorem of?_eq_some_iff {token : String} {shape : Shape} :
    of? token = some shape ↔ Takes token.toList shape token.toList := by
  constructor
  · exact takes_of_of?
  · intro takes
    have accepted := (accepts_iff_mem _ _).mpr takes.matched
    cases shaped : of? token with
    | none => exact absurd accepted (List.find?_eq_none.mp shaped shape (mem_inOrder shape))
    | some found =>
        have foundTakes := takes_of_of? shaped
        have same : found.priority = shape.priority :=
          Nat.le_antisymm (takes.foremost found foundTakes.matched)
            (foundTakes.foremost shape takes.matched)
        rw [eq_of_priority ((accepts_iff_mem _ _).mpr foundTakes.matched) accepted same]

theorem dropMinus_of_name {text : List Char}
    (inName : ∀ character ∈ text, isNameCharacter character = true) : dropMinus text = text := by
  cases text with
  | nil => rfl
  | cons first rest => exact dropMinus_of_isNameCharacter (inName first List.mem_cons_self)

theorem mem_lettered_iff_of_name {letter : Char} {pattern : Language Char} {kind : Char → Bool}
    {text : List Char} (one : OneOf pattern kind) (unsigned : kind '-' = false)
    (other : letter ≠ '-') (inName : ∀ character ∈ text, isNameCharacter character = true) :
    text ∈ optionalMinus * (single letter * (optionalMinus * many pattern)) ↔
      text ∈ single letter * many pattern := by
  rw [mem_lettered_iff one unsigned other, dropMinus_of_name inName, mem_single_mul]
  apply exists_congr
  intro rest
  apply and_congr_right
  intro whole
  have restInName : ∀ character ∈ rest, isNameCharacter character = true := by
    intro character member
    exact inName character (whole ▸ List.mem_cons_of_mem letter member)
  rw [dropMinus_of_name restInName, one.mem_many]

theorem lettered_iff_of_name {text : List Char} (named : name.accepts text = true) :
    lettered.accepts text = true ↔
      text ∈ single 'x' * many hexDigit ∨ text ∈ single 'b' * many binaryDigit := by
  have inName : ∀ character ∈ text, isNameCharacter character = true := by
    obtain ⟨first, rest, whole, start, others⟩ :=
      oneOf_nameStart.mem_mul.mp ((accepts_iff_mem name text).mp named)
    rw [oneOf_nameCharacter.mem_star, List.all_eq_true] at others
    rw [whole]
    exact List.forall_mem_cons.mpr ⟨isNameCharacter_of_isNameStart start, others⟩
  rw [accepts_iff_mem, pattern, Language.mem_add,
    mem_lettered_iff_of_name oneOf_hexDigit (by decide) (by decide) inName,
    mem_lettered_iff_of_name oneOf_binaryDigit (by decide) (by decide) inName]

end Shape

/-! ## Labels -/

theorem readsAsNumber_eq_false_iff_mem (token : String) :
    readsAsNumber token = false ↔
      token.toList ∈ Shape.name.pattern ∧
        token.toList ∉ Pattern.single 'x' * Pattern.many Pattern.hexDigit ∧
        token.toList ∉ Pattern.single 'b' * Pattern.many Pattern.binaryDigit := by
  rw [readsAsNumber_eq_false_iff, ← Shape.accepts_iff_mem, ← not_or]
  apply and_congr_right
  intro named
  rw [← Shape.lettered_iff_of_name named, Bool.not_eq_true]

/-- A token that is taken for a number, be it too large. -/
def Numeral.Legal (token : String) : Prop :=
  ∀ named, Numeral.parse token ≠ .error (.malformedImmediate named)

theorem Numeral.Legal.readsAsNumber {token : String} (legal : Numeral.Legal token) :
    readsAsNumber token = true := by
  by_contra label
  exact legal token (Numeral.parse_of_label (Bool.eq_false_iff.mpr label))

def Labels.readDisplacement (labels : Labels) (pc : Nat) (field : Field) (token : String) :
    Except Problem (BitVec field.width) := do
  (← Target.parse field token).resolve labels pc field

def Labels.readWord (labels : Labels) (token : String) : Except Problem Nat := do
  (← WordOperand.parse token).resolve labels

section

variable {token : String} (labels : Labels) (pc : Nat) (field : Field)

theorem readDisplacement_of_label (label : readsAsNumber token = false) :
    labels.readDisplacement pc field token = labels.displacement pc field token := by
  rw [Labels.readDisplacement, Target.parse, label]
  rfl

theorem readWord_of_label (label : readsAsNumber token = false) :
    labels.readWord token = labels.address token := by
  rw [Labels.readWord, WordOperand.parse, label]
  rfl

theorem readDisplacement_of_number (number : readsAsNumber token = true) :
    labels.readDisplacement pc field token = Numeral.immediate field token := by
  rw [Labels.readDisplacement, Target.parse, if_pos number]
  cases Numeral.immediate field token <;> rfl

theorem readWord_of_number (number : readsAsNumber token = true) :
    labels.readWord token = BitVec.toNat <$> Numeral.immediate .word token := by
  rw [Labels.readWord, WordOperand.parse, if_pos number]
  cases Numeral.immediate .word token <;> rfl

end

theorem isLabelName_of_bound {options : Options} {source token : String} {offset : Nat}
    (bound : (Run.ofSource options source).scan.symbols.offset? token = some offset) :
    isLabelName token = true := by
  obtain ⟨definition, found, -⟩ := Option.map_eq_some_iff.mp bound
  have allowed := (Run.symbols_lawful options source).allowed definition
    (List.mem_of_find?_eq_some found)
  have named : definition.name = token := by simpa using List.find?_some found
  rw [← named]
  exact allowed.1

/-- The spelling of a token decides if it is a number or a label, whatever labels there are:
no numeral reads as a label, the labels are the names that are no numbers in letters, and just
these can be bound. -/
theorem number_or_label (token : String) :
    (∀ shape, Shape.of? token = some shape ↔ Shape.Takes token.toList shape token.toList) ∧
    (Numeral.Legal token → readsAsNumber token = true) ∧
    (readsAsNumber token = false ↔
      token.toList ∈ Pattern.nameStart * Pattern.nameCharacter∗ ∧
        token.toList ∉ Pattern.single 'x' * Pattern.many Pattern.hexDigit ∧
        token.toList ∉ Pattern.single 'b' * Pattern.many Pattern.binaryDigit) ∧
    (isLabelName token = true ↔ readsAsNumber token = false) ∧
    (∀ options source offset,
      (Run.ofSource options source).scan.symbols.offset? token = some offset →
        isLabelName token = true) ∧
    ∀ (labels : Labels) (pc : Nat) (field : Field),
      (isLabelName token = true →
        labels.readDisplacement pc field token = labels.displacement pc field token ∧
          labels.readWord token = labels.address token) ∧
      (Numeral.Legal token →
        labels.readDisplacement pc field token = Numeral.immediate field token ∧
          labels.readWord token = BitVec.toNat <$> Numeral.immediate .word token) := by
  have labels : isLabelName token = true ↔ readsAsNumber token = false := by
    rw [isLabelName_eq, Bool.not_eq_true']
  refine ⟨fun _ => Shape.of?_eq_some_iff, Numeral.Legal.readsAsNumber,
    readsAsNumber_eq_false_iff_mem token, labels, fun _ _ _ => isLabelName_of_bound,
    fun table pc field => ⟨fun label => ?_, fun legal => ?_⟩⟩
  · have read := labels.mp label
    exact ⟨readDisplacement_of_label table pc field read, readWord_of_label table read⟩
  · have read := legal.readsAsNumber
    exact ⟨readDisplacement_of_number table pc field read, readWord_of_number table read⟩

/-- A name that is nearly a number in letters is a label, and a number that nearly has a shape
is a number. -/
theorem number_or_label_nearly :
    let labels : Labels := ⟨⟨[⟨"b012", 7⟩]⟩, ⟨0x3000⟩, .second⟩
    isLabelName "b012" = true ∧ labels.address "b012" = .ok 0x3007 ∧
      labels.readWord "b012" = labels.address "b012" ∧
      Shape.of? "0x-5" = none ∧ Numeral.Legal "0x-5" ∧
      labels.readWord "0x-5" = BitVec.toNat <$> Numeral.immediate .word "0x-5" := by
  intro labels
  have label : isLabelName "b012" = true := by decide
  have read : Numeral.parse "0x-5" = .ok (-5) := rfl
  have legal : Numeral.Legal "0x-5" := by
    intro named malformed
    cases read.symm.trans malformed
  obtain ⟨-, -, -, -, -, asLabel⟩ := number_or_label "b012"
  obtain ⟨-, -, -, -, -, asNumber⟩ := number_or_label "0x-5"
  exact ⟨label, rfl, ((asLabel labels 0 .word).1 label).2, by decide, legal,
    ((asNumber labels 0 .word).2 legal).2⟩

end TwoPass
