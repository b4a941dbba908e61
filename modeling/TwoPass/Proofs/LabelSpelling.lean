import TwoPass.Line.Shape
import TwoPass.Operand.Numeral

/-! # How labels are spelled

The shapes of tokens overlap: a name may also be a number in letters, or name a
register. A token reads as a label if it is a name and no number in letters, and then
it is no numeral in any radix. -/

namespace TwoPass

/-- The spelling of a name: small letters, digits and underscores, with no digit first. -/
def NameSpelling (text : List Char) : Prop :=
  ∃ first rest, text = first :: rest ∧
    (first = '_' ∨ 'a' ≤ first ∧ first ≤ 'z') ∧
    ∀ character ∈ rest,
      character = '_' ∨ 'a' ≤ character ∧ character ≤ 'z' ∨ '0' ≤ character ∧ character ≤ '9'

namespace Shape

theorem isNameStart_iff (character : Char) :
    isNameStart character = true ↔ character = '_' ∨ 'a' ≤ character ∧ character ≤ 'z' := by
  have lower : character.isLower = (decide ('a' ≤ character) && decide (character ≤ 'z')) := rfl
  simp [isNameStart, lower, or_comm]

theorem isNameCharacter_iff (character : Char) :
    isNameCharacter character = true ↔
      character = '_' ∨ 'a' ≤ character ∧ character ≤ 'z' ∨
        '0' ≤ character ∧ character ≤ '9' := by
  simp [isNameCharacter, isNameStart_iff, Char.isDigit, Char.le_def, or_assoc]

theorem accepts_name_iff (text : List Char) : name.accepts text = true ↔ NameSpelling text := by
  constructor
  · intro accepted
    cases text with
    | nil => cases accepted
    | cons first rest =>
        simp only [accepts, Bool.and_eq_true, List.all_eq_true, isNameStart_iff,
          isNameCharacter_iff] at accepted
        exact ⟨first, rest, rfl, accepted⟩
  · rintro ⟨first, rest, rfl, start, others⟩
    simp only [accepts, Bool.and_eq_true, List.all_eq_true, isNameStart_iff, isNameCharacter_iff]
    exact ⟨start, others⟩

theorem ne_of_isNameStart {character : Char} (start : isNameStart character = true) :
    character ≠ '#' ∧ character ≠ '-' ∧ character.isDigit = false := by
  rw [isNameStart_iff] at start
  simp only [Char.le_def, Char.isDigit, ne_eq, Char.ext_iff] at *
  grind

theorem ne_minus_of_isNameCharacter {character : Char}
    (inName : isNameCharacter character = true) : character ≠ '-' := by
  rw [isNameCharacter_iff] at inName
  simp only [Char.le_def, ne_eq, Char.ext_iff] at *
  grind

theorem dropMinus_of_isNameCharacter {first : Char} {rest : List Char}
    (inName : isNameCharacter first = true) : dropMinus (first :: rest) = first :: rest := by
  unfold dropMinus
  split
  · rename_i same
    cases same
    exact absurd rfl (ne_minus_of_isNameCharacter inName)
  · rfl

theorem isNameCharacter_of_isNameStart {character : Char}
    (start : isNameStart character = true) : isNameCharacter character = true := by
  simp [isNameCharacter, start]

theorem not_marked_of_name {text : List Char} (named : name.accepts text = true) :
    marked.accepts text = false ∧ digits.accepts text = false := by
  cases text with
  | nil => cases named
  | cons first rest =>
      simp only [accepts, Bool.and_eq_true] at named
      rcases ne_of_isNameStart named.1 with ⟨unmarked, -, letter⟩
      constructor
      · simp only [accepts]
        split
        · rename_i same
          cases same
          exact absurd rfl unmarked
        · rfl
      · simp [accepts, dropMinus_of_isNameCharacter (isNameCharacter_of_isNameStart named.1),
          letter]

theorem name_of_run {letter : Char} {rest : List Char} (start : isNameStart letter = true)
    (run : isRun Char.isDigit rest = true) : name.accepts (letter :: rest) = true := by
  simp only [isRun, Bool.and_eq_true, List.all_eq_true] at run
  simp only [accepts, Bool.and_eq_true, List.all_eq_true]
  exact ⟨start, fun character member => by simp [isNameCharacter, run.2 character member]⟩

theorem name_of_register {text : List Char}
    (register : lowRegister.accepts text = true ∨ highRegister.accepts text = true) :
    name.accepts text = true := by
  rcases register with low | high
  · simp only [accepts] at low
    split at low
    · exact name_of_run (by decide) low
    · cases low
  · simp only [accepts] at high
    split at high
    · exact name_of_run (by decide) high
    · cases high

end Shape

theorem readsAsNumber_eq_false_iff (token : String) :
    readsAsNumber token = false ↔
      Shape.name.accepts token.toList = true ∧ Shape.lettered.accepts token.toList = false := by
  unfold readsAsNumber Shape.of? Shape.inOrder
  generalize token.toList = text
  simp only [List.find?_cons, List.find?_nil]
  by_cases named : Shape.name.accepts text = true
  · rcases Shape.not_marked_of_name named with ⟨unmarked, letter⟩
    rw [unmarked, letter]
    cases lettered : Shape.lettered.accepts text with
    | true => simp [Shape.isNumber]
    | false =>
        cases Shape.lowRegister.accepts text <;> cases Shape.highRegister.accepts text <;>
          simp [named, Shape.isNumber]
  · have neither : Shape.lowRegister.accepts text = false ∧
        Shape.highRegister.accepts text = false := by
      constructor
      · exact Bool.eq_false_iff.mpr fun low => named (Shape.name_of_register (.inl low))
      · exact Bool.eq_false_iff.mpr fun high => named (Shape.name_of_register (.inr high))
    rw [neither.1, neither.2, Bool.eq_false_iff.mpr named]
    cases Shape.marked.accepts text <;> cases Shape.digits.accepts text <;>
      cases Shape.lettered.accepts text <;> simp [Shape.isNumber]

theorem isLabelName_eq (token : String) : isLabelName token = !readsAsNumber token := by
  cases read : readsAsNumber token with
  | true => simp [isLabelName, read]
  | false => simp [isLabelName, read, ((readsAsNumber_eq_false_iff token).mp read).1]

theorem spelling_of_isLabelName {token : String} (label : isLabelName token = true) :
    NameSpelling token.toList ∧ readsAsNumber token = false := by
  rw [isLabelName_eq, Bool.not_eq_true'] at label
  exact ⟨(Shape.accepts_name_iff _).mp ((readsAsNumber_eq_false_iff token).mp label).1, label⟩

/-! ## Labels and numerals -/

namespace Numeral

theorem digitValue?_ten_of_isNameStart {character : Char}
    (start : Shape.isNameStart character = true) : digitValue? 10 character = none := by
  rcases Shape.ne_of_isNameStart start with ⟨-, -, letter⟩
  unfold digitValue?
  rw [letter]
  simp only [Bool.false_eq_true, if_false]
  split
  · simp
  · split <;> simp

theorem isHexDigit_of_digitValue? {character : Char} {value : Nat}
    (inName : Shape.isNameCharacter character = true)
    (digit : digitValue? 16 character = some value) : Shape.isHexDigit character = true := by
  rw [Shape.isNameCharacter_iff] at inName
  simp only [digitValue?, Shape.isHexDigit, Char.le_def, Char.isDigit, Char.ext_iff] at *
  grind

theorem isBinaryDigit_of_digitValue? {character : Char} {value : Nat}
    (digit : digitValue? 2 character = some value) : Shape.isBinaryDigit character = true := by
  unfold digitValue? at digit
  rcases Option.filter_eq_some_iff.mp digit with ⟨found, small⟩
  have small : value < 2 := of_decide_eq_true small
  split at found
  · rename_i isDigit
    have number : character.toNat - 48 = value := Option.some.inj found
    have least : 48 ≤ character.toNat := by
      simp only [Char.isDigit, Bool.and_eq_true, decide_eq_true_eq, ge_iff_le] at isDigit
      exact isDigit.1
    have either : character.toNat = '0'.toNat ∨ character.toNat = '1'.toNat := by
      simp only [Char.reduceToNat]
      omega
    rcases either with same | same <;> rw [Char.toNat_inj.mp same] <;> decide
  · split at found
    · cases found
      omega
    · split at found <;> cases found
      omega

theorem digits_of_magnitude? {radix number : Nat} {digits : List Char}
    (read : magnitude? radix digits = some number) :
    digits ≠ [] ∧ ∀ digit ∈ digits, ∃ value, digitValue? radix digit = some value := by
  unfold magnitude? at read
  split at read
  · cases read
  · rename_i nonempty
    refine ⟨by simpa using nonempty, ?_⟩
    rcases Option.map_eq_some_iff.mp read with ⟨values, mapped, -⟩
    clear read nonempty
    induction digits generalizing values with
    | nil => nofun
    | cons first rest induction =>
        simp only [List.mapM_cons, Option.bind_eq_bind, Option.bind_eq_some_iff] at mapped
        rcases mapped with ⟨value, here, others, later, -⟩
        intro digit member
        rcases List.mem_cons.mp member with rfl | member
        · exact ⟨value, here⟩
        · exact induction others later digit member

theorem magnitude?_of_not_run {radix : Nat} {kind : Char → Bool} {digits : List Char}
    (digit : ∀ character ∈ digits, ∀ value,
      digitValue? radix character = some value → kind character = true)
    (other : Shape.isRun kind digits = false) : magnitude? radix digits = none := by
  apply Option.eq_none_iff_forall_ne_some.mpr
  intro number read
  rcases digits_of_magnitude? read with ⟨nonempty, values⟩
  have run : Shape.isRun kind digits = true := by
    simp only [Shape.isRun, Bool.and_eq_true, List.all_eq_true]
    refine ⟨by simpa using nonempty, fun character member => ?_⟩
    rcases values character member with ⟨value, found⟩
    exact digit character member value found
  cases run.symm.trans other

theorem takeMinus_of_name {text : List Char}
    (inName : ∀ character ∈ text, Shape.isNameCharacter character = true) :
    takeMinus text = (false, text) := by
  unfold takeMinus
  split
  · exact absurd rfl (Shape.ne_minus_of_isNameCharacter (inName '-' List.mem_cons_self))
  · rfl

theorem takeRadix_of_name {first : Char} {rest : List Char}
    (start : Shape.isNameStart first = true) :
    first = 'x' ∧ takeRadix (first :: rest) = (16, rest) ∨
      first = 'b' ∧ takeRadix (first :: rest) = (2, rest) ∨
      takeRadix (first :: rest) = (10, first :: rest) := by
  generalize whole : first :: rest = text
  unfold takeRadix
  split
  · cases whole
    exact absurd start (by decide)
  · cases whole
    exact absurd start (by decide)
  · cases whole
    exact .inl ⟨rfl, rfl⟩
  · cases whole
    exact .inr (.inl ⟨rfl, rfl⟩)
  · exact .inr (.inr rfl)

theorem magnitude?_of_name {first : Char} {rest : List Char}
    (named : Shape.name.accepts (first :: rest) = true)
    (unlettered : Shape.lettered.accepts (first :: rest) = false) :
    ∃ radix digits, takeRadix (first :: rest) = (radix, digits) ∧
      takeMinus digits = (false, digits) ∧ magnitude? radix digits = none := by
  simp only [Shape.accepts, Bool.and_eq_true, List.all_eq_true] at named
  rcases named with ⟨start, others⟩
  have inName := Shape.isNameCharacter_of_isNameStart start
  simp only [Shape.accepts, Shape.dropMinus_of_isNameCharacter inName] at unlettered
  have undropped : Shape.dropMinus rest = rest := by
    cases rest with
    | nil => rfl
    | cons second rest =>
        exact Shape.dropMinus_of_isNameCharacter (others second List.mem_cons_self)
  rcases takeRadix_of_name start with ⟨rfl, taken⟩ | ⟨rfl, taken⟩ | taken
  · refine ⟨16, rest, taken, takeMinus_of_name others, ?_⟩
    apply magnitude?_of_not_run
    · intro character member value
      exact isHexDigit_of_digitValue? (others character member)
    · exact (congrArg (Shape.isRun Shape.isHexDigit) undropped).symm.trans unlettered
  · refine ⟨2, rest, taken, takeMinus_of_name others, ?_⟩
    apply magnitude?_of_not_run
    · intro character member value
      exact isBinaryDigit_of_digitValue?
    · exact (congrArg (Shape.isRun Shape.isBinaryDigit) undropped).symm.trans unlettered
  · have all : ∀ character ∈ first :: rest, Shape.isNameCharacter character = true := by
      intro character member
      rcases List.mem_cons.mp member with rfl | member
      · exact inName
      · exact others character member
    refine ⟨10, first :: rest, taken, takeMinus_of_name all, ?_⟩
    apply Option.eq_none_iff_forall_ne_some.mpr
    intro number read
    rcases (digits_of_magnitude? read).2 first List.mem_cons_self with ⟨value, found⟩
    cases (digitValue?_ten_of_isNameStart start).symm.trans found

theorem parse_of_label {token : String} (label : readsAsNumber token = false) :
    parse token = .error (.malformedImmediate token) := by
  rcases (readsAsNumber_eq_false_iff token).mp label with ⟨named, unlettered⟩
  unfold parse
  generalize token.toList = text at named unlettered ⊢
  cases text with
  | nil => cases named
  | cons first rest =>
      have start : Shape.isNameStart first = true := by
        simp only [Shape.accepts, Bool.and_eq_true] at named
        exact named.1
      rcases Shape.ne_of_isNameStart start with ⟨unmarked, unsigned, -⟩
      rcases magnitude?_of_name named unlettered with ⟨radix, digits, taken, plain, none⟩
      have bare : takeMinus (first :: rest) = (false, first :: rest) := by
        unfold takeMinus
        split
        · rename_i same
          cases same
          exact absurd rfl unsigned
        · rfl
      split
      · rename_i same
        cases same
        exact absurd rfl unmarked
      · simp [bare, taken, plain, none]

end Numeral

end TwoPass
