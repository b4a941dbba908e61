import Mathlib.Data.Nat.Digits.Defs
import Mathlib.Tactic.IntervalCases
import Mathlib.Tactic.Positivity
import TwoPass.Operand.Numeral
import TwoPass.Proofs.Except
import TwoPass.Proofs.FieldRange
import TwoPass.Proofs.LabelSpelling

/-! # The grammar of numerals

A numeral is put together from a number mark, a minus sign, a radix mark, a second place for
the minus sign, and digits. Only the digits have to be there. Reading accepts just what can be
put together so, and finds the number that all of the digits spell, however large. -/

namespace TwoPass.Numeral

/-! ## Digits -/

def smallDigits : List Char :=
  ['0', '1', '2', '3', '4', '5', '6', '7', '8', '9', 'a', 'b', 'c', 'd', 'e', 'f']

def capitalDigits : List Char :=
  ['0', '1', '2', '3', '4', '5', '6', '7', '8', '9', 'A', 'B', 'C', 'D', 'E', 'F']

structure IsDigit (radix : Nat) (character : Char) (value : Nat) : Prop where
  small : value < radix
  spelled : smallDigits[value]? = some character ∨ capitalDigits[value]? = some character

/-- Where consecutive characters stand in a row, each is found by its distance from the first. -/
theorem getElem?_of_consecutive {row : List Char} {first last character : Char} {start : Nat}
    (consecutive : ∀ distance < last.toNat + 1 - first.toNat,
      row[distance + start]? = some (Char.ofNat (first.toNat + distance)))
    (least : first ≤ character) (most : character ≤ last) :
    row[character.toNat - first.toNat + start]? = some character := by
  have lower : first.toNat ≤ character.toNat := least
  have upper : character.toNat ≤ last.toNat := most
  have code : first.toNat + (character.toNat - first.toNat) = character.toNat := by omega
  rw [consecutive _ (by omega), code, Char.ofNat_toNat]

theorem isDigit_of_digitValue? {radix value : Nat} {character : Char}
    (read : digitValue? radix character = some value) : IsDigit radix character value := by
  obtain ⟨found, small⟩ := Option.filter_eq_some_iff.mp read
  refine ⟨of_decide_eq_true small, ?_⟩
  split at found
  · rename_i decimal
    simp only [Char.isDigit, Bool.and_eq_true, decide_eq_true_eq, ge_iff_le] at decimal
    have number : character.toNat - '0'.toNat + 0 = value := Option.some.inj found
    rw [← number]
    exact .inl (getElem?_of_consecutive (by decide) decimal.1 decimal.2)
  · split at found
    · rename_i letter
      have number : character.toNat - 'a'.toNat + 10 = value := Option.some.inj found
      rw [← number]
      exact .inl (getElem?_of_consecutive (by decide) letter.1 letter.2)
    · split at found
      · rename_i letter
        have number : character.toNat - 'A'.toNat + 10 = value := Option.some.inj found
        rw [← number]
        exact .inr (getElem?_of_consecutive (by decide) letter.1 letter.2)
      · cases found

theorem digitValue?_of_isDigit {radix value : Nat} {character : Char} (bound : radix ≤ 16)
    (digit : IsDigit radix character value) : digitValue? radix character = some value := by
  obtain ⟨small, spelled⟩ := digit
  have least : value < 16 := by omega
  apply Option.filter_eq_some_iff.mpr
  refine ⟨?_, decide_eq_true small⟩
  interval_cases value <;> rcases spelled with spelled | spelled <;>
    (obtain rfl := Option.some.inj spelled; rfl)

theorem digitValue?_eq_some_iff {radix value : Nat} {character : Char} (bound : radix ≤ 16) :
    digitValue? radix character = some value ↔ IsDigit radix character value :=
  ⟨isDigit_of_digitValue?, digitValue?_of_isDigit bound⟩

/-- Digits, the most significant first, spell a number. -/
structure Spelled (radix : Nat) (digits : List Char) (number : Nat) : Prop where
  nonempty : digits ≠ []
  values : ∃ values, List.Forall₂ (IsDigit radix) digits values ∧
    number = Nat.ofDigits radix values.reverse

theorem ofDigits_eq (radix : Nat) (values : List Nat) :
    ofDigits radix values = Nat.ofDigits radix values.reverse := by
  have step : (fun number value => number * radix + value) =
      fun number value => value + radix * number := by
    funext number value
    rw [Nat.add_comm, Nat.mul_comm]
  rw [ofDigits, step, Nat.ofDigits_eq_foldr, List.foldr_reverse]
  rfl

theorem mapM_eq_some_iff {digits : List Char} {values : List Nat} {radix : Nat}
    (bound : radix ≤ 16) :
    digits.mapM (digitValue? radix) = some values ↔
      List.Forall₂ (IsDigit radix) digits values := by
  induction digits generalizing values with
  | nil => simp [eq_comm]
  | cons digit digits induction =>
      simp only [List.mapM_cons, Option.bind_eq_bind, Option.bind_eq_some_iff, Option.pure_def,
        Option.some.injEq, List.forall₂_cons_left_iff, digitValue?_eq_some_iff bound, induction]
      grind

theorem magnitude?_eq_some_iff {radix number : Nat} {digits : List Char} (bound : radix ≤ 16) :
    magnitude? radix digits = some number ↔ Spelled radix digits number := by
  unfold magnitude?
  split
  · rename_i empty
    constructor
    · intro read
      cases read
    · intro spelled
      exact absurd (List.isEmpty_iff.mp empty) spelled.nonempty
  · rename_i some
    simp only [Option.map_eq_some_iff, mapM_eq_some_iff bound, ofDigits_eq]
    constructor
    · rintro ⟨values, spelled, rfl⟩
      exact ⟨fun empty => some (List.isEmpty_iff.mpr empty), values, spelled, rfl⟩
    · rintro ⟨-, values, spelled, rfl⟩
      exact ⟨values, spelled, rfl⟩

/-! ## Numerals -/

inductive RadixMark where
  | omitted
  | x
  | b
  | zeroX
  | zeroB
  deriving DecidableEq, Repr

namespace RadixMark

def text : RadixMark → List Char
  | .omitted => []
  | .x => ['x']
  | .b => ['b']
  | .zeroX => ['0', 'x']
  | .zeroB => ['0', 'b']

def radix : RadixMark → Nat
  | .omitted => 10
  | .x | .zeroX => 16
  | .b | .zeroB => 2

theorem radix_le (mark : RadixMark) : mark.radix ≤ 16 := by
  cases mark <;> decide

end RadixMark

def signed (minus : Bool) (magnitude : Nat) : Int :=
  if minus then -magnitude else magnitude

@[simp] theorem natAbs_signed (minus : Bool) (magnitude : Nat) :
    (signed minus magnitude).natAbs = magnitude := by
  cases minus <;> simp [signed]

def optional (character : Char) (present : Bool) : List Char :=
  if present then [character] else []

/-- The parts of a numeral: `[#][-](x|b|0x|0b)?[-]digits`, with one minus sign at most. -/
structure Spelling where
  marked : Bool
  minusFirst : Bool
  mark : RadixMark
  minusLast : Bool
  digits : List Char
  magnitude : Nat
  signedOnce : ¬(minusFirst = true ∧ minusLast = true)
  spelled : Spelled mark.radix digits magnitude

namespace Spelling

def text (spelling : Spelling) : List Char :=
  optional '#' spelling.marked ++ (optional '-' spelling.minusFirst ++
    (spelling.mark.text ++ (optional '-' spelling.minusLast ++ spelling.digits)))

def value (spelling : Spelling) : Int :=
  signed (spelling.minusFirst || spelling.minusLast) spelling.magnitude

end Spelling

def InGrammar (token : String) : Prop :=
  ∃ spelling : Spelling, spelling.text = token.toList

/-! ## Reading without a bound -/

def dropMark : List Char → List Char
  | '#' :: rest => rest
  | text => text

/-- The number that text spells, of any size. -/
def value? (text : List Char) : Option Int :=
  let (minusFirst, marked) := takeMinus (dropMark text)
  let (radix, unsigned) := takeRadix marked
  let (minusLast, digits) := takeMinus unsigned
  if minusFirst && minusLast then
    none
  else
    (magnitude? radix digits).map (signed (minusFirst || minusLast))

theorem value?_of_parts {text marked unsigned digits : List Char} {minusFirst minusLast : Bool}
    {radix : Nat} (first : takeMinus (dropMark text) = (minusFirst, marked))
    (taken : takeRadix marked = (radix, unsigned)) (last : takeMinus unsigned = (minusLast, digits))
    (once : (minusFirst && minusLast) = false) :
    value? text = (magnitude? radix digits).map (signed (minusFirst || minusLast)) := by
  simp [value?, first, taken, last, once]

theorem parse_eq (token : String) :
    parse token =
      match value? token.toList with
      | none => .error (.malformedImmediate token)
      | some value =>
        if greatestMagnitude < value.natAbs then
          .error (.immediateOutOfRange token .word)
        else
          .ok value := by
  unfold parse
  extract_lets unmarked
  have dropped : dropMark token.toList = unmarked := rfl
  rw [value?, dropped]
  clear_value unmarked
  dsimp only
  split
  · rfl
  · cases magnitude? (takeRadix (takeMinus unmarked).2).1
        (takeMinus (takeRadix (takeMinus unmarked).2).2).2 with
    | none => rfl
    | some magnitude =>
        simp only [Option.map_some, natAbs_signed]
        cases (takeMinus unmarked).1 || (takeMinus (takeRadix (takeMinus unmarked).2).2).1 <;> rfl

/-! ### What is spelled is read -/

theorem Spelled.not_mem {radix number : Nat} {digits : List Char} {character : Char}
    (spelled : Spelled radix digits number) (bound : radix ≤ 16)
    (other : digitValue? radix character = none) : character ∉ digits := by
  intro member
  have read := (magnitude?_eq_some_iff bound).mpr spelled
  obtain ⟨value, digit⟩ := (digits_of_magnitude? read).2 character member
  cases other.symm.trans digit

theorem Spelled.head?_ne {radix number : Nat} {digits : List Char} {character : Char}
    (spelled : Spelled radix digits number) (bound : radix ≤ 16)
    (other : digitValue? radix character = none) : digits.head? ≠ some character :=
  fun first => spelled.not_mem bound other (List.mem_of_head? first)

theorem head?_optional_ne {character other : Char} {rest : List Char} (present : Bool)
    (differs : character ≠ other) (plain : rest.head? ≠ some other) :
    (optional character present ++ rest).head? ≠ some other := by
  cases present with
  | true => simpa [optional] using differs
  | false => exact plain

theorem dropMark_optional {rest : List Char} (marked : Bool) (plain : rest.head? ≠ some '#') :
    dropMark (optional '#' marked ++ rest) = rest := by
  cases marked with
  | true => rfl
  | false =>
      show dropMark rest = rest
      unfold dropMark
      split
      · exact absurd rfl plain
      · rfl

theorem takeMinus_optional {rest : List Char} (minus : Bool) (plain : rest.head? ≠ some '-') :
    takeMinus (optional '-' minus ++ rest) = (minus, rest) := by
  cases minus with
  | true => rfl
  | false =>
      show takeMinus rest = (false, rest)
      unfold takeMinus
      split
      · exact absurd rfl plain
      · rfl

theorem takeRadix_of_decimal {digits : List Char} {number : Nat}
    (spelled : Spelled 10 digits number) : takeRadix digits = (10, digits) := by
  have noX : 'x' ∉ digits := spelled.not_mem (by decide) rfl
  have noB : 'b' ∉ digits := spelled.not_mem (by decide) rfl
  unfold takeRadix
  split
  · simp at noX
  · simp at noB
  · simp at noX
  · simp at noB
  · rfl

theorem takeRadix_text {mark : RadixMark} (present : mark ≠ .omitted) (rest : List Char) :
    takeRadix (mark.text ++ rest) = (mark.radix, rest) := by
  cases mark with
  | omitted => exact absurd rfl present
  | _ => rfl

theorem RadixMark.head?_text_ne {mark : RadixMark} (present : mark ≠ .omitted)
    (rest : List Char) :
    (mark.text ++ rest).head? ≠ some '-' ∧ (mark.text ++ rest).head? ≠ some '#' := by
  cases mark with
  | omitted => exact absurd rfl present
  | _ => simp [RadixMark.text]

/-- Without a radix mark the two places for the minus sign are one. -/
theorem optional_append_optional {minusFirst minusLast : Bool}
    (once : ¬(minusFirst = true ∧ minusLast = true)) (rest : List Char) :
    optional '-' minusFirst ++ (optional '-' minusLast ++ rest) =
      optional '-' (minusFirst || minusLast) ++ rest := by
  cases minusFirst with
  | false => rfl
  | true =>
      cases minusLast with
      | false => rfl
      | true => exact absurd ⟨rfl, rfl⟩ once

theorem value?_text (spelling : Spelling) : value? spelling.text = some spelling.value := by
  obtain ⟨marked, minusFirst, mark, minusLast, digits, magnitude, once, spelled⟩ := spelling
  have unsigned : digits.head? ≠ some '-' := spelled.head?_ne mark.radix_le rfl
  have unmarked : digits.head? ≠ some '#' := spelled.head?_ne mark.radix_le rfl
  have read := (magnitude?_eq_some_iff mark.radix_le).mpr spelled
  rw [Spelling.text, Spelling.value]
  dsimp only
  by_cases present : mark = .omitted
  · -- There is only one place for the minus sign, and it is found as the first.
    subst present
    have rest : takeMinus digits = (false, digits) := takeMinus_optional false unsigned
    rw [RadixMark.text, List.nil_append, optional_append_optional once,
      value?_of_parts _ (takeRadix_of_decimal spelled) rest (Bool.and_false _)]
    · rw [Bool.or_false]
      exact congrArg _ read
    · rw [dropMark_optional marked (head?_optional_ne _ (by decide) unmarked),
        takeMinus_optional _ unsigned]
  · obtain ⟨unsignedMark, unmarkedMark⟩ :=
      RadixMark.head?_text_ne present (optional '-' minusLast ++ digits)
    rw [value?_of_parts _ (takeRadix_text present _) (takeMinus_optional minusLast unsigned)
      (by simpa using once), read]
    · rfl
    · rw [dropMark_optional marked (head?_optional_ne _ (by decide) unmarkedMark),
        takeMinus_optional _ unsignedMark]

/-! ### What is read is spelled -/

theorem exists_optional_dropMark (text : List Char) :
    ∃ marked, optional '#' marked ++ dropMark text = text := by
  unfold dropMark
  split
  · exact ⟨true, rfl⟩
  · exact ⟨false, rfl⟩

theorem optional_takeMinus (text : List Char) :
    optional '-' (takeMinus text).1 ++ (takeMinus text).2 = text := by
  unfold takeMinus
  split <;> rfl

theorem exists_mark_takeRadix (text : List Char) :
    ∃ mark : RadixMark, mark.radix = (takeRadix text).1 ∧
      mark.text ++ (takeRadix text).2 = text := by
  unfold takeRadix
  split
  · exact ⟨.zeroX, rfl, rfl⟩
  · exact ⟨.zeroB, rfl, rfl⟩
  · exact ⟨.x, rfl, rfl⟩
  · exact ⟨.b, rfl, rfl⟩
  · exact ⟨.omitted, rfl, rfl⟩

theorem exists_spelling_of_value? {text : List Char} {value : Int}
    (read : value? text = some value) :
    ∃ spelling : Spelling, spelling.text = text ∧ spelling.value = value := by
  obtain ⟨marked, markedText⟩ := exists_optional_dropMark text
  have firstText := optional_takeMinus (dropMark text)
  obtain ⟨mark, radix, markText⟩ := exists_mark_takeRadix (takeMinus (dropMark text)).2
  have lastText := optional_takeMinus (takeRadix (takeMinus (dropMark text)).2).2
  simp only [value?] at read
  split at read
  · cases read
  · rename_i once
    obtain ⟨magnitude, spelled, rfl⟩ := Option.map_eq_some_iff.mp read
    rw [← radix] at spelled
    refine ⟨⟨marked, _, mark, _, _, magnitude, ?_,
      (magnitude?_eq_some_iff mark.radix_le).mp spelled⟩, ?_, rfl⟩
    · simpa using once
    · rw [Spelling.text]
      dsimp only
      rw [lastText, markText, firstText, markedText]

theorem value?_eq_some_iff {text : List Char} {value : Int} :
    value? text = some value ↔
      ∃ spelling : Spelling, spelling.text = text ∧ spelling.value = value := by
  constructor
  · exact exists_spelling_of_value?
  · rintro ⟨spelling, rfl, rfl⟩
    exact value?_text spelling

theorem value?_eq_none_iff {token : String} : value? token.toList = none ↔ ¬InGrammar token := by
  rw [Option.eq_none_iff_forall_ne_some]
  constructor
  · rintro unread ⟨spelling, whole⟩
    exact unread spelling.value (value?_eq_some_iff.mpr ⟨spelling, whole, rfl⟩)
  · intro other value read
    obtain ⟨spelling, whole, -⟩ := value?_eq_some_iff.mp read
    exact other ⟨spelling, whole⟩

/-! ## Immediates -/

section

variable {field : Field} {token : String}

theorem immediate_of_not_inGrammar (other : ¬InGrammar token) :
    immediate field token = .error (.malformedImmediate token) := by
  rw [immediate, parse_eq, value?_eq_none_iff.mpr other]
  rfl

section

variable {spelling : Spelling} (whole : spelling.text = token.toList)
include whole

theorem parse_of_spelling :
    parse token =
      if spelling.magnitude < 2 ^ 63 then .ok spelling.value
      else .error (.immediateOutOfRange token .word) := by
  have read : value? token.toList = some spelling.value := whole ▸ value?_text spelling
  have size : spelling.value.natAbs = spelling.magnitude := natAbs_signed _ _
  have limit : greatestMagnitude < spelling.magnitude ↔ ¬spelling.magnitude < 2 ^ 63 := by
    rw [greatestMagnitude]
    omega
  rw [parse_eq, read]
  dsimp only
  rw [size, if_congr limit rfl rfl, ite_not]

theorem immediate_of_admits (admitted : field.Admits spelling.value) :
    immediate field token = .ok (BitVec.ofInt field.width spelling.value) := by
  have bound := Field.natAbs_lt_of_admits admitted
  have size : spelling.value.natAbs = spelling.magnitude := natAbs_signed _ _
  have small : spelling.magnitude < 2 ^ 63 := by omega
  rw [immediate, parse_of_spelling whole, if_pos small, ok_bind, Field.encode_of_admits admitted]

theorem immediate_of_not_admits (refused : ¬field.Admits spelling.value) :
    immediate field token =
      .error (.immediateOutOfRange token
        (if spelling.magnitude < 2 ^ 63 then field else .word)) := by
  obtain ⟨problem, failed⟩ := Field.encode_of_not_admits refused
  rw [immediate, parse_of_spelling whole]
  split
  · rw [ok_bind, failed]
  · rfl

end

end

/-- Just the tokens of the grammar are read as numbers. What they spell is put into a field
if it lies in its range, and is refused by name if not. -/
theorem immediates_follow_grammar (field : Field) (token : String) :
    (InGrammar token ↔ ∀ named, immediate field token ≠ .error (.malformedImmediate named)) ∧
    (¬InGrammar token → immediate field token = .error (.malformedImmediate token)) ∧
    ∀ spelling : Spelling, spelling.text = token.toList →
      (field.Admits spelling.value →
        ∃ bits, immediate field token = .ok bits ∧
          (bits.toNat : Int) = spelling.value % 2 ^ field.width) ∧
      (¬field.Admits spelling.value →
        immediate field token =
          .error (.immediateOutOfRange token
            (if spelling.magnitude < 2 ^ 63 then field else .word))) := by
  refine ⟨⟨?_, ?_⟩, immediate_of_not_inGrammar, fun spelling whole => ⟨fun admitted => ?_, ?_⟩⟩
  · rintro ⟨spelling, whole⟩ named malformed
    by_cases admitted : field.Admits spelling.value
    · cases (immediate_of_admits whole admitted).symm.trans malformed
    · cases (immediate_of_not_admits whole admitted).symm.trans malformed
  · intro accepted
    by_contra other
    exact accepted token (immediate_of_not_inGrammar other)
  · refine ⟨_, immediate_of_admits whole admitted, ?_⟩
    rw [BitVec.toNat_ofInt, Int.toNat_of_nonneg (Int.emod_nonneg _ (by positivity))]
    push_cast
    rfl
  · exact immediate_of_not_admits whole

/-- The minus sign may follow the radix, a number may be too small for its field, or too large
for any, and two minus signs are too many. -/
theorem immediates_of_four_tokens :
    let field : Field := { width := 5, signedness := .signed }
    (∃ bits, immediate field "0x-5" = .ok bits ∧ (bits.toNat : Int) = -5 % 2 ^ 5) ∧
    immediate field "#-b10001" = .error (.immediateOutOfRange "#-b10001" field) ∧
    immediate field "x8000000000000000" =
      .error (.immediateOutOfRange "x8000000000000000" .word) ∧
    immediate field "#-x-1" = .error (.malformedImmediate "#-x-1") := by
  intro field
  have five : Spelled 16 ['5'] 5 := (magnitude?_eq_some_iff (by decide)).mp rfl
  have seventeen : Spelled 2 ['1', '0', '0', '0', '1'] 17 :=
    (magnitude?_eq_some_iff (by decide)).mp rfl
  have large : Spelled 16 ('8' :: List.replicate 15 '0') (2 ^ 63) :=
    (magnitude?_eq_some_iff (by decide)).mp rfl
  have twice : ¬InGrammar "#-x-1" := value?_eq_none_iff.mp rfl
  have inside : field.Admits (-5) := by decide
  have below : ¬field.Admits (-17) := by decide
  have above : ¬field.Admits (2 ^ 63 : Nat) := by decide
  refine ⟨?_, ?_, ?_, (immediates_follow_grammar field "#-x-1").2.1 twice⟩
  · exact ((immediates_follow_grammar field "0x-5").2.2
      ⟨false, false, .zeroX, true, _, _, by decide, five⟩ rfl).1 inside
  · exact ((immediates_follow_grammar field "#-b10001").2.2
      ⟨true, true, .b, false, _, _, by decide, seventeen⟩ rfl).2 below
  · exact ((immediates_follow_grammar field "x8000000000000000").2.2
      ⟨false, false, .x, false, _, _, by decide, large⟩ rfl).2 above

end TwoPass.Numeral
