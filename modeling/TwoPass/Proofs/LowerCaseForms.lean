import TwoPass.Line.Source

/-! # Lower-case forms

A lower-case form has no other lower-case form, and the characters that tell a reader where
literals and comments begin neither have another form nor are one. Both are facts about the
table of ranges: the forms of a range lie in no range, and none of them is a sign of ASCII
other than a small letter. -/

namespace TwoPass

/-! ## Ranges of the table -/

namespace CaseRange

variable {range other : CaseRange} {code form : Nat}

def least (range : CaseRange) : Nat :=
  (range.first + range.shift).toNat

def greatest (range : CaseRange) : Nat :=
  (range.last + range.shift).toNat

/-- Whether no form of a range lies between two code points. Comparing with `Nat.blt` lets
the whole table be checked by evaluation. -/
def outside (range : CaseRange) (low high : Nat) : Bool :=
  range.greatest.blt low || high.blt range.least

/-- Whether every form of a range is passed over by another range: it lies beyond it, or
between two of its steps. -/
def misses (range other : CaseRange) : Bool :=
  range.outside other.first other.last ||
    (range.first == range.last || range.stride % other.stride == 0) &&
      range.least % other.stride != other.first % other.stride

theorem all_misses : (all.all fun range => all.all range.misses) = true := by
  decide +kernel

theorem all_forms : ∀ range ∈ all,
    97 ≤ range.first + range.shift ∧ range.greatest < 0x110000 ∧
      range.outside 0xD800 0xDFFF = true ∧ range.outside 0x130 0x130 = true := by
  decide +kernel

theorem contains_iff :
    range.contains code = true ↔
      range.first ≤ code ∧ code ≤ range.last ∧ range.stride ∣ code - range.first := by
  simp only [contains, Bool.and_eq_true, decide_eq_true_eq, beq_iff_eq, and_assoc,
    Nat.dvd_iff_mod_eq_zero]

structure Gives (range : CaseRange) (code form : Nat) : Prop where
  listed : range ∈ all
  contained : range.contains code = true
  shifted : (form : Int) = code + range.shift

namespace Gives

theorem between (gives : range.Gives code form) :
    97 ≤ form ∧ range.least ≤ form ∧ form ≤ range.greatest := by
  rcases contains_iff.mp gives.contained with ⟨first, last, -⟩
  have lowest := (all_forms range gives.listed).1
  have shifted := gives.shifted
  unfold least greatest
  omega

theorem beyond {low high : Nat} (gives : range.Gives code form)
    (outside : range.outside low high = true) : form < low ∨ high < form := by
  rcases gives.between with ⟨-, least, greatest⟩
  simp only [CaseRange.outside, Bool.or_eq_true, Nat.blt_eq] at outside
  omega

theorem form_eq (gives : range.Gives code form) : form = range.least + (code - range.first) := by
  rcases contains_iff.mp gives.contained with ⟨first, -, -⟩
  have lowest := (all_forms range gives.listed).1
  have shifted := gives.shifted
  unfold least
  omega

theorem contains_eq_false (gives : range.Gives code form) (otherListed : other ∈ all) :
    other.contains form = false := by
  rw [Bool.eq_false_iff]
  intro inOther
  rcases contains_iff.mp inOther with ⟨least, greatest, otherSteps⟩
  have missed := List.all_eq_true.mp (List.all_eq_true.mp all_misses range gives.listed) other
    otherListed
  simp only [misses, Bool.or_eq_true, Bool.and_eq_true, beq_iff_eq, bne_iff_ne] at missed
  rcases missed with outside | ⟨aligned, between⟩
  · have beyond := gives.beyond outside
    omega
  · apply between
    rcases contains_iff.mp gives.contained with ⟨first, last, steps⟩
    -- Either there is one form only, or each step of the range is a step of the other.
    have further : other.stride ∣ code - range.first := by
      rcases aligned with single | multiple
      · have start : code - range.first = 0 := by omega
        rw [start]
        exact Nat.dvd_zero _
      · exact Nat.dvd_trans (Nat.dvd_of_mod_eq_zero multiple) steps
    have mod_eq {base jump : Nat} (divides : other.stride ∣ jump) :
        (base + jump) % other.stride = base % other.stride := by
      rw [Nat.add_mod, Nat.mod_eq_zero_of_dvd divides, Nat.add_zero, Nat.mod_mod]
    calc range.least % other.stride
        = (range.least + (code - range.first)) % other.stride := (mod_eq further).symm
      _ = (other.first + (form - other.first)) % other.stride := by
          rw [← gives.form_eq, Nat.add_sub_cancel' least]
      _ = other.first % other.stride := mod_eq otherSteps

end Gives

end CaseRange

/-! ## Forms of a character -/

/-- The four ways to a lower-case form. -/
inductive LowerForm (character : Char) : List Char → Prop where
  | ascii (small : character.toNat < 128) : LowerForm character [character.toLower]
  | dotted (capital : character = '\u0130') : LowerForm character ['i', '\u0307']
  | listed (range : CaseRange) (member : range ∈ CaseRange.all)
      (contained : range.contains character.toNat = true) :
      LowerForm character [Char.ofNat (character.toNat + range.shift).toNat]
  | own (unlisted : ∀ range ∈ CaseRange.all, range.contains character.toNat = false) :
      LowerForm character [character]

theorem lowerForm (character : Char) : LowerForm character (lowerCase character) := by
  unfold lowerCase
  split
  case isTrue small => exact .ascii small
  case isFalse =>
    split
    case isTrue capital => exact .dotted capital
    case isFalse =>
      split
      case h_1 range found =>
        exact .listed range (List.mem_of_find?_eq_some found)
          (List.find?_some (p := fun range : CaseRange => range.contains character.toNat)
            found)
      case h_2 unfound =>
        refine .own fun range member => ?_
        simpa using List.find?_eq_none.mp unfound range member

theorem lowerCase_of_ascii {character : Char} (small : character.toNat < 128) :
    lowerCase character = [character.toLower] :=
  if_pos small

theorem lowerCase_of_unlisted {character : Char} (large : 128 ≤ character.toNat)
    (undotted : character ≠ '\u0130')
    (unlisted : ∀ range ∈ CaseRange.all, range.contains character.toNat = false) :
    lowerCase character = [character] := by
  have unfound : CaseRange.all.find? (·.contains character.toNat) = none :=
    List.find?_eq_none.mpr fun range member => by simp [unlisted range member]
  rw [lowerCase, if_neg (by omega), if_neg undotted, unfound]

theorem forall_ascii (property : Char → Prop) (holds : ∀ code < 128, property (Char.ofNat code))
    {character : Char} (small : character.toNat < 128) : property character := by
  have known := holds character.toNat small
  rwa [Char.ofNat_toNat] at known

theorem CaseRange.gives_form {range : CaseRange} {code : Nat} (listed : range ∈ all)
    (contained : range.contains code = true) :
    range.Gives code (Char.ofNat (code + range.shift).toNat).toNat := by
  rcases all_forms range listed with ⟨lowest, highest, surrogates, -⟩
  have gives : range.Gives code (code + range.shift).toNat := by
    refine ⟨listed, contained, Int.toNat_of_nonneg ?_⟩
    have first := (contains_iff.mp contained).1
    omega
  have valid : (code + range.shift).toNat.isValidChar := by
    have character := gives.between.2.2
    have apart := gives.beyond surrogates
    unfold Nat.isValidChar
    omega
  have same : (Char.ofNat (code + range.shift).toNat).toNat = (code + range.shift).toNat := by
    rw [Char.ofNat, dif_pos valid]
    rfl
  rwa [same]

theorem lowerCase_of_mem {character form : Char} (member : form ∈ lowerCase character) :
    lowerCase form = [form] := by
  have forms := lowerForm character
  generalize known : lowerCase character = characters at member forms
  cases forms with
  | ascii small =>
      rw [List.mem_singleton.mp member]
      exact forall_ascii (fun letter => lowerCase letter.toLower = [letter.toLower]) (by decide)
        small
  | dotted capital =>
      rcases List.mem_cons.mp member with rfl | member
      · rfl
      · rw [List.mem_singleton.mp member]
        decide
  | listed range listed contained =>
      have gives := CaseRange.gives_form listed contained
      rw [← List.mem_singleton.mp member] at gives
      by_cases small : form.toNat < 128
      · have kept : 97 ≤ form.toNat → form.toLower = form :=
          forall_ascii (fun letter => 97 ≤ letter.toNat → letter.toLower = letter) (by decide) small
        rw [lowerCase_of_ascii small, kept gives.between.1]
      · apply lowerCase_of_unlisted (by omega)
        · intro capital
          have apart := gives.beyond (CaseRange.all_forms range listed).2.2.2
          rw [capital] at apart
          exact absurd apart (by decide)
        · intro other otherListed
          exact gives.contains_eq_false otherListed
  | own => rw [List.mem_singleton.mp member, known]

/-! ## Marks and blanks -/

/-- Whether a character outside literals opens one, or ends what is read of a line. -/
def isMark (character : Char) : Bool :=
  isQuote character || character == ';'

theorem lowerCase_of_isMark {character : Char} (mark : isMark character = true) :
    lowerCase character = [character] := by
  simp only [isMark, isQuote, Bool.or_eq_true, beq_iff_eq] at mark
  rcases mark with (rfl | rfl) | rfl <;> rfl

theorem isMark_of_mem {character form : Char} (member : form ∈ lowerCase character)
    (unmarked : isMark character = false) : isMark form = false := by
  have forms := lowerForm character
  generalize lowerCase character = characters at member forms
  cases forms with
  | ascii small =>
      rw [List.mem_singleton.mp member]
      exact forall_ascii (fun letter => isMark letter = false → isMark letter.toLower = false)
        (by decide) small unmarked
  | dotted capital =>
      rcases List.mem_cons.mp member with rfl | member
      · rfl
      · rw [List.mem_singleton.mp member]
        decide
  | listed range listed contained =>
      have gives := CaseRange.gives_form listed contained
      rw [← List.mem_singleton.mp member] at gives
      have large := gives.between.1
      rw [Bool.eq_false_iff]
      intro mark
      simp only [isMark, isQuote, Bool.or_eq_true, beq_iff_eq] at mark
      rcases mark with (rfl | rfl) | rfl <;> exact absurd large (by decide)
  | own => rwa [List.mem_singleton.mp member]

theorem blankRanges_apart : ∀ blanks ∈ blankRanges,
    (blanks.2 < 128 ∨ 128 ≤ blanks.1) ∧ (blanks.2 < 0x130 ∨ 0x130 < blanks.1) ∧
      ∀ range ∈ CaseRange.all, blanks.2 < range.first ∨ range.last < blanks.1 := by
  decide +kernel

theorem lowerCase_of_isBlank {character : Char} (blank : isBlank character = true) :
    lowerCase character = [character] := by
  rcases List.any_eq_true.mp blank with ⟨blanks, listed, within⟩
  simp only [Bool.and_eq_true, decide_eq_true_eq] at within
  rcases blankRanges_apart blanks listed with ⟨ascii, dotted, apart⟩
  by_cases small : character.toNat < 128
  · have kept : isBlank character = true → character.toLower = character :=
      forall_ascii (fun letter => isBlank letter = true → letter.toLower = letter) (by decide) small
    rw [lowerCase_of_ascii small, kept blank]
  · apply lowerCase_of_unlisted (by omega)
    · intro capital
      rw [capital] at within
      have code : '\u0130'.toNat = 0x130 := rfl
      omega
    · intro range member
      have disjoint := apart range member
      rw [Bool.eq_false_iff]
      intro contained
      rcases CaseRange.contains_iff.mp contained with ⟨first, last, -⟩
      omega

theorem isMark_of_isBlank {character : Char} (blank : isBlank character = true) :
    isMark character = false := by
  rw [Bool.eq_false_iff]
  intro mark
  simp only [isMark, isQuote, Bool.or_eq_true, beq_iff_eq] at mark
  rcases mark with (rfl | rfl) | rfl <;> exact absurd blank (by decide)

/-! ## Letters of ASCII -/

theorem toLower_of_not_ascii {character : Char} (large : 128 ≤ character.toNat) :
    character.toLower = character := by
  have above : ¬ (character.val ≥ 'A'.val ∧ character.val ≤ 'Z'.val) := by
    intro letter
    have most : character.toNat ≤ 'Z'.toNat := letter.2
    have bound : 'Z'.toNat < 128 := by decide
    omega
  exact dif_neg above

theorem lowerCase_of_toLower_eq {character other : Char}
    (same : character.toLower = other.toLower) : lowerCase character = lowerCase other := by
  have small {letter : Char} (ascii : letter.toNat < 128) : letter.toLower.toNat < 128 :=
    forall_ascii (fun letter => letter.toLower.toNat < 128) (by decide) ascii
  by_cases ascii : character.toNat < 128
  · by_cases otherAscii : other.toNat < 128
    · rw [lowerCase_of_ascii ascii, lowerCase_of_ascii otherAscii, same]
    · have form := small ascii
      rw [same, toLower_of_not_ascii (by omega)] at form
      omega
  · by_cases otherAscii : other.toNat < 128
    · have form := small otherAscii
      rw [← same, toLower_of_not_ascii (by omega)] at form
      omega
    · rw [toLower_of_not_ascii (by omega), toLower_of_not_ascii (by omega)] at same
      rw [same]

end TwoPass
