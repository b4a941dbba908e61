import TwoPass.Compact.RegisterList
import TwoPass.Proofs.NumeralGrammar
import TwoPass.Proofs.Operands

/-! # What register lists say

A register list stands for a set of low registers, and tells whether the one high
register that it may name is in it. Reading it entry by entry collects just that. -/

namespace TwoPass.Compact.RegisterList

/-! ## Entries -/

/-- The spelling of the low registers from `first` to `last`: `rA` or `rA-rB`. -/
inductive SpellsRange : List Char → Nat → Nat → Prop where
  | register {digits : List Char} {number : Nat} (spelled : Numeral.Spelled 10 digits number) :
      SpellsRange ('r' :: digits) number number
  | range {low high : List Char} {first last : Nat} (lowSpelled : Numeral.Spelled 10 low first)
      (highSpelled : Numeral.Spelled 10 high last) :
      SpellsRange ('r' :: (low ++ '-' :: 'r' :: high)) first last

theorem SpellsRange.head? {text : List Char} {first last : Nat}
    (spelled : SpellsRange text first last) : text.head? = some 'r' := by
  cases spelled <;> rfl

theorem decimal_iff {digits : List Char} {number : Nat} :
    Numeral.magnitude? 10 digits = some number ↔ Numeral.Spelled 10 digits number :=
  Numeral.magnitude?_eq_some_iff (by decide)

theorem isDigit_of_digitValue? {character : Char} {value : Nat}
    (read : Numeral.digitValue? 10 character = some value) : character.isDigit = true := by
  by_contra letter
  unfold Numeral.digitValue? at read
  rcases Option.filter_eq_some_iff.mp read with ⟨found, small⟩
  have small : value < 10 := of_decide_eq_true small
  rw [if_neg letter] at found
  split at found
  · cases found
    omega
  · split at found <;> cases found
    omega

theorem takeWhile_isDigit {digits rest : List Char} {number : Nat}
    (spelled : Numeral.Spelled 10 digits number) (ends : rest.head?.all (!·.isDigit) = true) :
    (digits ++ rest).takeWhile Char.isDigit = digits ∧
      (digits ++ rest).dropWhile Char.isDigit = rest := by
  have all : ∀ character ∈ digits, character.isDigit = true := by
    intro character member
    have read := decimal_iff.mpr spelled
    rcases (Numeral.digits_of_magnitude? read).2 character member with ⟨value, read⟩
    exact isDigit_of_digitValue? read
  rw [List.takeWhile_append_of_pos all, List.dropWhile_append_of_pos all]
  cases rest with
  | nil => simp
  | cons next rest =>
      have stop : next.isDigit = false := by simpa using ends
      simp [stop]

theorem range?_eq_some_iff {entry : List Char} {first last : Nat} :
    range? entry = some (first, last) ↔ SpellsRange entry first last := by
  constructor
  · intro read
    unfold range? at read
    split at read
    · rename_i rest
      have whole : rest.takeWhile Char.isDigit ++ rest.dropWhile Char.isDigit = rest :=
        List.takeWhile_append_dropWhile
      rw [← whole]
      split at read
      · rename_i nothing
        rcases Option.map_eq_some_iff.mp read with ⟨number, spelled, same⟩
        cases same
        rw [nothing, List.append_nil]
        exact .register (decimal_iff.mp spelled)
      · rename_i high more
        rcases Option.bind_eq_some_iff.mp read with ⟨low, lowSpelled, read⟩
        rcases Option.bind_eq_some_iff.mp read with ⟨number, highSpelled, same⟩
        cases same
        rw [more]
        exact .range (decimal_iff.mp lowSpelled) (decimal_iff.mp highSpelled)
      · cases read
    · cases read
  · intro spelled
    cases spelled with
    | @register digits number spelled =>
        rcases @takeWhile_isDigit digits [] _ spelled rfl with ⟨taken, dropped⟩
        rw [List.append_nil] at taken dropped
        simp [range?, taken, dropped, decimal_iff.mpr spelled]
    | @range low high first last lowSpelled highSpelled =>
        rcases @takeWhile_isDigit low ('-' :: 'r' :: high) first lowSpelled rfl with
          ⟨taken, dropped⟩
        simp [range?, taken, dropped, decimal_iff.mpr lowSpelled, decimal_iff.mpr highSpelled]

/-- An entry names a low register or spans it. -/
def Covers (entry : String) (number : Nat) : Prop :=
  ∃ first last, SpellsRange entry.toList first last ∧ first ≤ number ∧ number ≤ last

def NamesExtra (extra : Option Register) (entry : String) : Prop :=
  ∃ register, Register.ofName? .sixteen entry = some register ∧ extra = some register

theorem head?_ne_of_isHigh {token : String} {register : Register}
    (named : Register.ofName? .sixteen token = some register) (high : register.isHigh = true) :
    token.toList.head? ≠ some 'r' := by
  unfold Register.ofName? at named
  split at named
  · have low := Register.bank_of_ofDigits? named
    rw [Register.isHigh, low] at high
    cases high
  · rename_i shape _
    have accepted := List.find?_some shape
    simp only [Shape.accepts] at accepted
    split at accepted
    · rename_i text
      rw [text]
      simp
    · cases accepted
  · have known : ∀ entry ∈ Register.aliases, entry.1.toList.head? ≠ some 'r' := by decide
    exact known _ (mem_of_lookup named)
  · cases named

theorem not_namesExtra_of_spellsRange {extra : Option Register} {entry : String} {first last : Nat}
    (high : ∀ register, extra = some register → register.isHigh = true)
    (spelled : SpellsRange entry.toList first last) : ¬NamesExtra extra entry := by
  rintro ⟨register, named, allowed⟩
  exact head?_ne_of_isHigh named (high register allowed) spelled.head?

/-! ## Lists -/

theorem getLsbD_one_shiftLeft {added number : Nat} (small : number < 8) :
    (1#8 <<< added).getLsbD number = true ↔ number = added := by
  rw [BitVec.getLsbD_shiftLeft, BitVec.getLsbD_one]
  grind

theorem getLsbD_foldl_or {number : Nat} (small : number < 8) (numbers : List Nat)
    (low : BitVec 8) :
    (numbers.foldl (fun low number => low ||| (1#8 <<< number)) low).getLsbD number = true ↔
      low.getLsbD number = true ∨ number ∈ numbers := by
  induction numbers generalizing low with
  | nil => simp
  | cons added numbers induction =>
      rw [List.foldl_cons, induction, List.mem_cons, ← or_assoc, BitVec.getLsbD_or,
        Bool.or_eq_true, getLsbD_one_shiftLeft small]

theorem getLsbD_insertRange {registers : RegisterList} {first last number : Nat}
    (small : number < 8) :
    (registers.insertRange first last).low.getLsbD number = true ↔
      registers.low.getLsbD number = true ∨ first ≤ number ∧ number ≤ last := by
  have within : first ≤ number ∧ number < first + (last + 1 - first) ↔
      first ≤ number ∧ number ≤ last := by omega
  rw [insertRange, getLsbD_foldl_or small, List.mem_range'_1, within]

theorem of_insertEntry {extra : Option Register} {registers result : RegisterList}
    {entry : String} (high : ∀ register, extra = some register → register.isHigh = true)
    (added : insertEntry extra registers entry = .ok result) :
    (∀ number < 8, result.low.getLsbD number = true ↔
      registers.low.getLsbD number = true ∨ Covers entry number) ∧
    (result.extra = true ↔ registers.extra = true ∨ NamesExtra extra entry) := by
  unfold insertEntry at added
  split at added
  · rename_i first last read
    have spans := range?_eq_some_iff.mp read
    split at added
    · cases added
      constructor
      · intro number small
        rw [getLsbD_insertRange small]
        have covered : Covers entry number ↔ first ≤ number ∧ number ≤ last := by
          constructor
          · rintro ⟨other, otherLast, otherSpelled, inside⟩
            cases (range?_eq_some_iff.mpr otherSpelled).symm.trans read
            exact inside
          · exact fun inside => ⟨first, last, spans, inside⟩
        rw [covered]
      · simp [insertRange, not_namesExtra_of_spellsRange high spans]
    · cases added
  · rename_i unread
    rcases bind_eq_ok.mp added with ⟨register, parsed, added⟩
    have named := Register.ofName?_of_parse parsed
    split at added
    · rename_i allowed
      cases added
      constructor
      · intro number _
        have uncovered : ¬Covers entry number := by
          rintro ⟨first, last, spans, -⟩
          cases unread.symm.trans (range?_eq_some_iff.mpr spans)
        simp [uncovered]
      · have names : NamesExtra extra entry := ⟨register, named, allowed⟩
        simp [names]
    · cases added

/-- A list has the registers that its entries name or span. -/
def Holds (extra : Option Register) (entries : List String) (registers : RegisterList) : Prop :=
  (∀ number < 8, registers.low.getLsbD number = true ↔ ∃ entry ∈ entries, Covers entry number) ∧
    (registers.extra = true ↔ ∃ entry ∈ entries, NamesExtra extra entry)

theorem of_foldlM {extra : Option Register} {entries : List String}
    {registers result : RegisterList}
    (high : ∀ register, extra = some register → register.isHigh = true)
    (added : entries.foldlM (insertEntry extra) registers = .ok result) :
    (∀ number < 8, result.low.getLsbD number = true ↔
      registers.low.getLsbD number = true ∨ ∃ entry ∈ entries, Covers entry number) ∧
    (result.extra = true ↔ registers.extra = true ∨ ∃ entry ∈ entries, NamesExtra extra entry) := by
  induction entries generalizing registers with
  | nil =>
      cases added
      simp
  | cons entry entries induction =>
      rw [List.foldlM_cons] at added
      rcases bind_eq_ok.mp added with ⟨next, here, later⟩
      have step := of_insertEntry high here
      have rest := induction later
      constructor
      · intro number small
        rw [rest.1 number small, step.1 number small]
        simp [or_assoc]
      · rw [rest.2, step.2]
        simp [or_assoc]

def Lists (extra : Option Register) (tokens : List String) (registers : RegisterList) : Prop :=
  ∃ entries, enclosed? '\x7b' '\x7d' tokens = some entries ∧ Holds extra entries registers

theorem parse_of_enclosed? {tokens entries : List String}
    (grouped : enclosed? '\x7b' '\x7d' tokens = some entries) (some : entries ≠ [])
    (extra : Option Register) :
    parse extra tokens = entries.foldlM (insertEntry extra) empty := by
  rw [parse, grouped]
  cases entries with
  | nil => exact absurd rfl some
  | cons entry entries => rfl

theorem exists_of_parse {extra : Option Register} {tokens : List String}
    {registers : RegisterList} (parsed : parse extra tokens = .ok registers) :
    ∃ entries, enclosed? '\x7b' '\x7d' tokens = some entries ∧ entries ≠ [] ∧
      entries.foldlM (insertEntry extra) empty = .ok registers := by
  unfold parse at parsed
  split at parsed
  · cases parsed
  · cases parsed
  · rename_i entries some grouped
    exact ⟨entries, grouped, some, parsed⟩

theorem lists_of_parse {extra : Option Register} {tokens : List String}
    {registers : RegisterList}
    (high : ∀ register, extra = some register → register.isHigh = true)
    (parsed : parse extra tokens = .ok registers) : Lists extra tokens registers := by
  obtain ⟨entries, grouped, -, added⟩ := exists_of_parse parsed
  refine ⟨entries, grouped, ?_⟩
  have read := of_foldlM high added
  simpa [Holds, empty] using read

theorem Lists.unique {extra : Option Register} {tokens : List String}
    {registers other : RegisterList} (first : Lists extra tokens registers)
    (second : Lists extra tokens other) : registers = other := by
  rcases first with ⟨entries, grouped, low, more⟩
  rcases second with ⟨others, otherGrouped, otherLow, otherMore⟩
  cases grouped.symm.trans otherGrouped
  cases registers with
  | mk bits flag =>
      cases other with
      | mk otherBits otherFlag =>
          have sameBits : bits = otherBits := by
            apply BitVec.eq_of_getLsbD_eq
            intro number small
            exact Bool.eq_iff_iff.mpr ((low number small).trans (otherLow number small).symm)
          have sameFlag : flag = otherFlag := Bool.eq_iff_iff.mpr (more.trans otherMore.symm)
          rw [sameBits, sameFlag]

end TwoPass.Compact.RegisterList
