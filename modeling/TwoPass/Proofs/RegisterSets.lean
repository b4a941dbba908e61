import TwoPass.Compact.Instruction
import TwoPass.Proofs.NumeralGrammar
import TwoPass.Proofs.RegisterLists

/-! # Register lists as sets

A register list is accepted if each of its entries spells a low register, a range of them in
ascending order, or the one high register that is allowed. Then it is the set of the registers
that its entries spell, one bit for each, whatever their order and number. -/

namespace TwoPass.Compact.RegisterList

/-! ## Entries -/

/-- The spelling of a high register, by its number or by its alias. -/
inductive SpellsHigh (register : Register) (token : String) : Prop where
  | byNumber {digits : List Char} (high : register.bank = .high)
      (whole : token.toList = 'h' :: digits)
      (spelled : Numeral.Spelled 10 digits register.number.toNat)
  | byAlias (known : (token, register) ∈ Register.aliases)

inductive IsEntry (extra : Option Register) (entry : String) : Prop where
  | low {first last : Nat} (spelled : SpellsRange entry.toList first last)
      (ordered : first ≤ last) (known : last ≤ 7)
  | high {register : Register} (allowed : extra = some register)
      (spelled : SpellsHigh register entry)

theorem SpellsRange.unique {text : List Char} {first last otherFirst otherLast : Nat}
    (spelled : SpellsRange text first last) (other : SpellsRange text otherFirst otherLast) :
    first = otherFirst ∧ last = otherLast := by
  have read := range?_eq_some_iff.mpr spelled
  have otherRead := range?_eq_some_iff.mpr other
  cases read.symm.trans otherRead
  exact ⟨rfl, rfl⟩

theorem spellsHigh_of_ofName? {register : Register} {token : String}
    (high : register.isHigh = true) (named : Register.ofName? .sixteen token = some register) :
    SpellsHigh register token := by
  have bank : register.bank = .high := beq_iff_eq.mp high
  unfold Register.ofName? at named
  split at named
  · cases bank.symm.trans (Register.bank_of_ofDigits? named)
  · rename_i shape _
    have accepted := List.find?_some shape
    simp only [Shape.accepts] at accepted
    split at accepted
    · rename_i digits whole
      rw [Register.ofDigits?, whole, List.tail_cons] at named
      obtain ⟨number, read, found⟩ := Option.bind_eq_some_iff.mp named
      unfold Register.ofNumber? at found
      split at found
      · cases found
        exact .byNumber rfl whole (decimal_iff.mp read)
      · cases found
    · cases accepted
  · exact .byAlias (mem_of_lookup named)
  · cases named

theorem isRun_of_spelled {digits : List Char} {number : Nat}
    (spelled : Numeral.Spelled 10 digits number) : Shape.isRun Char.isDigit digits = true := by
  have read := decimal_iff.mpr spelled
  obtain ⟨nonempty, all⟩ := Numeral.digits_of_magnitude? read
  simp only [Shape.isRun, Bool.and_eq_true, List.all_eq_true]
  refine ⟨by simpa using nonempty, fun character member => ?_⟩
  obtain ⟨value, digit⟩ := all character member
  exact isDigit_of_digitValue? digit

theorem ofName?_of_spellsHigh {register : Register} {token : String}
    (spelled : SpellsHigh register token) :
    Register.ofName? .sixteen token = some register := by
  cases spelled with
  | @byNumber digits high whole spelled =>
      have shape : Shape.of? token = some .highRegister := by
        rw [Shape.of?, whole]
        simp [Shape.inOrder, Shape.accepts, Shape.dropMinus, isRun_of_spelled spelled]
      have number : Register.ofNumber? .high register.number.toNat = some register := by
        rw [Register.ofNumber?, dif_pos register.number.isLt, ← high]
        rfl
      simp only [Register.ofName?, shape]
      rw [Register.ofDigits?, whole, List.tail_cons, decimal_iff.mpr spelled]
      exact number
  | byAlias known =>
      have all : ∀ entry ∈ Register.aliases,
          Register.ofName? .sixteen entry.1 = some entry.2 := by decide
      exact all _ known

section

variable {extra : Option Register}
  (high : ∀ register, extra = some register → register.isHigh = true)

include high

theorem namesExtra_iff {entry : String} :
    NamesExtra extra entry ↔ ∃ register, extra = some register ∧ SpellsHigh register entry := by
  constructor
  · rintro ⟨register, named, allowed⟩
    exact ⟨register, allowed, spellsHigh_of_ofName? (high register allowed) named⟩
  · rintro ⟨register, allowed, spelled⟩
    exact ⟨register, ofName?_of_spellsHigh spelled, allowed⟩

theorem exists_insertEntry_iff (registers : RegisterList) (entry : String) :
    (∃ result, insertEntry extra registers entry = .ok result) ↔ IsEntry extra entry := by
  unfold insertEntry
  constructor
  · rintro ⟨result, added⟩
    split at added
    · rename_i first last read
      split at added
      · rename_i bounds
        exact .low (range?_eq_some_iff.mp read) bounds.1 (by omega)
      · cases added
    · obtain ⟨register, parsed, added⟩ := bind_eq_ok.mp added
      split at added
      · rename_i allowed
        have named := Register.ofName?_of_parse parsed
        exact .high allowed (spellsHigh_of_ofName? (high register allowed) named)
      · cases added
  · intro legal
    cases legal with
    | low spelled ordered known =>
        rw [range?_eq_some_iff.mpr spelled]
        dsimp only
        rw [if_pos ⟨ordered, by omega⟩]
        exact ⟨_, rfl⟩
    | @high register allowed spelled =>
        have named := ofName?_of_spellsHigh spelled
        have unread : range? entry.toList = none := by
          apply Option.eq_none_iff_forall_ne_some.mpr
          rintro ⟨first, last⟩ read
          exact head?_ne_of_isHigh named (high register allowed)
            (range?_eq_some_iff.mp read).head?
        have parsed : Register.parse .sixteen entry = .ok register := by
          rw [Register.parse, named]
        rw [unread]
        dsimp only
        rw [parsed, ok_bind, if_pos allowed]
        exact ⟨_, rfl⟩

theorem exists_foldlM_iff (registers : RegisterList) (entries : List String) :
    (∃ result, entries.foldlM (insertEntry extra) registers = .ok result) ↔
      ∀ entry ∈ entries, IsEntry extra entry := by
  induction entries generalizing registers with
  | nil => exact iff_of_true ⟨registers, rfl⟩ (List.forall_mem_nil _)
  | cons entry entries induction =>
      simp only [List.foldlM_cons, bind_eq_ok, List.forall_mem_cons]
      constructor
      · rintro ⟨result, next, here, later⟩
        exact ⟨(exists_insertEntry_iff high registers entry).mp ⟨next, here⟩,
          (induction next).mp ⟨result, later⟩⟩
      · rintro ⟨legal, others⟩
        obtain ⟨next, here⟩ := (exists_insertEntry_iff high registers entry).mpr legal
        obtain ⟨result, later⟩ := (induction next).mpr others
        exact ⟨result, next, here, later⟩

end

/-! ## Bits -/

/-- The bits that a list sets in an instruction: one for each low register, and the next one
for the high register. -/
def mask (registers : RegisterList) : Word :=
  (BitVec.ofBool registers.extra ++ registers.low).setWidth 16

theorem getLsbD_mask (registers : RegisterList) (number : Nat) :
    registers.mask.getLsbD number = true ↔
      number < 8 ∧ registers.low.getLsbD number = true ∨ number = 8 ∧ registers.extra = true := by
  rw [mask, BitVec.getLsbD_setWidth, BitVec.getLsbD_append]
  by_cases small : number < 8
  · have word : number < 16 := by omega
    have other : number ≠ 8 := by omega
    simp [small, word, other]
  · simp only [small, if_false, BitVec.getLsbD_ofBool, Bool.and_eq_true, decide_eq_true_eq]
    by_cases next : number = 8
    · simp [next]
    · have none : number - 8 ≠ 0 := by omega
      simp [next, none]

theorem append_eq_or (head : BitVec 7) (extra : BitVec 1) (low : BitVec 8) :
    (head ++ extra ++ low : BitVec 16) = (head ++ 0#1 ++ 0#8) ||| (extra ++ low).setWidth 16 ∧
      (head ++ 0#1 ++ 0#8 : BitVec 16) &&& (extra ++ low).setWidth 16 = 0 := by
  constructor <;>
  · apply BitVec.eq_of_getLsbD_eq
    intro number bound
    simp only [BitVec.getLsbD_or, BitVec.getLsbD_and, BitVec.getLsbD_append,
      BitVec.getLsbD_setWidth, BitVec.getLsbD_zero]
    grind

theorem word_stackList (access : Access) (registers : RegisterList) :
    (Instruction.stackList access registers.extra registers.low).word =
        (Instruction.stackList access false 0).word ||| registers.mask ∧
      (Instruction.stackList access false 0).word &&& registers.mask = 0 :=
  append_eq_or _ _ _

inductive Asks (extra : Option Register) (entry : String) : Nat → Prop where
  | low {first last number : Nat} (spelled : SpellsRange entry.toList first last)
      (inside : first ≤ number ∧ number ≤ last) (known : number < 8) : Asks extra entry number
  | high {register : Register} (allowed : extra = some register)
      (spelled : SpellsHigh register entry) : Asks extra entry 8

theorem asks_iff {extra : Option Register} {entry : String} {number : Nat} :
    Asks extra entry number ↔
      (number < 8 ∧ ∃ first last,
        SpellsRange entry.toList first last ∧ first ≤ number ∧ number ≤ last) ∨
      (number = 8 ∧ ∃ register, extra = some register ∧ SpellsHigh register entry) := by
  constructor
  · intro asks
    cases asks with
    | low spelled inside known => exact .inl ⟨known, _, _, spelled, inside⟩
    | high allowed spelled => exact .inr ⟨rfl, _, allowed, spelled⟩
  · rintro (⟨known, first, last, spelled, inside⟩ | ⟨rfl, register, allowed, spelled⟩)
    · exact .low spelled inside known
    · exact .high allowed spelled

section

variable {extra : Option Register} {tokens : List String}
  (high : ∀ register, extra = some register → register.isHigh = true)
include high

theorem exists_parse_iff :
    (∃ registers, parse extra tokens = .ok registers) ↔
      ∃ entries, enclosed? '\x7b' '\x7d' tokens = some entries ∧ entries ≠ [] ∧
        ∀ entry ∈ entries, IsEntry extra entry := by
  constructor
  · rintro ⟨registers, parsed⟩
    obtain ⟨entries, grouped, some, added⟩ := exists_of_parse parsed
    exact ⟨entries, grouped, some, (exists_foldlM_iff high empty entries).mp ⟨registers, added⟩⟩
  · rintro ⟨entries, grouped, some, legal⟩
    rw [parse_of_enclosed? grouped some]
    exact (exists_foldlM_iff high empty entries).mpr legal

theorem getLsbD_mask_of_parse {registers : RegisterList} {entries : List String}
    (grouped : enclosed? '\x7b' '\x7d' tokens = some entries)
    (parsed : parse extra tokens = .ok registers) (number : Nat) :
    registers.mask.getLsbD number = true ↔ ∃ entry ∈ entries, Asks extra entry number := by
  obtain ⟨others, otherGrouped, low, more⟩ := lists_of_parse high parsed
  cases grouped.symm.trans otherGrouped
  have apart {here : Prop} {spells : String → Prop} :
      (∃ entry ∈ entries, here ∧ spells entry) ↔ here ∧ ∃ entry ∈ entries, spells entry := by
    tauto
  simp only [getLsbD_mask, asks_iff, and_or_left, exists_or, apart]
  apply or_congr
  · apply and_congr_right
    intro small
    simp only [low number small, Covers]
  · simp only [more, namesExtra_iff high]

/-- A list is accepted just if there is something in it and all of it can stand there. Then
its bits are those that its entries ask for. -/
theorem map_mask_parse_eq_ok_iff {bits : Word} :
    mask <$> parse extra tokens = .ok bits ↔
      ∃ entries, enclosed? '\x7b' '\x7d' tokens = some entries ∧ entries ≠ [] ∧
        (∀ entry ∈ entries, IsEntry extra entry) ∧
        ∀ number, bits.getLsbD number = true ↔ ∃ entry ∈ entries, Asks extra entry number := by
  rw [map_eq_ok]
  constructor
  · rintro ⟨registers, parsed, rfl⟩
    obtain ⟨entries, grouped, some, legal⟩ := (exists_parse_iff high).mp ⟨registers, parsed⟩
    exact ⟨entries, grouped, some, legal, getLsbD_mask_of_parse high grouped parsed⟩
  · rintro ⟨entries, grouped, some, legal, asked⟩
    obtain ⟨registers, parsed⟩ := (exists_parse_iff high).mpr ⟨entries, grouped, some, legal⟩
    refine ⟨registers, parsed, ?_⟩
    apply BitVec.eq_of_getLsbD_eq
    intro number _
    rw [Bool.eq_iff_iff, getLsbD_mask_of_parse high grouped parsed, asked]

end

/-! ## Lists of the same registers -/

/-- Entries in another order or number, or with a range spread into its members. -/
inductive Rearranged : List String → List String → Prop where
  | shuffled {entries others : List String} (same : ∀ entry, entry ∈ entries ↔ entry ∈ others) :
      Rearranged entries others
  | spread {before after members : List String} {range : String} {first last : Nat}
      (spelled : SpellsRange range.toList first last) (ordered : first ≤ last)
      (single : ∀ member ∈ members, ∃ number, SpellsRange member.toList number number)
      (all : ∀ number, first ≤ number ∧ number ≤ last ↔
        ∃ member ∈ members, SpellsRange member.toList number number) :
      Rearranged (before ++ range :: after) (before ++ (members ++ after))

section

variable {extra : Option Register}
  (high : ∀ register, extra = some register → register.isHigh = true)
include high

theorem not_spellsHigh_of_spellsRange {entry : String} {first last : Nat} {register : Register}
    (spelled : SpellsRange entry.toList first last) (allowed : extra = some register) :
    ¬SpellsHigh register entry :=
  fun spelledHigh => not_namesExtra_of_spellsRange high spelled
    ((namesExtra_iff high).mpr ⟨register, allowed, spelledHigh⟩)

theorem isEntry_iff_of_spellsRange {entry : String} {first last : Nat}
    (spelled : SpellsRange entry.toList first last) :
    IsEntry extra entry ↔ first ≤ last ∧ last ≤ 7 := by
  constructor
  · intro legal
    cases legal with
    | low other ordered known =>
        obtain ⟨sameFirst, sameLast⟩ := spelled.unique other
        omega
    | high allowed other => exact absurd other (not_spellsHigh_of_spellsRange high spelled allowed)
  · rintro ⟨ordered, known⟩
    exact .low spelled ordered known

theorem asks_iff_of_spellsRange {entry : String} {first last number : Nat}
    (spelled : SpellsRange entry.toList first last) :
    Asks extra entry number ↔ number < 8 ∧ first ≤ number ∧ number ≤ last := by
  constructor
  · intro asks
    cases asks with
    | low other inside known =>
        obtain ⟨sameFirst, sameLast⟩ := spelled.unique other
        omega
    | high allowed other => exact absurd other (not_spellsHigh_of_spellsRange high spelled allowed)
  · rintro ⟨known, inside⟩
    exact .low spelled inside known

theorem Rearranged.same {entries others : List String} (rearranged : Rearranged entries others) :
    (entries = [] ↔ others = []) ∧
      ((∀ entry ∈ entries, IsEntry extra entry) ↔ ∀ entry ∈ others, IsEntry extra entry) ∧
      ∀ number, (∃ entry ∈ entries, Asks extra entry number) ↔
        ∃ entry ∈ others, Asks extra entry number := by
  cases rearranged with
  | shuffled same =>
      simp only [List.eq_nil_iff_forall_not_mem, same, implies_true, and_self]
  | @spread before after members range first last spelled ordered single all =>
      have legal : IsEntry extra range ↔ ∀ member ∈ members, IsEntry extra member := by
        rw [isEntry_iff_of_spellsRange high spelled]
        constructor
        · intro bounds member known
          obtain ⟨number, spelled⟩ := single member known
          have inside := (all number).mpr ⟨member, known, spelled⟩
          exact (isEntry_iff_of_spellsRange high spelled).mpr (by omega)
        · intro legal
          obtain ⟨member, known, spelled⟩ := (all last).mp ⟨ordered, le_refl last⟩
          exact ⟨ordered, ((isEntry_iff_of_spellsRange high spelled).mp (legal member known)).2⟩
      have asks (number : Nat) :
          Asks extra range number ↔ ∃ member ∈ members, Asks extra member number := by
        rw [asks_iff_of_spellsRange high spelled, all]
        constructor
        · rintro ⟨small, member, known, spelled⟩
          exact ⟨member, known, .low spelled ⟨le_refl number, le_refl number⟩ small⟩
        · rintro ⟨member, known, asks⟩
          obtain ⟨other, spelled⟩ := single member known
          have inside := (asks_iff_of_spellsRange high spelled).mp asks
          have same : other = number := by omega
          exact ⟨inside.1, member, known, same ▸ spelled⟩
      obtain ⟨member, known, _⟩ := (all last).mp ⟨ordered, le_refl last⟩
      have some : members ≠ [] := List.ne_nil_of_mem known
      refine ⟨by simp [some], ?_, ?_⟩
      · simp only [List.forall_mem_append, List.forall_mem_cons, legal]
      · intro number
        simp only [List.mem_append, List.mem_cons, or_and_right, exists_or, exists_eq_left, asks]

end

/-- A register list is a set. It is accepted just if its entries spell low registers, ranges of
them and the one high register that is allowed; each bit is set for the registers that some
entry spells, and the bits do not meet those of the operation. So the result stays if entries
change places, are repeated, or stand for the range that they make up. -/
theorem register_lists_denote_sets (extra : Option Register)
    (high : ∀ register, extra = some register → register.isHigh = true) (tokens : List String) :
    (∀ bits, mask <$> parse extra tokens = .ok bits ↔
      ∃ entries, enclosed? '\x7b' '\x7d' tokens = some entries ∧ entries ≠ [] ∧
        (∀ entry ∈ entries, IsEntry extra entry) ∧
        ∀ number, bits.getLsbD number = true ↔ ∃ entry ∈ entries, Asks extra entry number) ∧
    (∀ access (registers : RegisterList),
      (Instruction.stackList access registers.extra registers.low).word =
          (Instruction.stackList access false 0).word ||| registers.mask ∧
        (Instruction.stackList access false 0).word &&& registers.mask = 0) ∧
    ∀ others entries otherEntries, enclosed? '\x7b' '\x7d' tokens = some entries →
      enclosed? '\x7b' '\x7d' others = some otherEntries → Rearranged entries otherEntries →
      ∀ bits, mask <$> parse extra tokens = .ok bits ↔ mask <$> parse extra others = .ok bits := by
  refine ⟨fun bits => map_mask_parse_eq_ok_iff high, word_stackList, ?_⟩
  intro others entries otherEntries grouped otherGrouped rearranged bits
  obtain ⟨empty, legal, asks⟩ := rearranged.same high
  simp only [map_mask_parse_eq_ok_iff high, grouped, otherGrouped, Option.some.injEq,
    exists_eq_left', ne_eq, empty, legal, asks]

/-- A range and its members, one of them with a leading zero, beside the program counter. -/
theorem register_lists_of_range_and_members :
    (∀ register, some Register.pc = some register → register.isHigh = true) ∧
    Rearranged ["r1-r2", "pc"] ["r01", "r2", "pc"] ∧
    mask <$> parse (some .pc) ["\x7br1-r2", "pc\x7d"] = .ok 0x106 ∧
    mask <$> parse (some .pc) ["\x7br01", "r2", "pc\x7d"] = .ok 0x106 := by
  have high : ∀ register, some Register.pc = some register → register.isHigh = true := by
    intro register same
    cases same
    rfl
  have range : SpellsRange "r1-r2".toList 1 2 := range?_eq_some_iff.mp rfl
  have one : SpellsRange "r01".toList 1 1 := range?_eq_some_iff.mp rfl
  have two : SpellsRange "r2".toList 2 2 := range?_eq_some_iff.mp rfl
  have rearranged : Rearranged ["r1-r2", "pc"] ["r01", "r2", "pc"] := by
    refine @Rearranged.spread [] ["pc"] ["r01", "r2"] "r1-r2" 1 2 range (by decide) ?_ ?_
    · simp only [List.forall_mem_cons]
      exact ⟨⟨1, one⟩, ⟨2, two⟩, List.forall_mem_nil _⟩
    · intro number
      simp only [List.exists_mem_cons_iff, List.not_mem_nil, false_and, exists_false, or_false]
      constructor
      · rintro ⟨low, high⟩
        interval_cases number
        · exact .inl one
        · exact .inr two
      · rintro (spelled | spelled)
        · have same := one.unique spelled
          omega
        · have same := two.unique spelled
          omega
  have read : mask <$> parse (some .pc) ["\x7br1-r2", "pc\x7d"] = .ok 0x106 := rfl
  have sets := register_lists_denote_sets (some .pc) high ["\x7br1-r2", "pc\x7d"]
  exact ⟨high, rearranged, read, (sets.2.2 _ _ _ rfl rfl rearranged _).mp read⟩

end TwoPass.Compact.RegisterList
