import Mathlib.Data.List.Forall2
import TwoPass.Compact.Mnemonic
import TwoPass.Proofs.RegisterLists

/-! # Spellings of registers

A register may have several spellings. Respelling it in an operand, perhaps within
brackets, is not noticed by anything that reads a single token: it is the same register,
or no register, before and after. Nor is it noticed where a group is taken out of its
brackets, or a register list is read. -/

namespace TwoPass.Compact

/-- The punctuation that an operand can carry around a register. -/
def brackets : List Char :=
  ['[', ']', '\x7b', '\x7d', '!']

def isBracket (character : Char) : Bool :=
  brackets.contains character

def SameRegister (name other : String) : Prop :=
  ∃ register, Register.ofName? .sixteen name = some register ∧
    Register.ofName? .sixteen other = some register

/-- An operand, and the same with a register in it spelled in another way. -/
inductive Respelled : List Char → List Char → Prop where
  | same (text : List Char) : Respelled text text
  | register {before after : List Char} {name other : String}
      (opens : before.all isBracket = true) (closes : after.all isBracket = true)
      (alike : SameRegister name other) :
      Respelled (before ++ name.toList ++ after) (before ++ other.toList ++ after)

theorem Respelled.symm {text other : List Char} (respelled : Respelled text other) :
    Respelled other text := by
  cases respelled with
  | same => exact .same _
  | register opens closes alike =>
      obtain ⟨register, named, otherNamed⟩ := alike
      exact .register opens closes ⟨register, otherNamed, named⟩

/-! ## Text without brackets -/

def Bare (text : List Char) : Prop :=
  ∀ character ∈ text, isBracket character = false

theorem not_isBracket_of_kind {kind : Char → Bool} (excludes : brackets.all (!kind ·) = true)
    {character : Char} (holds : kind character = true) : isBracket character = false := by
  apply Bool.eq_false_iff.mpr
  intro bracket
  have excluded := List.all_eq_true.mp excludes character (List.contains_iff_mem.mp bracket)
  rw [holds] at excluded
  cases excluded

namespace Bare

theorem of_all {kind : Char → Bool} {text : List Char} (excludes : brackets.all (!kind ·) = true)
    (all : text.all kind = true) : Bare text :=
  fun character member => not_isBracket_of_kind excludes (List.all_eq_true.mp all character member)

theorem cons {first : Char} {rest : List Char} (here : isBracket first = false)
    (later : Bare rest) : Bare (first :: rest) := by
  intro character member
  rcases List.mem_cons.mp member with rfl | member
  · exact here
  · exact later character member

theorem of_isRun {kind : Char → Bool} {text : List Char}
    (excludes : brackets.all (!kind ·) = true) (run : Shape.isRun kind text = true) :
    Bare text := by
  simp only [Shape.isRun, Bool.and_eq_true] at run
  exact of_all excludes run.2

theorem of_dropMinus {text : List Char} (bare : Bare (Shape.dropMinus text)) : Bare text := by
  unfold Shape.dropMinus at bare
  split at bare
  · exact cons rfl bare
  · exact bare

theorem of_accepts {shape : Shape} {text : List Char} (accepted : shape.accepts text = true) :
    Bare text := by
  cases shape with
  | marked =>
      simp only [Shape.accepts] at accepted
      split at accepted
      · exact cons rfl (of_all rfl accepted)
      · cases accepted
  | digits =>
      simp only [Shape.accepts] at accepted
      apply of_dropMinus
      split at accepted
      · rename_i text first rest whole
        rw [whole]
        rw [Bool.and_eq_true] at accepted
        exact cons (not_isBracket_of_kind rfl accepted.1) (of_all rfl accepted.2)
      · cases accepted
  | lettered =>
      simp only [Shape.accepts] at accepted
      apply of_dropMinus
      split at accepted
      · rename_i text rest whole
        rw [whole]
        exact cons rfl (of_dropMinus (of_isRun rfl accepted))
      · rename_i text rest whole
        rw [whole]
        exact cons rfl (of_dropMinus (of_isRun rfl accepted))
      · cases accepted
  | lowRegister =>
      simp only [Shape.accepts] at accepted
      split at accepted
      · exact cons rfl (of_isRun rfl accepted)
      · cases accepted
  | highRegister =>
      simp only [Shape.accepts] at accepted
      split at accepted
      · exact cons rfl (of_isRun rfl accepted)
      · cases accepted
  | name =>
      simp only [Shape.accepts] at accepted
      split at accepted
      · rw [Bool.and_eq_true] at accepted
        exact cons (not_isBracket_of_kind rfl accepted.1) (of_all rfl accepted.2)
      · cases accepted

theorem of_shape {token : String} {shape : Shape} (shaped : Shape.of? token = some shape) :
    Bare token.toList := by
  unfold Shape.of? at shaped
  have accepted := List.find?_some shaped
  exact of_accepts accepted

theorem of_magnitude? {radix number : Nat} {digits : List Char}
    (read : Numeral.magnitude? radix digits = some number) : Bare digits := by
  intro character member
  rcases (Numeral.digits_of_magnitude? read).2 character member with ⟨value, found⟩
  let kind (character : Char) : Bool := (Numeral.digitValue? radix character).isSome
  have digit : kind character = true := Option.isSome_of_eq_some found
  exact not_isBracket_of_kind rfl digit

theorem of_takeMinus {text : List Char} (bare : Bare (Numeral.takeMinus text).2) : Bare text := by
  unfold Numeral.takeMinus at bare
  split at bare
  · exact cons rfl bare
  · exact bare

theorem of_takeRadix {text : List Char} (bare : Bare (Numeral.takeRadix text).2) : Bare text := by
  unfold Numeral.takeRadix at bare
  split at bare
  · exact cons rfl (cons rfl bare)
  · exact cons rfl (cons rfl bare)
  · exact cons rfl bare
  · exact cons rfl bare
  · exact bare

theorem of_spelled {text : List Char} {number : Nat}
    (spelled : Numeral.magnitude? (Numeral.takeRadix (Numeral.takeMinus text).2).1
      (Numeral.takeMinus (Numeral.takeRadix (Numeral.takeMinus text).2).2).2 = some number) :
    Bare text :=
  of_takeMinus (of_takeRadix (of_takeMinus (of_magnitude? spelled)))

theorem of_parse {token : String} {value : Int} (read : Numeral.parse token = .ok value) :
    Bare token.toList := by
  unfold Numeral.parse at read
  dsimp only at read
  split at read
  · rename_i marked
    rw [marked]
    apply cons rfl
    split at read
    · cases read
    · split at read
      · cases read
      · rename_i spelled
        exact of_spelled spelled
  · split at read
    · cases read
    · split at read
      · cases read
      · rename_i spelled
        exact of_spelled spelled

end Bare

/-! ## Names of registers -/

section

variable {name : String} {register : Register}
  (named : Register.ofName? .sixteen name = some register)
include named

theorem shape_of_named :
    Shape.of? name = some .lowRegister ∨ Shape.of? name = some .highRegister ∨
      Shape.of? name = some .name ∧ Register.aliases.lookup name = some register := by
  unfold Register.ofName? at named
  split at named
  · rename_i shape
    exact .inl shape
  · rename_i shape _
    exact .inr (.inl shape)
  · rename_i shape _
    exact .inr (.inr ⟨shape, named⟩)
  · cases named

theorem bare_of_named : Bare name.toList := by
  rcases shape_of_named named with low | high | ⟨other, -⟩
  · exact Bare.of_shape low
  · exact Bare.of_shape high
  · exact Bare.of_shape other

theorem ne_nil_of_named : name.toList ≠ [] := by
  intro empty
  rcases shape_of_named named with shape | shape | ⟨shape, -⟩ <;>
    (rw [Shape.of?, empty] at shape; exact absurd shape (by decide))

theorem eitherBank_of_named : eitherBank name = .ok register := by
  rw [eitherBank, Register.parse, named]

theorem namesRegister_of_named : namesRegister name = true := by
  unfold namesRegister
  rcases shape_of_named named with low | high | ⟨shape, known⟩
  · rw [low]
  · rw [high]
  · rw [shape, known]
    rfl

theorem readsAsNumber_of_named : readsAsNumber name = false := by
  unfold readsAsNumber
  rcases shape_of_named named with low | high | ⟨shape, -⟩
  · rw [low]
    rfl
  · rw [high]
    rfl
  · rw [shape]
    rfl

end

/-! ## Single tokens -/

/-- Reading either of two single tokens tells the same, the texts of problems aside. -/
structure Interchangeable (token other : String) : Prop where
  register : Alike Eq (eitherBank token) (eitherBank other)
  names : namesRegister token = namesRegister other
  number : Alike Eq (Numeral.parse token) (Numeral.parse other)
  reads : readsAsNumber token = readsAsNumber other
  label : readsAsNumber token = false → token = other ∨ SameRegister token other

theorem Respelled.cases {token other : String} (respelled : Respelled token.toList other.toList) :
    token = other ∨ SameRegister token other ∨ ¬ Bare token.toList ∧ ¬ Bare other.toList := by
  generalize whole : token.toList = text at respelled
  generalize otherWhole : other.toList = otherText at respelled
  cases respelled with
  | same => exact .inl (String.toList_inj.mp (whole.trans otherWhole.symm))
  | @register before after name another opens closes alike =>
      right
      by_cases bare : before ++ after = []
      · rcases List.append_eq_nil_iff.mp bare with ⟨rfl, rfl⟩
        rw [List.nil_append, List.append_nil] at whole otherWhole
        rw [String.toList_inj.mp whole, String.toList_inj.mp otherWhole]
        exact .inl alike
      · right
        rcases List.exists_mem_of_ne_nil _ bare with ⟨character, member⟩
        have bracket : isBracket character = true := by
          rcases List.mem_append.mp member with front | back
          · exact List.all_eq_true.mp opens character front
          · exact List.all_eq_true.mp closes character back
        have found (middle : List Char) : ¬ Bare (before ++ middle ++ after) := by
          intro bare
          have present : character ∈ before ++ middle ++ after := by
            rcases List.mem_append.mp member with front | back
            · exact List.mem_append_left after (List.mem_append_left middle front)
            · exact List.mem_append_right _ back
          cases bracket.symm.trans (bare character present)
        exact ⟨found _, found _⟩

section

variable {token : String} (bracketed : ¬ Bare token.toList)
include bracketed

theorem exists_error_of_not_bare : ∃ problem, Numeral.parse token = .error problem := by
  cases read : Numeral.parse token with
  | ok value => exact absurd (Bare.of_parse read) bracketed
  | error problem => exact ⟨problem, rfl⟩

theorem shape_of_not_bare : Shape.of? token = none := by
  apply Option.eq_none_iff_forall_ne_some.mpr
  intro shape shaped
  exact bracketed (Bare.of_shape shaped)

theorem eitherBank_of_not_bare : eitherBank token = .error (.malformedRegister token) := by
  simp only [eitherBank, Register.parse, Register.ofName?, shape_of_not_bare bracketed]

theorem namesRegister_of_not_bare : namesRegister token = false := by
  rw [namesRegister, shape_of_not_bare bracketed]

theorem readsAsNumber_of_not_bare : readsAsNumber token = true := by
  rw [readsAsNumber, shape_of_not_bare bracketed]

end

theorem Respelled.interchangeable {token other : String}
    (respelled : Respelled token.toList other.toList) : Interchangeable token other := by
  rcases respelled.cases with rfl | same | ⟨bracketed, otherBracketed⟩
  · exact ⟨.refl _, rfl, .refl _, rfl, fun _ => .inl rfl⟩
  · obtain ⟨register, named, otherNamed⟩ := id same
    refine ⟨?_, ?_, ?_, ?_, fun _ => .inr same⟩
    · rw [eitherBank_of_named named, eitherBank_of_named otherNamed]
      exact .ok rfl
    · rw [namesRegister_of_named named, namesRegister_of_named otherNamed]
    · rw [Register.parse_of_ofName? named, Register.parse_of_ofName? otherNamed]
      exact .error _ _
    · rw [readsAsNumber_of_named named, readsAsNumber_of_named otherNamed]
  · obtain ⟨problem, failed⟩ := exists_error_of_not_bare bracketed
    obtain ⟨otherProblem, otherFailed⟩ := exists_error_of_not_bare otherBracketed
    have number := readsAsNumber_of_not_bare bracketed
    refine ⟨?_, ?_, ?_, ?_, fun label => absurd (number.symm.trans label) (by decide)⟩
    · rw [eitherBank_of_not_bare bracketed, eitherBank_of_not_bare otherBracketed]
      exact .error _ _
    · rw [namesRegister_of_not_bare bracketed, namesRegister_of_not_bare otherBracketed]
    · rw [failed, otherFailed]
      exact .error _ _
    · rw [number, readsAsNumber_of_not_bare otherBracketed]

/-! ## Marks around a register -/

section

variable {name : String} {register : Register} {mark : Char}
  (named : Register.ofName? .sixteen name = some register) (bracket : isBracket mark = true)
include named bracket

theorem not_mem_of_named : mark ∉ name.toList := by
  intro member
  cases bracket.symm.trans (bare_of_named named mark member)

theorem head?_append_ne_of_named (after : List Char) :
    (name.toList ++ after).head? ≠ some mark := by
  rw [List.head?_append_of_ne_nil _ (ne_nil_of_named named)]
  exact fun first => not_mem_of_named named bracket (List.mem_of_head? first)

theorem getLast?_append_ne_of_named (before : List Char) :
    (before ++ name.toList).getLast? ≠ some mark := by
  rw [List.getLast?_append_of_ne_nil _ (ne_nil_of_named named)]
  exact fun last => not_mem_of_named named bracket (List.mem_of_getLast? last)

end

namespace Respelled

variable {text other : List Char} {mark : Char}

theorem eq_nil_iff (respelled : Respelled text other) : text = [] ↔ other = [] := by
  cases respelled with
  | same => rfl
  | register _ _ alike =>
      obtain ⟨register, named, otherNamed⟩ := alike
      simp [ne_nil_of_named named, ne_nil_of_named otherNamed]

theorem mem_iff (bracket : isBracket mark = true) (respelled : Respelled text other) :
    mark ∈ text ↔ mark ∈ other := by
  cases respelled with
  | same => rfl
  | register _ _ alike =>
      obtain ⟨register, named, otherNamed⟩ := alike
      simp [not_mem_of_named named bracket, not_mem_of_named otherNamed bracket]

theorem head?_iff (bracket : isBracket mark = true) (respelled : Respelled text other) :
    text.head? = some mark ↔ other.head? = some mark := by
  cases respelled with
  | same => rfl
  | @register before after _ _ _ _ alike =>
      obtain ⟨register, named, otherNamed⟩ := alike
      cases before with
      | nil =>
          exact iff_of_false (head?_append_ne_of_named named bracket after)
            (head?_append_ne_of_named otherNamed bracket after)
      | cons first before => rfl

theorem tail (bracket : isBracket mark = true) (respelled : Respelled text other)
    (opened : text.head? = some mark) : Respelled text.tail other.tail := by
  cases respelled with
  | same => exact .same _
  | @register before after _ _ opens closes alike =>
      cases before with
      | nil =>
          obtain ⟨register, named, -⟩ := alike
          exact absurd opened (head?_append_ne_of_named named bracket after)
      | cons first before =>
          rw [List.all_cons, Bool.and_eq_true] at opens
          exact .register opens.2 closes alike

theorem getLast?_iff (bracket : isBracket mark = true) (respelled : Respelled text other) :
    text.getLast? = some mark ↔ other.getLast? = some mark := by
  cases respelled with
  | same => rfl
  | @register before after _ _ _ _ alike =>
      obtain ⟨register, named, otherNamed⟩ := alike
      rcases List.eq_nil_or_concat' after with rfl | ⟨init, last, rfl⟩
      · rw [List.append_nil, List.append_nil]
        exact iff_of_false (getLast?_append_ne_of_named named bracket before)
          (getLast?_append_ne_of_named otherNamed bracket before)
      · rw [← List.append_assoc, ← List.append_assoc, List.getLast?_concat, List.getLast?_concat]

theorem dropLast (bracket : isBracket mark = true) (respelled : Respelled text other)
    (closed : text = [] ∨ text.getLast? = some mark) :
    Respelled text.dropLast other.dropLast := by
  rcases closed with rfl | closed
  · rw [respelled.eq_nil_iff.mp rfl]
    exact .same _
  · cases respelled with
    | same => exact .same _
    | @register before after _ _ opens closes alike =>
        rcases List.eq_nil_or_concat' after with rfl | ⟨init, last, rfl⟩
        · obtain ⟨register, named, -⟩ := alike
          rw [List.append_nil] at closed
          exact absurd closed (getLast?_append_ne_of_named named bracket before)
        · rw [List.all_append, Bool.and_eq_true] at closes
          rw [← List.append_assoc, ← List.append_assoc, List.dropLast_concat,
            List.dropLast_concat]
          exact .register opens closes.1 alike

end Respelled

/-! ## Groups of operands -/

def Respells (operands others : List String) : Prop :=
  List.Forall₂ (fun operand other => Respelled operand.toList other.toList) operands others

theorem Respells.symm {operands others : List String} (respells : Respells operands others) :
    Respells others operands :=
  List.Forall₂.flip (respells.imp fun _ _ respelled => respelled.symm)

section

variable {α β : Type} {related : α → β → Prop} {values : List α} {others : List β}

theorem forall₂_getLastD (all : List.Forall₂ related values others) {value : α} {other : β}
    (default : related value other) : related (values.getLastD value) (others.getLastD other) := by
  induction all generalizing value other with
  | nil => exact default
  | cons first _ induction =>
      rw [List.getLastD_cons, List.getLastD_cons]
      exact induction first

theorem forall₂_dropLast (all : List.Forall₂ related values others) :
    List.Forall₂ related values.dropLast others.dropLast := by
  rw [List.dropLast_eq_take, List.dropLast_eq_take, all.length_eq]
  exact List.forall₂_take _ all

theorem any_eq_of_forall₂ {kind : α → Bool} {otherKind : β → Bool}
    (all : List.Forall₂ related values others)
    (alike : ∀ value other, related value other → kind value = otherKind other) :
    values.any kind = others.any otherKind := by
  induction all with
  | nil => rfl
  | cons first _ induction => rw [List.any_cons, List.any_cons, alike _ _ first, induction]

end

theorem getLast?_tail {text : List Char} {mark : Char} (ends : text.getLast? = some mark) :
    text.tail = [] ∨ text.tail.getLast? = some mark := by
  cases text with
  | nil => exact .inl rfl
  | cons first rest =>
      cases rest with
      | nil => exact .inl rfl
      | cons second rest =>
          rw [List.getLast?_cons_cons] at ends
          exact .inr ends

theorem forall₂_stripped {opening closing : Char} (opens : isBracket opening = true)
    (closes : isBracket closing = true) {first other : List Char} {rest others : List (List Char)}
    (here : Respelled first other) (later : List.Forall₂ Respelled rest others)
    (opened : first.head? = some opening) (closed : (rest.getLastD first).getLast? = some closing) :
    List.Forall₂ Respelled
      ((first.tail :: rest).dropLast ++ [((first.tail :: rest).getLastD []).dropLast])
      ((other.tail :: others).dropLast ++ [((other.tail :: others).getLastD []).dropLast]) := by
  have all := List.Forall₂.cons (here.tail opens opened) later
  have last := forall₂_getLastD all (Respelled.same [])
  have ends : (first.tail :: rest).getLastD [] = [] ∨
      ((first.tail :: rest).getLastD []).getLast? = some closing := by
    cases rest with
    | nil => exact getLast?_tail closed
    | cons second rest =>
        right
        rw [List.getLastD_cons, List.getLastD_cons]
        rwa [List.getLastD_cons] at closed
  exact List.rel_append (forall₂_dropLast all) (.cons (last.dropLast closes ends) .nil)

theorem forall₂_nonempty {texts others : List (List Char)}
    (all : List.Forall₂ Respelled texts others) :
    List.Forall₂ Respelled (texts.filter (!·.isEmpty)) (others.filter (!·.isEmpty)) := by
  refine List.rel_filter (fun text other alike => ?_) all
  simp [alike.eq_nil_iff]

theorem any_marked_eq {opening closing : Char} (opens : isBracket opening = true)
    (closes : isBracket closing = true) {texts others : List (List Char)}
    (all : List.Forall₂ Respelled texts others) :
    (texts.any fun text => text.contains opening || text.contains closing) =
      others.any fun text => text.contains opening || text.contains closing := by
  apply any_eq_of_forall₂ all
  intro text other alike
  have same {mark : Char} (bracket : isBracket mark = true) :
      text.contains mark = other.contains mark := by
    rw [Bool.eq_iff_iff, List.contains_iff_mem, List.contains_iff_mem]
    exact alike.mem_iff bracket
  rw [same opens, same closes]

theorem enclosed?_of_respells {opening closing : Char} (opens : isBracket opening = true)
    (closes : isBracket closing = true) {operands others : List String}
    (respells : Respells operands others) :
    Option.Rel Respells (enclosed? opening closing operands)
      (enclosed? opening closing others) := by
  have texts : List.Forall₂ Respelled (operands.map String.toList) (others.map String.toList) := by
    rw [List.forall₂_map_left_iff, List.forall₂_map_right_iff]
    exact respells
  unfold enclosed?
  generalize operands.map String.toList = tokens at texts
  generalize others.map String.toList = otherTokens at texts
  cases texts with
  | nil => exact .none
  | @cons first other rest others here later =>
      have last := forall₂_getLastD later here
      dsimp only
      by_cases marked : first.head? = some opening ∧
          (rest.getLastD first).getLast? = some closing
      · have otherMarked : other.head? = some opening ∧
            (others.getLastD other).getLast? = some closing :=
          ⟨(here.head?_iff opens).mp marked.1, (last.getLast?_iff closes).mp marked.2⟩
        rw [if_pos marked, if_pos otherMarked]
        have inner := forall₂_stripped opens closes here later marked.1 marked.2
        have kept := forall₂_nonempty inner
        have marks := any_marked_eq opens closes kept
        rw [marks]
        split
        · exact .none
        · apply Option.Rel.some
          rw [Respells, List.forall₂_map_left_iff, List.forall₂_map_right_iff]
          simpa using kept
      · have otherMarked : ¬(other.head? = some opening ∧
            (others.getLastD other).getLast? = some closing) := by
          rwa [← here.head?_iff opens, ← last.getLast?_iff closes]
        rw [if_neg marked, if_neg otherMarked]
        exact .none

/-! ## Register lists -/

namespace RegisterList

theorem SpellsRange.bare {text : List Char} {first last : Nat}
    (spelled : SpellsRange text first last) : Bare text := by
  cases spelled with
  | register spelled => exact .cons rfl (.of_magnitude? (decimal_iff.mpr spelled))
  | @range low high _ _ lowSpelled highSpelled =>
      intro character member
      have parts : character = 'r' ∨ character ∈ low ∨ character = '-' ∨ character = 'r' ∨
          character ∈ high := by
        simpa using member
      rcases parts with rfl | inLow | rfl | rfl | inHigh
      · rfl
      · exact Bare.of_magnitude? (decimal_iff.mpr lowSpelled) character inLow
      · rfl
      · rfl
      · exact Bare.of_magnitude? (decimal_iff.mpr highSpelled) character inHigh

theorem range?_of_not_bare {text : List Char} (bracketed : ¬ Bare text) : range? text = none := by
  apply Option.eq_none_iff_forall_ne_some.mpr
  rintro ⟨first, last⟩ read
  exact bracketed (range?_eq_some_iff.mp read).bare

theorem spellsRange_of_low {name : String} {register : Register}
    (named : Register.ofName? .sixteen name = some register) (low : register.isHigh = false) :
    SpellsRange name.toList register.number.toNat register.number.toNat := by
  unfold Register.ofName? at named
  split at named
  · rename_i shape
    have accepted := List.find?_some shape
    simp only [Shape.accepts] at accepted
    split at accepted
    · rename_i digits spelled
      rw [Register.ofDigits?, spelled, List.tail_cons] at named
      obtain ⟨number, read, found⟩ := Option.bind_eq_some_iff.mp named
      rw [spelled]
      unfold Register.ofNumber? at found
      split at found
      · cases found
        exact .register (decimal_iff.mp read)
      · cases found
    · cases accepted
  · rw [Register.isHigh, Register.bank_of_ofDigits? named] at low
    cases low
  · have known : ∀ entry ∈ Register.aliases, entry.2.isHigh = true := by decide
    cases low.symm.trans (known _ (mem_of_lookup named))
  · cases named

/-- A low register is a range of its own, and no range has a high one. -/
theorem range?_of_named {name : String} {register : Register}
    (named : Register.ofName? .sixteen name = some register) :
    range? name.toList =
      if register.isHigh then none
      else some (register.number.toNat, register.number.toNat) := by
  cases bank : register.isHigh with
  | true =>
      apply Option.eq_none_iff_forall_ne_some.mpr
      rintro ⟨first, last⟩ read
      exact head?_ne_of_isHigh named bank (range?_eq_some_iff.mp read).head?
  | false => exact range?_eq_some_iff.mpr (spellsRange_of_low named bank)

theorem range?_of_respelled {entry other : String}
    (respelled : Respelled entry.toList other.toList) :
    range? entry.toList = range? other.toList := by
  rcases respelled.cases with rfl | ⟨register, named, otherNamed⟩ | ⟨bracketed, otherBracketed⟩
  · rfl
  · rw [range?_of_named named, range?_of_named otherNamed]
  · rw [range?_of_not_bare bracketed, range?_of_not_bare otherBracketed]

theorem insertEntry_alike {entry other : String} (respelled : Respelled entry.toList other.toList)
    (extra : Option Register) (registers : RegisterList) :
    Alike Eq (insertEntry extra registers entry) (insertEntry extra registers other) := by
  rw [insertEntry, insertEntry, range?_of_respelled respelled]
  split
  · split
    · exact .ok rfl
    · exact .error _ _
  · apply respelled.interchangeable.register.bind_eq
    intro register
    split
    · exact .ok rfl
    · exact .error _ _

theorem foldlM_alike {entries others : List String} (respells : Respells entries others)
    (extra : Option Register) (registers : RegisterList) :
    Alike Eq (entries.foldlM (insertEntry extra) registers)
      (others.foldlM (insertEntry extra) registers) := by
  induction respells generalizing registers with
  | nil => exact .ok rfl
  | cons first _ induction =>
      rw [List.foldlM_cons, List.foldlM_cons]
      exact (insertEntry_alike first extra registers).bind_eq induction

theorem parse_alike {operands others : List String} (respells : Respells operands others)
    (extra : Option Register) : Alike Eq (parse extra operands) (parse extra others) := by
  have groups := @enclosed?_of_respells '\x7b' '\x7d' rfl rfl _ _ respells
  unfold parse
  generalize enclosed? '\x7b' '\x7d' operands = group at groups
  generalize enclosed? '\x7b' '\x7d' others = otherGroup at groups
  cases groups with
  | none => exact .error _ _
  | some entries =>
      cases entries with
      | nil => exact .error _ _
      | cons first later => exact foldlM_alike (.cons first later) extra empty

end RegisterList

end TwoPass.Compact
