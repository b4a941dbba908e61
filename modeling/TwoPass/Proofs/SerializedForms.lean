import Mathlib.Algebra.Ring.Nat
import TwoPass.Program.Binary
import TwoPass.Proofs.DefinedLabels
import TwoPass.Proofs.Tokens

/-! # Reading the outputs back

A program is saved as bytes, as hexadecimal text and as a table of its symbols. A reader for
each of the three forms gets back all that went into it: hexadecimal digits spell the number
that they were written for, rows of words are told apart by line feeds and words by blanks,
and no name of a label holds a character that ends it in the table. -/

namespace TwoPass

/-! ## Numbers -/

/-- The number that digits spell, where no digits spell zero. -/
def Numeral.run? (radix : Nat) (digits : List Char) : Option Nat :=
  (digits.mapM (digitValue? radix)).map (ofDigits radix)

theorem Numeral.run?_concat {radix number value : Nat} {digits : List Char} {digit : Char}
    (read : run? radix digits = some number) (last : digitValue? radix digit = some value) :
    run? radix (digits ++ [digit]) = some (number * radix + value) := by
  obtain ⟨values, mapped, rfl⟩ := Option.map_eq_some_iff.mp read
  rw [run?, List.mapM_append, mapped, List.mapM_cons, last]
  exact congrArg some (List.foldl_concat ..)

namespace Hex

structure Spells (text : List Char) (value : Nat) : Prop where
  read : Numeral.run? 16 text = some value
  visible : ∀ character ∈ text, isBlank character = false

namespace Spells

theorem nil : Spells [] 0 where
  read := rfl
  visible _ member := absurd member List.not_mem_nil

theorem concat {text : List Char} {number value : Nat} (spells : Spells text number)
    (small : value < 16) : Spells (text ++ [digit value]) (number * 16 + value) where
  read := by
    have known : ∀ value < 16, Numeral.digitValue? 16 (digit value) = some value := by decide
    exact Numeral.run?_concat spells.read (known value small)
  visible character member := by
    have known : ∀ value < 16, isBlank (digit value) = false := by decide
    obtain earlier | last := List.mem_append.mp member
    · exact spells.visible character earlier
    · rw [List.mem_singleton.mp last]
      exact known value small

theorem magnitude? {text : List Char} {value : Nat} (spells : Spells text value)
    (filled : text ≠ []) : Numeral.magnitude? 16 text = some value := by
  rw [Numeral.magnitude?, if_neg (by simpa using filled)]
  exact spells.read

end Spells

theorem spells_fixedDigits (width value : Nat) :
    Spells (fixedDigits width value) (value % 16 ^ width) := by
  induction width generalizing value with
  | zero =>
      rw [Nat.pow_zero, Nat.mod_one]
      exact .nil
  | succ width induction =>
      have spells := (induction (value / 16)).concat (Nat.mod_lt value (by decide))
      have whole : value % 16 ^ (width + 1) = value / 16 % 16 ^ width * 16 + value % 16 := by
        rw [Nat.pow_succ, Nat.mul_comm (16 ^ width), Nat.mod_mul, Nat.add_comm, Nat.mul_comm]
      rw [whole]
      exact spells

theorem length_fixedDigits (width value : Nat) : (fixedDigits width value).length = width := by
  induction width generalizing value with
  | zero => rfl
  | succ width induction => simp [fixedDigits, induction]

theorem spells_digits (value : Nat) : Spells (digits value) value := by
  induction value using digits.induct with
  | case1 value small =>
      have spells := Spells.nil.concat small
      rw [Nat.zero_mul, Nat.zero_add] at spells
      rw [digits, if_pos small]
      exact spells
  | case2 value large induction =>
      have spells := induction.concat (Nat.mod_lt value (by decide))
      rw [Nat.div_add_mod' value 16] at spells
      rw [digits, if_neg large]
      exact spells

theorem digits_ne_nil (value : Nat) : digits value ≠ [] := by
  rw [digits]
  split <;> simp

end Hex

theorem mapM_eq_some {read? : α → Option β} {view : α → β} {items : List α}
    (read : ∀ item ∈ items, read? item = some (view item)) :
    items.mapM read? = some (items.map view) := by
  induction items with
  | nil => rfl
  | cons item items induction =>
      rw [List.mapM_cons, read item List.mem_cons_self,
        induction fun other member => read other (List.mem_cons_of_mem item member)]
      rfl

/-! ## Bytes -/

def bigEndian? : List UInt8 → Option (List Nat)
  | [] => some []
  | [_] => none
  | high :: low :: rest => (bigEndian? rest).map ((high.toNat * 256 + low.toNat) :: ·)

theorem bigEndian?_wordBytes (word : Word) (rest : List UInt8) :
    bigEndian? (Binary.wordBytes word ++ rest) = (bigEndian? rest).map (word.toNat :: ·) := by
  have value : (word.extractLsb' 8 8).toNat * 256 + (word.extractLsb' 0 8).toNat = word.toNat := by
    have bound : word.toNat < 65536 := word.isLt
    simp only [BitVec.extractLsb'_toNat, Nat.shiftRight_eq_div_pow]
    omega
  rw [← value]
  rfl

theorem bigEndian?_flatMap (words : List Word) :
    bigEndian? (words.flatMap Binary.wordBytes) = some (words.map BitVec.toNat) := by
  induction words with
  | nil => rfl
  | cons word words induction =>
      rw [List.flatMap_cons, bigEndian?_wordBytes, induction]
      rfl

theorem length_flatMap_wordBytes (words : List Word) :
    (words.flatMap Binary.wordBytes).length = 2 * words.length := by
  induction words with
  | nil => rfl
  | cons word words induction =>
      rw [List.flatMap_cons, List.length_append, induction, List.length_cons, Nat.mul_succ,
        Nat.add_comm]
      rfl

/-! ## Rows -/

/-- Rows of a given length, of which the last may be shorter but is not empty. -/
structure FilledRows (length : Nat) (rows : List (List α)) : Prop where
  full : ∀ row ∈ rows.dropLast, row.length = length
  last : ∀ row ∈ rows.getLast?, 0 < row.length ∧ row.length ≤ length

section Rows

variable {length : Nat} (positive : 0 < length)
include positive

theorem rows_of_ne_nil {items : List α} (filled : items ≠ []) :
    rows length items = items.take length :: rows length (items.drop length) := by
  rw [rows, if_neg]
  rintro (empty | nothing)
  · exact filled (List.isEmpty_iff.mp empty)
  · exact absurd nothing (Nat.ne_of_gt positive)

omit positive in
theorem rows_nil : rows length ([] : List α) = [] := by
  rw [rows, if_pos (.inl rfl)]

theorem flatten_rows (items : List α) : (rows length items).flatten = items := by
  induction items using rows.induct length with
  | case1 items finished =>
      have empty := finished.resolve_right (Nat.ne_of_gt positive)
      rw [List.isEmpty_iff.mp empty, rows_nil]
      rfl
  | case2 items unfinished induction =>
      have filled : items ≠ [] := fun empty => unfinished (.inl (List.isEmpty_iff.mpr empty))
      rw [rows_of_ne_nil positive filled, List.flatten_cons, induction, List.take_append_drop]

theorem filledRows_rows (items : List α) : FilledRows length (rows length items) := by
  induction items using rows.induct length with
  | case1 items finished =>
      have empty := finished.resolve_right (Nat.ne_of_gt positive)
      rw [List.isEmpty_iff.mp empty, rows_nil]
      exact ⟨fun _ member => absurd member List.not_mem_nil, fun _ member => by cases member⟩
  | case2 items unfinished induction =>
      have filled : items ≠ [] := fun empty => unfinished (.inl (List.isEmpty_iff.mpr empty))
      have first : (items.take length).length = min length items.length := List.length_take
      have some : 0 < items.length := List.length_pos_iff.mpr filled
      rw [rows_of_ne_nil positive filled]
      by_cases rest : items.drop length = []
      · rw [rest, rows_nil]
        refine ⟨fun _ member => absurd member List.not_mem_nil, fun row member => ?_⟩
        obtain rfl : items.take length = row := Option.some.inj member
        omega
      · have further : rows length (items.drop length) ≠ [] := by
          rw [rows_of_ne_nil positive rest]
          exact List.cons_ne_nil _ _
        have long : length < items.length := by
          by_contra short
          exact rest (List.drop_eq_nil_of_le (Nat.not_lt.mp short))
        constructor
        · intro row member
          rw [List.dropLast_cons_of_ne_nil further] at member
          obtain rfl | later := List.mem_cons.mp member
          · omega
          · exact induction.full row later
        · intro row member
          rw [List.getLast?_cons_of_ne_nil further] at member
          exact induction.last row member

end Rows

/-! ## Lines -/

def SpacedLine (line : List Char) : Prop :=
  ∀ character ∈ line, character = ' ' ∨ isBlank character = false

theorem SpacedLine.ne_of_blank {line : List Char} {blank character : Char}
    (spaced : SpacedLine line) (member : character ∈ line) (blanks : isBlank blank = true)
    (other : blank ≠ ' ') : character ≠ blank := by
  rintro rfl
  obtain space | visible := spaced character member
  · exact other space
  · cases blanks.symm.trans visible

theorem SourceLine.split_flatMap {lines : List (List Char)}
    (spaced : ∀ line ∈ lines, SpacedLine line) :
    split (lines.flatMap (· ++ ['\n'])) = lines := by
  induction lines with
  | nil => rfl
  | cons line lines induction =>
      have own := spaced line List.mem_cons_self
      have single : ∀ character ∈ line, character ≠ '\n' := fun character member =>
        own.ne_of_blank member (by decide) (by decide)
      have kept : dropReturn line = line := by
        apply if_neg
        intro returned
        exact own.ne_of_blank (List.mem_of_getLast? returned) (by decide) (by decide) rfl
      rw [List.flatMap_cons, List.append_assoc, List.singleton_append, split_line single, kept,
        induction fun other member => spaced other (List.mem_cons_of_mem line member)]

theorem words_flatMap_lines (lines : List (List Char)) :
    words isBlank (lines.flatMap (· ++ ['\n'])) = lines.flatMap (words isBlank) := by
  induction lines with
  | nil => rfl
  | cons line lines induction =>
      rw [List.flatMap_cons, List.append_assoc, List.singleton_append,
        words_append (by decide), induction, List.flatMap_cons]

def spacedOut (tokens : List (List Char)) : List Char :=
  [' '].intercalate tokens

theorem spacedOut_cons_cons (token next : List Char) (rest : List (List Char)) :
    spacedOut (token :: next :: rest) = token ++ ' ' :: spacedOut (next :: rest) := by
  rw [spacedOut, List.intercalate_cons_cons, List.append_assoc]
  rfl

theorem spacedOut_singleton (token : List Char) : spacedOut [token] = token :=
  List.intercalate_singleton

theorem spacedLine_spacedOut {tokens : List (List Char)}
    (visible : ∀ token ∈ tokens, ∀ character ∈ token, isBlank character = false) :
    SpacedLine (spacedOut tokens) := by
  intro character member
  induction tokens with
  | nil => exact absurd member List.not_mem_nil
  | cons token others induction =>
      have own := visible token List.mem_cons_self
      cases others with
      | nil =>
          rw [spacedOut_singleton] at member
          exact .inr (own character member)
      | cons next rest =>
          rw [spacedOut_cons_cons] at member
          obtain inside | further := List.mem_append.mp member
          · exact .inr (own character inside)
          · obtain space | later := List.mem_cons.mp further
            · exact .inl space
            · exact induction
                (fun other member => visible other (List.mem_cons_of_mem token member)) later

theorem words_spacedOut {tokens : List (List Char)}
    (visible : ∀ token ∈ tokens, ∀ character ∈ token, isBlank character = false)
    (filled : ∀ token ∈ tokens, token ≠ []) : words isBlank (spacedOut tokens) = tokens := by
  induction tokens with
  | nil => rfl
  | cons token others induction =>
      have own := words_of_unseparated (filled token List.mem_cons_self)
        (visible token List.mem_cons_self)
      cases others with
      | nil => rw [spacedOut_singleton, own]
      | cons next rest =>
          rw [spacedOut_cons_cons, words_append (by decide), own, induction]
          · rfl
          · exact fun other member => visible other (List.mem_cons_of_mem token member)
          · exact fun other member => filled other (List.mem_cons_of_mem token member)

/-! ## Object text -/

namespace Binary

def wordToken (word : Word) : List Char :=
  Hex.fixedDigits 4 word.toNat

theorem length_wordToken (word : Word) : (wordToken word).length = 4 :=
  Hex.length_fixedDigits 4 word.toNat

theorem wordToken_ne_nil (word : Word) : wordToken word ≠ [] :=
  List.ne_nil_of_length_pos (by rw [length_wordToken]; decide)

theorem spells_wordToken (word : Word) : Hex.Spells (wordToken word) word.toNat := by
  have spells := Hex.spells_fixedDigits 4 word.toNat
  have fits : word.toNat < 16 ^ 4 := word.isLt
  rwa [Nat.mod_eq_of_lt fits] at spells

theorem visible_wordToken {words : List Word} :
    ∀ token ∈ words.map wordToken, ∀ character ∈ token, isBlank character = false := by
  intro token member
  obtain ⟨word, -, rfl⟩ := List.mem_map.mp member
  exact (spells_wordToken word).visible

def objectLines (binary : Binary) : List (List Char) :=
  (rows 8 binary.image).map fun row => spacedOut (row.map wordToken)

theorem toList_objectText (binary : Binary) :
    binary.objectText.toList = binary.objectLines.flatMap (· ++ ['\n']) := by
  have space : " ".toList = [' '] := by decide
  have feed : "\n".toList = ['\n'] := by decide
  have token : (String.toList ∘ fun word : Word => Hex.fixed 4 word.toNat) = wordToken :=
    funext fun word => String.toList_ofList
  rw [objectText, String.toList_join, objectLines, List.flatMap_map, List.flatMap_map]
  simp only [String.toList_append, String.toList_intercalate, List.map_map, space, feed, token]
  rfl

theorem split_objectText (binary : Binary) :
    SourceLine.split binary.objectText.toList = binary.objectLines := by
  rw [toList_objectText]
  apply SourceLine.split_flatMap
  intro line member
  obtain ⟨row, -, rfl⟩ := List.mem_map.mp member
  exact spacedLine_spacedOut visible_wordToken

theorem words_objectLine (row : List Word) :
    TwoPass.words isBlank (spacedOut (row.map wordToken)) = row.map wordToken := by
  apply words_spacedOut visible_wordToken
  intro token member
  obtain ⟨word, -, rfl⟩ := List.mem_map.mp member
  exact wordToken_ne_nil word

theorem words_objectText (binary : Binary) :
    TwoPass.words isBlank binary.objectText.toList = binary.image.map wordToken := by
  rw [toList_objectText, words_flatMap_lines, objectLines, List.flatMap_map]
  simp only [words_objectLine]
  rw [List.flatMap_def, ← List.map_flatten, flatten_rows (by decide)]

theorem exists_last_objectLine (binary : Binary) :
    ∃ row, (rows 8 binary.image).getLast? = some row := by
  cases found : (rows 8 binary.image).getLast? with
  | some row => exact ⟨row, rfl⟩
  | none =>
      have empty := List.getLast?_eq_none_iff.mp found
      rw [image, rows_of_ne_nil (by decide) (List.cons_ne_nil _ _)] at empty
      cases empty

theorem mapM_wordToken (words : List Word) :
    (words.map wordToken).mapM (Numeral.magnitude? 16) = some (words.map BitVec.toNat) := by
  rw [List.mapM_map]
  apply mapM_eq_some
  intro word _
  exact (spells_wordToken word).magnitude? (wordToken_ne_nil word)

end Binary

/-! ## Symbol tables -/

namespace SymbolValues

/-- Read a line of the form `name = HEX`. -/
def readLine? (line : List Char) : Option (String × Nat) := do
  let name := line.takeWhile (· != ' ')
  let digits ← [' ', '=', ' '].isPrefixOf? (line.drop name.length)
  let value ← Numeral.magnitude? 16 digits
  return (String.ofList name, value)

def read? (text : String) : Option SymbolValues :=
  SymbolValues.mk <$> (SourceLine.split text.toList).mapM readLine?

def entryLine (entry : String × Nat) : List Char :=
  entry.1.toList ++ [' ', '=', ' '] ++ Hex.digits entry.2

theorem toList_text (values : SymbolValues) :
    values.text.toList = (values.entries.map entryLine).flatMap (· ++ ['\n']) := by
  have equals : " = ".toList = [' ', '=', ' '] := by decide
  have feed : "\n".toList = ['\n'] := by decide
  rw [text, String.toList_join, List.flatMap_map, List.flatMap_map]
  apply List.flatMap_congr
  intro entry _
  have parts : (toString entry.1 ++ toString " = " ++ toString (Hex.natural entry.2) ++
      toString "\n").toList = entry.1.toList ++ " = ".toList ++ (Hex.natural entry.2).toList ++
        "\n".toList := by
    simp only [String.toList_append]
    rfl
  rw [parts, equals, feed, Hex.natural, String.toList_ofList]
  rfl

section Entry

variable {entry : String × Nat} (visible : ∀ character ∈ entry.1.toList, isBlank character = false)
include visible

theorem spacedLine_entryLine : SpacedLine (entryLine entry) := by
  intro character member
  have between : ∀ mark ∈ [' ', '=', ' '], mark = ' ' ∨ isBlank mark = false := by
    simp only [List.forall_mem_cons, List.not_mem_nil, false_implies, implies_true]
    decide
  obtain front | digit := List.mem_append.mp member
  · obtain name | mark := List.mem_append.mp front
    · exact .inr (visible character name)
    · exact between character mark
  · exact .inr ((Hex.spells_digits entry.2).visible character digit)

theorem readLine?_entryLine : readLine? (entryLine entry) = some entry := by
  have named : (entryLine entry).takeWhile (· != ' ') = entry.1.toList := by
    rw [entryLine, List.append_assoc, List.takeWhile_append_of_pos]
    · exact List.append_nil _
    · intro character member
      apply bne_iff_ne.mpr
      rintro rfl
      cases visible ' ' member
  have rest : (entryLine entry).drop entry.1.toList.length =
      [' ', '=', ' '] ++ Hex.digits entry.2 := by
    rw [entryLine, List.append_assoc, List.drop_left]
  have value := (Hex.spells_digits entry.2).magnitude? (Hex.digits_ne_nil entry.2)
  have cut : [' ', '=', ' '].isPrefixOf? ([' ', '=', ' '] ++ Hex.digits entry.2) =
      some (Hex.digits entry.2) := rfl
  simp only [readLine?, named, rest, cut, Option.bind_eq_bind, Option.bind_some, value,
    String.ofList_toList]
  rfl

end Entry

theorem read?_text {values : SymbolValues}
    (visible : ∀ entry ∈ values.entries, ∀ character ∈ entry.1.toList,
      isBlank character = false) : read? values.text = some values := by
  have lines : SourceLine.split values.text.toList = values.entries.map entryLine := by
    rw [toList_text]
    apply SourceLine.split_flatMap
    intro line member
    obtain ⟨entry, listed, rfl⟩ := List.mem_map.mp member
    exact spacedLine_entryLine (visible entry listed)
  have entries : values.entries.mapM (readLine? ∘ entryLine) = some (values.entries.map id) :=
    mapM_eq_some fun entry listed => readLine?_entryLine (visible entry listed)
  rw [read?, lines, List.mapM_map, entries, List.map_id]
  rfl

end SymbolValues

theorem NameSpelling.visible {name : List Char} (spelling : NameSpelling name) :
    ∀ character ∈ name, isBlank character = false := by
  intro character member
  have spelled : character = '_' ∨ 'a' ≤ character ∧ character ≤ 'z' ∨
      '0' ≤ character ∧ character ≤ '9' := by
    obtain ⟨first, rest, rfl, start, others⟩ := spelling
    obtain rfl | later := List.mem_cons.mp member
    · exact start.imp_right .inl
    · exact others character later
  have codes : character.toNat = 95 ∨ 97 ≤ character.toNat ∧ character.toNat ≤ 122 ∨
      48 ≤ character.toNat ∧ character.toNat ≤ 57 :=
    spelled.imp (congrArg Char.toNat) (.imp (fun letter => letter) fun digit => digit)
  simp only [isBlank, blankRanges, List.any_cons, List.any_nil]
  simp only [Bool.or_false, Bool.or_eq_false_iff, Bool.and_eq_false_iff, decide_eq_false_iff_not]
  omega

theorem Run.read?_symbols {options : Options} {source : String} {assembly : Assembly}
    (done : (ofSource options source).result = .ok assembly) :
    SymbolValues.read? assembly.symbols.text = some assembly.symbols :=
  SymbolValues.read?_text fun _ member => (spelling_of_entry done member).1.visible

/-- Nothing is lost in the outputs. The bytes of a binary are the pairs of its words, its
object text has the same words in rows of eight, and the table of an assembled program is
read back line by line. -/
theorem outputs_read_back :
    (∀ binary : Binary,
      let numbers := binary.start.toNat :: binary.words.map BitVec.toNat
      let tokens := words isBlank binary.objectText.toList
      let lines := SourceLine.split binary.objectText.toList
      binary.bytes.length = 2 * (binary.words.length + 1) ∧
      bigEndian? binary.bytes = some numbers ∧
      tokens.mapM (Numeral.magnitude? 16) = some numbers ∧
      (∀ token ∈ tokens, token.length = 4) ∧
      (∀ line ∈ lines.dropLast, (words isBlank line).length = 8) ∧
      ∃ last, lines.getLast? = some last ∧
        1 ≤ (words isBlank last).length ∧ (words isBlank last).length ≤ 8) ∧
    (∀ options source assembly, assemble options source = .ok assembly →
      SymbolValues.read? assembly.symbols.text = some assembly.symbols) ∧
    ∀ options source assembly otherOptions otherSource other,
      assemble options source = .ok assembly →
      assemble otherOptions otherSource = .ok other →
      assembly.symbols.text = other.symbols.text → assembly.symbols = other.symbols := by
  refine ⟨fun binary => ?_, fun options source assembly done => Run.read?_symbols done, ?_⟩
  · intro numbers tokens lines
    have tokens_eq : tokens = binary.image.map Binary.wordToken := binary.words_objectText
    have lines_eq : lines = binary.objectLines := binary.split_objectText
    have filled : FilledRows 8 (rows 8 binary.image) := filledRows_rows (by decide) _
    refine ⟨length_flatMap_wordBytes _, bigEndian?_flatMap _, ?_, ?_, ?_, ?_⟩
    · rw [tokens_eq]
      exact Binary.mapM_wordToken _
    · intro token member
      rw [tokens_eq] at member
      obtain ⟨word, -, rfl⟩ := List.mem_map.mp member
      exact Binary.length_wordToken word
    · intro line member
      rw [lines_eq, Binary.objectLines, ← List.map_dropLast] at member
      obtain ⟨row, listed, rfl⟩ := List.mem_map.mp member
      rw [Binary.words_objectLine, List.length_map]
      exact filled.full row listed
    · obtain ⟨row, last⟩ := binary.exists_last_objectLine
      rw [lines_eq, Binary.objectLines, List.getLast?_map, last]
      refine ⟨_, rfl, ?_⟩
      rw [Binary.words_objectLine, List.length_map]
      exact filled.last row last
  · intro options source assembly otherOptions otherSource other done otherDone same
    have read := Run.read?_symbols done
    rw [same, Run.read?_symbols otherDone] at read
    exact (Option.some.inj read).symm

/-- The last symbol lies past the end of memory and has five digits. Another program
with the same text of its table has the same table. -/
theorem table_past_memory_reads_back :
    let source := ".orig xffff\nlast halt\nbeyond .end"
    let otherSource := ".orig xfffe\nhalt\nlast: ret\nbeyond:"
    let text := "last = FFFF\nbeyond = 10000\n"
    ∃ assembly other,
      assemble {} source = .ok assembly ∧ assemble {} otherSource = .ok other ∧
      assembly.symbols.text = text ∧ other.symbols.text = text ∧
      SymbolValues.read? text = some assembly.symbols ∧ assembly.symbols = other.symbols := by
  intro source otherSource text
  have known : (assemble {} source).toOption.map (·.symbols.text) = some text := by
    decide +kernel
  have otherKnown : (assemble {} otherSource).toOption.map (·.symbols.text) = some text := by
    decide +kernel
  obtain ⟨assembly, found, written⟩ := Option.map_eq_some_iff.mp known
  obtain ⟨other, otherFound, otherWritten⟩ := Option.map_eq_some_iff.mp otherKnown
  have done := toOption_eq_some_iff.mp found
  have otherDone := toOption_eq_some_iff.mp otherFound
  refine ⟨assembly, other, done, otherDone, written, otherWritten, ?_, ?_⟩
  · rw [← written]
    exact outputs_read_back.2.1 {} source assembly done
  · exact outputs_read_back.2.2 {} source assembly {} otherSource other done otherDone
      (written.trans otherWritten.symm)

end TwoPass
