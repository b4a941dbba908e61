import Mathlib.Data.List.Basic
import TwoPass.Operand.Literal
import TwoPass.Proofs.Except

/-! # The grammar of string literals

Between its quotes a literal is a row of elements, each of which stands for one character:
the character itself, or a backslash and a mark. Reading accepts just the literals that are
put together so from at least one element, and finds the characters of their elements. -/

namespace TwoPass.Literal

def escapes : List (Char × Char) :=
  [('\\', '\\'), ('\'', '\''), ('"', '"'), ('n', '\n'), ('r', '\r'), ('t', '\t')]

inductive Element (quote : Char) where
  | plain (character : Char) (unescaped : character ≠ '\\') (unquoted : character ≠ quote)
  | escaped (mark character : Char) (listed : (mark, character) ∈ escapes)

namespace Element

variable {quote : Char}

def text : Element quote → List Char
  | .plain character _ _ => [character]
  | .escaped mark _ _ => ['\\', mark]

def character : Element quote → Char
  | .plain character _ _ => character
  | .escaped _ character _ => character

end Element

structure Consists (literal : String) (quote : Char) (elements : List (Element quote)) : Prop where
  quotes : isQuote quote = true
  whole : literal.toList = quote :: (elements.flatMap Element.text ++ [quote])

/-! ## Elements -/

theorem escapedCharacter?_eq_some_iff {mark character : Char} :
    escapedCharacter? mark = some character ↔ (mark, character) ∈ escapes := by
  constructor
  · intro stands
    unfold escapedCharacter? at stands
    split at stands <;> cases stands <;> decide
  · intro listed
    have known : ∀ entry ∈ escapes, escapedCharacter? entry.1 = some entry.2 := by
      simp only [escapes, List.forall_mem_cons, List.not_mem_nil, false_implies, implies_true]
      decide
    exact known (mark, character) listed

section Element

variable {quote : Char}

/-- A character that is not the escape character is taken as it is, or is the quote. -/
theorem unescape?_cons {character : Char} (unescaped : character ≠ '\\') (rest : List Char) :
    unescape? quote (character :: rest) =
      if character = quote then none else (unescape? quote rest).map (character :: ·) := by
  rw [unescape?.eq_def]
  split
  · rename_i given; cases given
  · rename_i given; cases given; exact absurd rfl unescaped
  · rename_i given; cases given; exact absurd rfl unescaped
  · rename_i given; cases given; rfl

theorem unescape?_text (element : Element quote) (rest : List Char) :
    unescape? quote (element.text ++ rest) =
      (unescape? quote rest).map (element.character :: ·) := by
  cases element with
  | plain character unescaped unquoted =>
      exact (unescape?_cons unescaped rest).trans (if_neg unquoted)
  | escaped mark character listed =>
      have stands := escapedCharacter?_eq_some_iff.mpr listed
      simp only [Element.text, List.cons_append, List.nil_append, unescape?, stands]
      cases unescape? quote rest <;> rfl

theorem unescape?_flatMap (elements : List (Element quote)) :
    unescape? quote (elements.flatMap Element.text) = some (elements.map Element.character) := by
  induction elements with
  | nil => rfl
  | cons element elements induction =>
      rw [List.flatMap_cons, unescape?_text, induction]
      rfl

theorem ne_escape_of_cases {character : Char} {rest : List Char}
    (single : character = '\\' → rest = [] → False)
    (paired : ∀ mark others, character = '\\' → rest = mark :: others → False) :
    character ≠ '\\' := by
  intro escape
  cases rest with
  | nil => exact single escape rfl
  | cons mark others => exact paired mark others escape rfl

theorem exists_elements_of_unescape? {body characters : List Char}
    (read : unescape? quote body = some characters) :
    ∃ elements : List (Element quote),
      elements.flatMap Element.text = body ∧ elements.map Element.character = characters := by
  -- An element is found at each step of the reader, which takes one or two characters.
  induction body using unescape?.induct quote generalizing characters with
  | case1 =>
      cases read
      exact ⟨[], rfl, rfl⟩
  | case2 => cases read
  | case3 mark rest induction =>
      obtain ⟨character, stands, read⟩ := Option.bind_eq_some_iff.mp read
      obtain ⟨others, rested, read⟩ := Option.bind_eq_some_iff.mp read
      cases read
      obtain ⟨elements, rfl, rfl⟩ := induction rested
      have listed := escapedCharacter?_eq_some_iff.mp stands
      exact ⟨.escaped mark character listed :: elements, rfl, rfl⟩
  | case4 rest single paired =>
      rw [unescape?_cons (ne_escape_of_cases single paired), if_pos rfl] at read
      cases read
  | case5 character rest single paired unquoted induction =>
      have unescaped := ne_escape_of_cases single paired
      rw [unescape?_cons unescaped, if_neg unquoted] at read
      obtain ⟨others, rested, rfl⟩ := Option.map_eq_some_iff.mp read
      obtain ⟨elements, rfl, rfl⟩ := induction rested
      exact ⟨.plain character unescaped unquoted :: elements, rfl, rfl⟩

end Element

/-! ## Literals -/

theorem body?_eq_some_iff {text body : List Char} {quote : Char} :
    body? text = some (quote, body) ↔
      isQuote quote = true ∧ text = quote :: (body ++ [quote]) := by
  constructor
  · intro enclosed
    cases text with
    | nil => cases enclosed
    | cons first rest =>
        rw [body?] at enclosed
        split at enclosed
        · rename_i closed
          cases enclosed
          exact ⟨closed.1, congrArg _ (List.dropLast_append_getLast? _ closed.2).symm⟩
        · cases enclosed
  · rintro ⟨quotes, rfl⟩
    simp [body?, quotes]

variable {literal : String}

theorem characters_of_body {quote : Char} {body : List Char}
    (enclosed : body? literal.toList = some (quote, body)) (filled : body ≠ []) :
    characters literal = (unescape? quote body).elim (.error (.malformedString literal)) .ok := by
  cases body with
  | nil => exact absurd rfl filled
  | cons first rest =>
      simp only [characters, enclosed]
      cases unescape? quote (first :: rest) <;> rfl

theorem flatMap_text_eq_nil {quote : Char} {elements : List (Element quote)} :
    elements.flatMap Element.text = [] ↔ elements = [] := by
  cases elements with
  | nil => simp
  | cons element elements => cases element <;> simp [Element.text]

theorem codes_of_consists {quote : Char} {elements : List (Element quote)}
    (consists : Consists literal quote elements) (filled : elements ≠ []) :
    codes literal = .ok (elements.map (·.character.toNat)) := by
  have enclosed := body?_eq_some_iff.mpr ⟨consists.quotes, consists.whole⟩
  rw [codes, characters_of_body enclosed (mt flatMap_text_eq_nil.mp filled), unescape?_flatMap]
  exact congrArg Except.ok List.map_map

theorem codes_of_empty {quote : Char} (consists : Consists literal quote []) :
    codes literal = .error .emptyString := by
  have enclosed : body? literal.toList = some (quote, []) :=
    body?_eq_some_iff.mpr ⟨consists.quotes, consists.whole⟩
  rw [codes, characters, enclosed]
  rfl

theorem codes_of_not_consists
    (other : ∀ quote (elements : List (Element quote)), ¬Consists literal quote elements) :
    codes literal = .error (.malformedString literal) := by
  cases enclosed : body? literal.toList with
  | none =>
      rw [codes, characters, enclosed]
      rfl
  | some found =>
      obtain ⟨quote, body⟩ := found
      obtain ⟨quotes, whole⟩ := body?_eq_some_iff.mp enclosed
      have filled : body ≠ [] := by
        rintro rfl
        exact other quote [] ⟨quotes, whole⟩
      rw [codes, characters_of_body enclosed filled]
      cases read : unescape? quote body with
      | none => rfl
      | some characters =>
          obtain ⟨elements, rfl, -⟩ := exists_elements_of_unescape? read
          exact absurd ⟨quotes, whole⟩ (other quote elements)

theorem codes_cases (literal : String) :
    (∃ quote, ∃ elements : List (Element quote),
      Consists literal quote elements ∧ elements ≠ [] ∧
        codes literal = .ok (elements.map (·.character.toNat))) ∨
    (∃ quote, Consists literal quote [] ∧ codes literal = .error .emptyString) ∨
    codes literal = .error (.malformedString literal) := by
  by_cases consists : ∃ quote, ∃ elements : List (Element quote), Consists literal quote elements
  · obtain ⟨quote, elements, consists⟩ := consists
    cases elements with
    | nil => exact .inr (.inl ⟨quote, consists, codes_of_empty consists⟩)
    | cons element elements =>
        have filled : element :: elements ≠ [] := List.cons_ne_nil _ _
        exact .inl ⟨quote, _, consists, filled, codes_of_consists consists filled⟩
  · exact .inr (.inr (codes_of_not_consists fun quote elements whole =>
      consists ⟨quote, elements, whole⟩))

/-- A literal is read just if it is put together from at least one element, and then as the
codes of their characters. Two quotes alone are refused as empty, and everything else by its
own text. -/
theorem literals_follow_grammar (literal : String) :
    (∀ values, codes literal = .ok values ↔
      ∃ quote, ∃ elements : List (Element quote),
        Consists literal quote elements ∧ elements ≠ [] ∧
          values = elements.map (·.character.toNat)) ∧
    (codes literal = .error .emptyString ↔
      ∃ quote, isQuote quote = true ∧ literal.toList = [quote, quote]) ∧
    (codes literal = .error (.malformedString literal) ↔
      (¬∃ quote, ∃ elements : List (Element quote),
        Consists literal quote elements ∧ elements ≠ []) ∧
      ¬∃ quote, isQuote quote = true ∧ literal.toList = [quote, quote]) := by
  refine ⟨fun values => ⟨?_, ?_⟩, ⟨?_, ?_⟩, ⟨?_, ?_⟩⟩
  · intro read
    obtain ⟨quote, elements, consists, filled, found⟩ | ⟨quote, -, found⟩ | found :=
      codes_cases literal
    · exact ⟨quote, elements, consists, filled, Except.ok.inj (read.symm.trans found)⟩
    · cases read.symm.trans found
    · cases read.symm.trans found
  · rintro ⟨quote, elements, consists, filled, rfl⟩
    exact codes_of_consists consists filled
  · intro refused
    obtain ⟨quote, elements, -, -, found⟩ | ⟨quote, consists, -⟩ | found := codes_cases literal
    · cases refused.symm.trans found
    · exact ⟨quote, consists.quotes, consists.whole⟩
    · cases refused.symm.trans found
  · rintro ⟨quote, quotes, whole⟩
    exact codes_of_empty ⟨quotes, whole⟩
  · intro refused
    constructor
    · rintro ⟨quote, elements, consists, filled⟩
      cases refused.symm.trans (codes_of_consists consists filled)
    · rintro ⟨quote, quotes, whole⟩
      cases refused.symm.trans (codes_of_empty ⟨quotes, whole⟩)
  · rintro ⟨unread, nonempty⟩
    obtain ⟨quote, elements, consists, filled, -⟩ | ⟨quote, consists, -⟩ | found :=
      codes_cases literal
    · exact absurd ⟨quote, elements, consists, filled⟩ unread
    · exact absurd ⟨quote, consists.quotes, consists.whole⟩ nonempty
    · exact found

/-- A quote of the other kind needs no backslash, and a quote after one ends no literal.
-/
example : codes "'\"\\n'" = .ok [34, 10] := by rfl
example : codes "\"a\\\"" = .error (.malformedString "\"a\\\"") := by rfl

end TwoPass.Literal
