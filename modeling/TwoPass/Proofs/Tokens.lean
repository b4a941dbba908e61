import TwoPass.Line.Token

/-! # Lines and tokens of joined text

Text is cut into lines, and a line into tokens, at single characters. So text that is
joined at such a character is cut there, and each part is cut as if it stood alone. -/

namespace TwoPass

/-! ## Pieces -/

section Pieces

variable {separates : α → Bool} {separator : α}

theorem pieces_cons_of_separates (cuts : separates separator = true) (items : List α) :
    pieces separates (separator :: items) = [] :: pieces separates items :=
  if_pos cuts

theorem pieces_cons_of_not {item : α} (plain : separates item = false) {items piece : List α}
    {others : List (List α)} (rest : pieces separates items = piece :: others) :
    pieces separates (item :: items) = (item :: piece) :: others := by
  rw [pieces] at rest ⊢
  rw [List.foldr_cons, rest, if_neg (ne_true_of_eq_false plain)]

theorem exists_pieces (separates : α → Bool) (items : List α) :
    ∃ piece others, pieces separates items = piece :: others := by
  induction items with
  | nil => exact ⟨[], [], rfl⟩
  | cons item items induction =>
      rcases induction with ⟨piece, others, rest⟩
      cases cuts : separates item with
      | true => exact ⟨[], _, pieces_cons_of_separates cuts items⟩
      | false => exact ⟨_, _, pieces_cons_of_not cuts rest⟩

theorem pieces_append (cuts : separates separator = true) (first second : List α) :
    pieces separates (first ++ separator :: second) =
      pieces separates first ++ pieces separates second := by
  induction first with
  | nil => exact pieces_cons_of_separates cuts second
  | cons item first induction =>
      rcases exists_pieces separates first with ⟨piece, others, front⟩
      rw [front] at induction
      cases here : separates item with
      | true =>
          rw [List.cons_append, pieces_cons_of_separates here, pieces_cons_of_separates here,
            induction, front]
          rfl
      | false =>
          rw [List.cons_append, pieces_cons_of_not here induction, pieces_cons_of_not here front]
          rfl

theorem pieces_of_unseparated {items : List α}
    (plain : ∀ item ∈ items, separates item = false) : pieces separates items = [items] := by
  induction items with
  | nil => rfl
  | cons item items induction =>
      have rest := induction fun other member => plain other (List.mem_cons_of_mem item member)
      exact pieces_cons_of_not (plain item List.mem_cons_self) rest

theorem mem_and_not_of_mem_pieces {items piece : List α}
    (member : piece ∈ pieces separates items) :
    ∀ item ∈ piece, item ∈ items ∧ separates item = false := by
  induction items generalizing piece with
  | nil =>
      rw [List.mem_singleton.mp member]
      exact fun item impossible => absurd impossible List.not_mem_nil
  | cons first items induction =>
      have later {piece : List α} (member : piece ∈ pieces separates items) :
          ∀ item ∈ piece, item ∈ first :: items ∧ separates item = false := fun item own =>
        ⟨List.mem_cons_of_mem first (induction member item own).1, (induction member item own).2⟩
      rcases exists_pieces separates items with ⟨head, others, rest⟩
      rw [rest] at later
      cases cuts : separates first with
      | true =>
          rw [pieces_cons_of_separates cuts, rest] at member
          rcases List.mem_cons.mp member with rfl | present
          · exact fun item impossible => absurd impossible List.not_mem_nil
          · exact later present
      | false =>
          rw [pieces_cons_of_not cuts rest] at member
          rcases List.mem_cons.mp member with rfl | present
          · exact List.forall_mem_cons.mpr
              ⟨⟨List.mem_cons_self, cuts⟩, later List.mem_cons_self⟩
          · exact later (List.mem_cons_of_mem head present)

theorem words_append (cuts : separates separator = true) (first second : List α) :
    words separates (first ++ separator :: second) =
      words separates first ++ words separates second := by
  rw [words, pieces_append cuts, List.filter_append]
  rfl

theorem words_of_unseparated {items : List α} (some : items ≠ [])
    (plain : ∀ item ∈ items, separates item = false) : words separates items = [items] := by
  rw [words, pieces_of_unseparated plain]
  cases items with
  | nil => exact absurd rfl some
  | cons item items => rfl

theorem words_cons_of_separates (cuts : separates separator = true) (items : List α) :
    words separates (separator :: items) = words separates items :=
  words_append cuts [] items

theorem words_separators_append {separators : List α}
    (all : ∀ item ∈ separators, separates item = true) (items : List α) :
    words separates (separators ++ items) = words separates items := by
  induction separators with
  | nil => rfl
  | cons item separators induction =>
      rw [List.cons_append, words_cons_of_separates (all item List.mem_cons_self)]
      exact induction fun other member => all other (List.mem_cons_of_mem item member)

theorem words_append_of_ends {first : List α} (ends : first.getLast?.all separates = true)
    (second : List α) :
    words separates (first ++ second) = words separates first ++ words separates second := by
  obtain rfl | ⟨init, last, rfl⟩ := List.eq_nil_or_concat first
  · rfl
  · have cuts : separates last = true := by simpa using ends
    have empty : words separates ([] : List α) = [] := rfl
    rw [List.concat_eq_append, List.append_assoc, List.singleton_append, words_append cuts,
      words_append cuts, empty, List.append_nil]

theorem words_append_of_starts (first : List α) {second : List α}
    (starts : second.head?.all separates = true) :
    words separates (first ++ second) = words separates first ++ words separates second := by
  cases second with
  | nil => rw [List.append_nil]; exact (List.append_nil _).symm
  | cons separator second =>
      have cuts : separates separator = true := by simpa using starts
      rw [words_append cuts, words_cons_of_separates cuts]

/-- The word that a sequence starts with, perhaps an empty one. -/
theorem exists_leading (separates : α → Bool) (items : List α) :
    ∃ word rest, items = word ++ rest ∧ (∀ item ∈ word, separates item = false) ∧
      rest.head?.all separates = true := by
  refine ⟨items.takeWhile (!separates ·), items.dropWhile (!separates ·),
    List.takeWhile_append_dropWhile.symm, fun item member => ?_, ?_⟩
  · simpa using List.all_eq_true.mp List.all_takeWhile item member
  · have stop := List.head?_dropWhile_not (!separates ·) items
    cases first : (items.dropWhile (!separates ·)).head? with
    | none => rfl
    | some item => simpa [first] using stop

theorem exists_trailing (separates : α → Bool) (items : List α) :
    ∃ rest word, items = rest ++ word ∧ (∀ item ∈ word, separates item = false) ∧
      rest.getLast?.all separates = true := by
  obtain ⟨word, rest, whole, plain, starts⟩ := exists_leading separates items.reverse
  refine ⟨rest.reverse, word.reverse, ?_, fun item member => plain item ?_, ?_⟩
  · rw [← List.reverse_append, ← whole, List.reverse_reverse]
  · exact List.mem_reverse.mp member
  · rw [List.getLast?_reverse]
    exact starts

end Pieces

/-! ## Lines -/

namespace SourceLine

theorem split_eq_append (ended rest : List Char) :
    split (ended ++ '\n' :: rest) =
      (pieces (· == '\n') ended).map dropReturn ++ split rest := by
  have cut := @pieces_append Char (· == '\n') '\n' rfl ended rest
  rcases exists_pieces (· == '\n') rest with ⟨piece, others, lines⟩
  have last : (pieces (· == '\n') ended ++ piece :: others).getLast? =
      (piece :: others).getLast? := by
    rw [List.getLast?_append, List.getLast?_cons, Option.some_or]
  rw [lines] at cut
  simp only [split, cut, lines]
  rw [last, List.dropLast_append_of_ne_nil (List.cons_ne_nil piece others), List.map_append]
  split <;> simp

theorem split_append (ended rest : List Char) :
    split (ended ++ '\n' :: rest) = split (ended ++ ['\n']) ++ split rest := by
  have empty : split [] = [] := rfl
  rw [split_eq_append, split_eq_append, empty, List.append_nil]

theorem pieces_of_line {line : List Char} (single : ∀ character ∈ line, character ≠ '\n') :
    pieces (· == '\n') line = [line] :=
  pieces_of_unseparated fun character member => beq_eq_false_iff_ne.mpr (single character member)

theorem split_line {line : List Char} (single : ∀ character ∈ line, character ≠ '\n')
    (rest : List Char) : split (line ++ '\n' :: rest) = dropReturn line :: split rest := by
  rw [split_eq_append, pieces_of_line single]
  rfl

theorem split_last {line : List Char} (single : ∀ character ∈ line, character ≠ '\n')
    (some : line ≠ []) : split line = [line] := by
  cases line with
  | nil => exact absurd rfl some
  | cons first rest => simp only [split, pieces_of_line single, List.getLast?_singleton]; rfl

theorem ofText_append (before rest : String) :
    ofText (before ++ "\n" ++ rest) =
      ofText (before ++ "\n") ++
        ((split rest.toList).zipIdx (ofText (before ++ "\n")).length).map fun entry =>
          ⟨entry.2, String.ofList entry.1⟩ := by
  have feed : "\n".toList = ['\n'] := by decide
  have joined : (before ++ "\n" ++ rest).toList = before.toList ++ '\n' :: rest.toList := by
    rw [String.toList_append, String.toList_append, feed, List.append_assoc]
    rfl
  have ended : (before ++ "\n").toList = before.toList ++ ['\n'] := by
    rw [String.toList_append, feed]
  rw [ofText, ofText, joined, ended, split_append]
  simp only [List.zipIdx_append, List.map_append, List.length_map, List.length_zipIdx,
    Nat.zero_add]

theorem split_of_ends {line ending : List Char} (single : ∀ character ∈ line, character ≠ '\n')
    (some : line ≠ []) (ends : ending = [] ∨ ∃ after, ending = '\n' :: after) :
    ∃ own others, split (line ++ ending) = own :: others ∧
      (own = line ∨ own = dropReturn line) ∧
      ∀ after, ending = '\n' :: after → others = split after := by
  rcases ends with rfl | ⟨after, rfl⟩
  · rw [List.append_nil]
    exact ⟨line, [], split_last single some, .inl rfl, nofun⟩
  · refine ⟨dropReturn line, split after, split_line single after, .inr rfl, ?_⟩
    rintro same ⟨⟩
    rfl

end SourceLine

/-! ## Tokens -/

theorem not_isQuote_of_isBlank {character : Char} (blank : isBlank character = true) :
    isQuote character = false := by
  apply Bool.eq_false_iff.mpr
  intro quote
  simp only [isQuote, Bool.or_eq_true, beq_iff_eq] at quote
  rcases quote with rfl | rfl <;> revert blank <;> decide

theorem tokenize_of_unquoted {line : List Char}
    (unquoted : ∀ character ∈ line, isQuote character = false) :
    tokenize line = (words separatesTokens line).map String.ofList := by
  have plain : ∀ character ∈ line, (!isQuote character) = true := by simpa using unquoted
  have front : (line ++ []).takeWhile (!isQuote ·) = line ++ [] :=
    List.takeWhile_append_of_pos plain
  have back : (line ++ []).dropWhile (!isQuote ·) = [] := List.dropWhile_append_of_pos plain
  rw [List.append_nil] at front back
  simp [tokenize, front, back]

theorem tokenize_append_of_words {front rest : List Char}
    (unquoted : ∀ character ∈ front, isQuote character = false)
    (cut : words separatesTokens (front ++ rest.takeWhile (!isQuote ·)) =
      words separatesTokens front ++ words separatesTokens (rest.takeWhile (!isQuote ·))) :
    tokenize (front ++ rest) = tokenize front ++ tokenize rest := by
  have before : ∀ character ∈ front, (!isQuote character) = true := by simpa using unquoted
  rw [tokenize_of_unquoted unquoted, tokenize, tokenize, List.takeWhile_append_of_pos before,
    List.dropWhile_append_of_pos before, cut, List.append_assoc, List.map_append]

theorem tokenize_append_of_ends {front : List Char}
    (unquoted : ∀ character ∈ front, isQuote character = false)
    (ends : front.getLast?.all separatesTokens = true) (rest : List Char) :
    tokenize (front ++ rest) = tokenize front ++ tokenize rest :=
  tokenize_append_of_words unquoted (words_append_of_ends ends _)

/-- What may stand right after a token: a separator, a literal, or nothing. -/
def EndsToken (rest : List Char) : Prop :=
  ∀ first ∈ rest.head?, separatesTokens first = true ∨ isQuote first = true

theorem tokenize_append_of_endsToken {front rest : List Char}
    (unquoted : ∀ character ∈ front, isQuote character = false) (ends : EndsToken rest) :
    tokenize (front ++ rest) = tokenize front ++ tokenize rest := by
  apply tokenize_append_of_words unquoted
  apply words_append_of_starts
  cases rest with
  | nil => rfl
  | cons first rest =>
      cases quotes : isQuote first with
      | true => simp [quotes]
      | false =>
          have cuts : separatesTokens first = true := by simpa [quotes] using ends first rfl
          simp [quotes, cuts]

theorem tokenize_append {word : List Char} {separator : Char} (some : word ≠ [])
    (plain : ∀ character ∈ word, separatesTokens character = false ∧ isQuote character = false)
    (cuts : separatesTokens separator = true) (unquoted : isQuote separator = false)
    (rest : List Char) :
    tokenize (word ++ separator :: rest) = String.ofList word :: tokenize rest := by
  have before : ∀ character ∈ word ++ [separator], isQuote character = false := by
    rw [List.forall_mem_append]
    exact ⟨fun character member => (plain character member).2, by simpa using unquoted⟩
  have ends : (word ++ [separator]).getLast?.all separatesTokens = true := by simpa using cuts
  rw [← List.singleton_append, ← List.append_assoc, tokenize_append_of_ends before ends,
    tokenize_of_unquoted before, words_append cuts,
    words_of_unseparated some fun character member => (plain character member).1]
  rfl

theorem tokenize_of_quote {quote : Char} (quotes : isQuote quote = true) (rest : List Char) :
    tokenize (quote :: rest) = [String.ofList (trimEnd (quote :: rest))] := by
  simp [tokenize, quotes, words, pieces]

theorem exists_trimEnd_cons {first : Char} (visible : isBlank first = false) (rest : List Char) :
    ∃ trimmed, trimEnd (first :: rest) = first :: trimmed := by
  rw [trimEnd, List.reverse_cons, List.dropWhile_append]
  split
  · exact ⟨[], by simp [visible]⟩
  · exact ⟨_, List.reverse_append⟩

/-- What stands before the first quote of a line, and the literal there, if any. -/
theorem exists_literal (line : List Char) :
    ∃ front literal, line = front ++ literal ∧
      (∀ character ∈ front, isQuote character = false) ∧
      ∀ first ∈ literal.head?, isQuote first = true := by
  rcases exists_leading isQuote line with ⟨front, literal, whole, unquoted, starts⟩
  refine ⟨front, literal, whole, unquoted, fun first member => ?_⟩
  rw [Option.mem_def.mp member] at starts
  exact starts

theorem exists_trimEnd_of_quote {quote : Char} (quotes : isQuote quote = true)
    (rest : List Char) : ∃ trimmed, trimEnd (quote :: rest) = quote :: trimmed := by
  apply exists_trimEnd_cons
  apply Bool.eq_false_iff.mpr
  intro blank
  cases quotes.symm.trans (not_isQuote_of_isBlank blank)

theorem unquoted_of_tokenize {line : List Char}
    (heads : ∀ token ∈ tokenize line, token.toList.head?.all (!isQuote ·) = true) :
    ∀ character ∈ line, isQuote character = false := by
  rcases exists_literal line with ⟨front, literal, rfl, unquoted, quoted⟩
  cases literal with
  | nil => simpa using unquoted
  | cons quote rest =>
      have quotes := quoted quote rfl
      rcases exists_trimEnd_of_quote quotes rest with ⟨trimmed, kept⟩
      have ends : EndsToken (quote :: rest) := fun first member => .inr (quoted first member)
      rw [tokenize_append_of_endsToken unquoted ends, tokenize_of_quote quotes, kept] at heads
      have plain := heads (String.ofList (quote :: trimmed)) (by simp)
      simp [quotes] at plain

end TwoPass
