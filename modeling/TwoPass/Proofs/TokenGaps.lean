import TwoPass.Proofs.FixupOrder
import TwoPass.Proofs.Locality
import TwoPass.Proofs.NormalLines
import TwoPass.Proofs.Provenance
import TwoPass.Proofs.Tokens

/-! # Gaps between tokens

Commas, colons and blanks set tokens apart, and any mixture of them does. So a line gives its
tokens back whatever gaps are chosen, and the text that the trace shows of a statement gives
back what the statement was read from. -/

namespace TwoPass

/-! ## Tokens and gaps -/

/-- Text of commas, colons and blanks only. -/
def Gap (text : List Char) : Prop :=
  ∀ character ∈ text, character = ',' ∨ character = ':' ∨ isBlank character = true

/-- A token in which nothing sets characters apart and no literal starts. -/
structure PlainToken (token : String) : Prop where
  nonempty : token ≠ ""
  unbroken : ∀ character ∈ token.toList,
    character ≠ ',' ∧ character ≠ ':' ∧ isBlank character = false ∧
      character ≠ '"' ∧ character ≠ '\''

/-- A literal as a token: it starts with a quote and does not end in blanks. -/
structure LiteralToken (token : String) : Prop where
  quoted : ∃ quote rest, isQuote quote = true ∧ token.toList = quote :: rest
  trimmed : trimEnd token.toList = token.toList

inductive Spaced : List String → List Char → Prop where
  | none : Spaced [] []
  | single (token : String) : Spaced [token] token.toList
  | more (token : String) {next : String} {tokens : List String} {gap rest : List Char}
      (some : gap ≠ []) (separates : Gap gap) (later : Spaced (next :: tokens) rest) :
      Spaced (token :: next :: tokens) (token.toList ++ gap ++ rest)

structure Stripped (text kept : List Char) : Prop where
  ending : ∃ blanks, Blanks blanks ∧ text = kept ++ blanks
  visible : ∀ last ∈ kept.getLast?, isBlank last = false

theorem separatesTokens_iff (character : Char) :
    separatesTokens character = true ↔
      character = ',' ∨ character = ':' ∨ isBlank character = true := by
  simp [separatesTokens, or_assoc]

theorem plain_iff (character : Char) :
    (separatesTokens character = false ∧ isQuote character = false) ↔
      character ≠ ',' ∧ character ≠ ':' ∧ isBlank character = false ∧
        character ≠ '"' ∧ character ≠ '\'' := by
  simp [separatesTokens, isQuote, and_assoc]

instance (text : List Char) : Decidable (Gap text) :=
  decidable_of_iff (text.all separatesTokens = true) <| by
    simp only [List.all_eq_true, separatesTokens_iff, Gap]

instance (token : String) : Decidable (PlainToken token) :=
  decidable_of_iff
    (token ≠ "" ∧
      token.toList.all (fun character => !separatesTokens character && !isQuote character) = true)
    <| by
      simp only [List.all_eq_true, Bool.and_eq_true, Bool.not_eq_true', plain_iff]
      exact ⟨fun plain => ⟨plain.1, plain.2⟩, fun plain => ⟨plain.nonempty, plain.unbroken⟩⟩

theorem not_isQuote_of_separatesTokens {character : Char}
    (separates : separatesTokens character = true) : isQuote character = false := by
  rcases (separatesTokens_iff character).mp separates with rfl | rfl | blank
  · rfl
  · rfl
  · exact not_isQuote_of_isBlank blank

theorem stripped_trimEnd (text : List Char) : Stripped text (trimEnd text) where
  ending := ⟨text.rtakeWhile isBlank, fun _ member => List.mem_rtakeWhile_imp member,
    List.rdropWhile_append_rtakeWhile.symm⟩
  visible := by
    intro last member
    have stop := List.head?_dropWhile_not isBlank text.reverse
    rw [trimEnd, List.getLast?_reverse] at member
    rw [member] at stop
    simpa using stop

/-! ## What each part of a line gives -/

namespace Gap

theorem nil : Gap [] :=
  fun _ member => absurd member List.not_mem_nil

variable {gap : List Char} (separates : Gap gap)
include separates

theorem separatesTokens : ∀ character ∈ gap, separatesTokens character = true :=
  fun character member => (separatesTokens_iff character).mpr (separates character member)

theorem tokenize_append (rest : List Char) : tokenize (gap ++ rest) = tokenize rest := by
  have cuts := separates.separatesTokens
  have unquoted : ∀ character ∈ gap, isQuote character = false :=
    fun character member => not_isQuote_of_separatesTokens (cuts character member)
  have ends : gap.getLast?.all TwoPass.separatesTokens = true := by
    cases last : gap.getLast? with
    | none => rfl
    | some character => exact cuts character (List.mem_of_getLast? last)
  have nothing : words TwoPass.separatesTokens (gap ++ []) = [] :=
    words_separators_append cuts []
  rw [List.append_nil] at nothing
  rw [tokenize_append_of_ends unquoted ends, tokenize_of_unquoted unquoted, nothing]
  rfl

/-- A gap ends the token before it, and if it is empty what comes next has to. -/
theorem endsToken {rest : List Char} (ends : gap = [] → EndsToken rest) :
    EndsToken (gap ++ rest) := by
  cases gap with
  | nil => exact ends rfl
  | cons separator others =>
      intro first member
      rw [← Option.some.inj member]
      exact .inl (separates.separatesTokens separator List.mem_cons_self)

end Gap

namespace PlainToken

variable {token : String} (plain : PlainToken token)
include plain

theorem unquoted : ∀ character ∈ token.toList, isQuote character = false :=
  fun character member => ((plain_iff character).mpr (plain.unbroken character member)).2

theorem tokenize_eq : tokenize token.toList = [token] := by
  have some : token.toList ≠ [] := by simpa using plain.nonempty
  have whole := words_of_unseparated some fun character member =>
    ((plain_iff character).mpr (plain.unbroken character member)).1
  rw [tokenize_of_unquoted plain.unquoted, whole, List.map_singleton, String.ofList_toList]

end PlainToken

theorem plain_of_mem_words {front word : List Char}
    (unquoted : ∀ character ∈ front, isQuote character = false)
    (member : word ∈ words separatesTokens front) : PlainToken (String.ofList word) := by
  rcases List.mem_filter.mp member with ⟨piece, some⟩
  refine ⟨by simpa using some, fun character own => (plain_iff character).mp ?_⟩
  rw [String.toList_ofList] at own
  rcases mem_and_not_of_mem_pieces piece character own with ⟨present, plain⟩
  exact ⟨plain, unquoted character present⟩

theorem exists_tokenize (line : List Char) :
    ∃ (tokens : List String) (literal? : Option String),
      tokenize line = tokens ++ literal?.toList ∧ (∀ token ∈ tokens, PlainToken token) ∧
      ∀ literal ∈ literal?, LiteralToken literal := by
  rcases exists_literal line with ⟨front, ending, rfl, unquoted, quoted⟩
  have plain : ∀ token ∈ tokenize front, PlainToken token := by
    rw [tokenize_of_unquoted unquoted, List.forall_mem_map]
    exact fun word member => plain_of_mem_words unquoted member
  have cut := tokenize_append_of_endsToken unquoted fun first member =>
    .inr (quoted first member)
  cases ending with
  | nil => exact ⟨tokenize front, none, cut, plain, fun _ absent => by cases absent⟩
  | cons quote rest =>
      have quotes := quoted quote rfl
      rcases exists_trimEnd_of_quote quotes rest with ⟨trimmed, kept⟩
      rw [tokenize_of_quote quotes] at cut
      refine ⟨tokenize front, some _, cut, plain, ?_⟩
      rintro literal ⟨⟩
      refine ⟨⟨quote, trimmed, quotes, by rw [String.toList_ofList, kept]⟩, ?_⟩
      rw [String.toList_ofList]
      exact List.rdropWhile_idempotent isBlank (quote :: rest)

/-! ## Lines of spaced tokens -/

namespace Spaced

section Plain

variable {tokens : List String} {text : List Char} (spaced : Spaced tokens text)
  (plain : ∀ token ∈ tokens, PlainToken token)
include spaced plain

theorem tokenize_append {rest : List Char} (ends : EndsToken rest) :
    tokenize (text ++ rest) = tokens ++ tokenize rest := by
  induction spaced with
  | none => rfl
  | single token =>
      have own := plain token List.mem_cons_self
      rw [tokenize_append_of_endsToken own.unquoted ends, own.tokenize_eq]
  | @more token next tokens gap text some separates later induction =>
      rw [List.forall_mem_cons] at plain
      have cut : EndsToken (gap ++ (text ++ rest)) :=
        separates.endsToken fun empty => absurd empty some
      rw [List.append_assoc, List.append_assoc, tokenize_append_of_endsToken plain.1.unquoted cut,
        plain.1.tokenize_eq, separates.tokenize_append, induction plain.2]
      rfl

variable {before after : List Char} (leading : Gap before) (trailing : Gap after)
include leading trailing

/-- Gaps around spaced tokens do not matter, with a literal after them or without. -/
theorem tokenize_among_gaps {ending : List Char}
    (quoted : ∀ first ∈ ending.head?, isQuote first = true) :
    tokenize (before ++ text ++ after ++ ending) = tokens ++ tokenize ending := by
  have ends : EndsToken (after ++ ending) :=
    trailing.endsToken fun _ first member => .inr (quoted first member)
  rw [List.append_assoc, List.append_assoc, leading.tokenize_append,
    spaced.tokenize_append plain ends, trailing.tokenize_append]

theorem tokenize_eq : tokenize (before ++ text ++ after) = tokens := by
  have whole : tokenize (before ++ text ++ after ++ []) = tokens ++ tokenize [] :=
    spaced.tokenize_among_gaps plain leading trailing fun first absent => by cases absent
  rw [List.append_nil] at whole
  exact whole.trans (List.append_nil tokens)

theorem tokenize_quoted {quote : Char} (quotes : isQuote quote = true) (rest : List Char) :
    tokenize (before ++ text ++ after ++ quote :: rest) =
      tokens ++ [String.ofList (trimEnd (quote :: rest))] := by
  have quoted : ∀ first ∈ (quote :: rest).head?, isQuote first = true := by simpa using quotes
  rw [spaced.tokenize_among_gaps plain leading trailing quoted, tokenize_of_quote quotes]

end Plain

variable {tokens : List String} {text : List Char}

theorem exists_of_concat {last : String} (spaced : Spaced (tokens ++ [last]) text) :
    ∃ front gap, Spaced tokens front ∧ Gap gap ∧ text = front ++ gap ++ last.toList := by
  induction tokens generalizing text with
  | nil =>
      cases spaced with
      | single => exact ⟨[], [], .none, Gap.nil, rfl⟩
  | cons token tokens induction =>
      cases tokens with
      | nil =>
          cases spaced with
          | @more _ _ _ gap _ some separates later =>
              cases later with
              | single => exact ⟨token.toList, gap, .single token, separates, rfl⟩
      | cons next tokens =>
          cases spaced with
          | more _ some separates later =>
              rcases induction later with ⟨front, gap, earlier, parts, rfl⟩
              refine ⟨_, gap, .more token some separates earlier, parts, ?_⟩
              simp only [List.append_assoc]

theorem tokenize_of_literal? {literal? : Option String}
    (spaced : Spaced (tokens ++ literal?.toList) text)
    (plain : ∀ token ∈ tokens, PlainToken token)
    (literal : ∀ last ∈ literal?, LiteralToken last) :
    tokenize text = tokens ++ literal?.toList := by
  cases literal? with
  | none =>
      rw [Option.toList_none, List.append_nil] at spaced
      rw [Option.toList_none, List.append_nil]
      have read := spaced.tokenize_eq plain .nil .nil
      rwa [List.append_nil, List.nil_append] at read
  | some last =>
      rcases spaced.exists_of_concat with ⟨front, gap, earlier, separates, rfl⟩
      rcases literal last rfl with ⟨⟨quote, rest, quotes, spelled⟩, trimmed⟩
      have read := earlier.tokenize_quoted plain .nil separates quotes rest
      rwa [← spelled, trimmed, String.ofList_toList] at read

end Spaced

/-! ## Statements as they are shown -/

theorem spaced_intercalate (operands : List String) :
    Spaced operands (", ".intercalate operands).toList := by
  induction operands with
  | nil => exact .none
  | cons operand operands induction =>
      cases operands with
      | nil => exact .single operand
      | cons next operands =>
          rw [String.intercalate_cons_cons, String.toList_append, String.toList_append]
          exact .more operand (by decide) (by decide) induction

namespace Statement

theorem spaced_text (statement : Statement) :
    Spaced (statement.name :: statement.operands) statement.text.toList := by
  unfold text
  split
  · rename_i alone
    rw [alone]
    exact .single statement.name
  · rename_i operands some
    cases shown : statement.operands with
    | nil => exact absurd shown some
    | cons operand operands =>
        rw [String.toList_append, String.toList_append]
        exact .more statement.name (by decide) (by decide) (spaced_intercalate _)

theorem tokenize_text {statement : Statement} {line : List Char} {lead : List String}
    (spelled : tokenize line = lead ++ statement.name :: statement.operands) :
    tokenize statement.text.toList = statement.name :: statement.operands := by
  have shown := statement.spaced_text
  rcases exists_tokenize line with ⟨tokens, literal?, whole, plain, literal⟩
  rw [spelled] at whole
  rcases List.append_eq_append_iff.mp whole with ⟨own, rfl, parts⟩ | ⟨before, -, parts⟩
  · rw [parts] at shown ⊢
    exact shown.tokenize_of_literal? (List.forall_mem_append.mp plain).2 literal
  · -- A literal is one token, so the statement has no other.
    have alone : literal?.toList = statement.name :: statement.operands := by
      cases literal? with
      | none => cases before <;> cases parts
      | some last =>
          rcases List.append_eq_singleton_iff.mp parts.symm with ⟨-, own⟩ | ⟨-, absent⟩
          · exact own.symm
          · cases absent
    rw [← alone] at shown ⊢
    have read : tokenize statement.text.toList = [] ++ literal?.toList :=
      shown.tokenize_of_literal? (fun _ member => absurd member List.not_mem_nil) literal
    exact read

end Statement

theorem Run.exists_spelled_of_fixup {options : Options} {source : String} {fixup : Fixup}
    (member : fixup ∈ (ofSource options source).scan.fixups) :
    ∃ lead, tokenize fixup.line.normal =
      lead ++ fixup.statement.name :: fixup.statement.operands := by
  rcases exists_placement_of_fixup member with ⟨placement, placed, rfl⟩
  let parts := options.profile.takeLabel placement.line.tokens
  have spelled : parts.statement = placement.statement.name :: placement.statement.operands :=
    (Outline.ofLines_spelled (action_of_placement placed)).statement_eq
  have taken : options.profile.takeLabel placement.line.tokens =
      ⟨parts.label, placement.statement.name :: placement.statement.operands⟩ := by
    rw [← spelled]
  exact ⟨parts.label.toList, (Profile.eq_append_of_takeLabel taken).1⟩

/-- Tokens that any mixture of commas, colons and blanks sets apart are the tokens of their
line, and a literal after them is one token more, without the blanks at its end. So the text
of a fixup gives back the name and the operands of its statement. -/
theorem tokens_whatever_the_gaps (options : Options) (source : String) :
    (∀ (tokens : List String) (before text after : List Char),
      (∀ token ∈ tokens, PlainToken token) → Spaced tokens text → Gap before → Gap after →
        tokenize (before ++ text ++ after) = tokens ∧
        ∀ quote rest, quote = '"' ∨ quote = '\'' →
          ∃ kept, Stripped (quote :: rest) kept ∧
            tokenize (before ++ text ++ after ++ quote :: rest) =
              tokens ++ [String.ofList kept]) ∧
    ∀ fixup ∈ (Run.ofSource options source).scan.fixups,
      tokenize fixup.statement.text.toList =
        fixup.statement.name :: fixup.statement.operands := by
  constructor
  · intro tokens before text after plain spaced leading trailing
    refine ⟨spaced.tokenize_eq plain leading trailing, fun quote rest quoted => ?_⟩
    have quotes : isQuote quote = true := by simpa [isQuote] using quoted
    exact ⟨trimEnd (quote :: rest), stripped_trimEnd (quote :: rest),
      spaced.tokenize_quoted plain leading trailing quotes rest⟩
  · intro fixup member
    rcases Run.exists_spelled_of_fixup member with ⟨lead, spelled⟩
    exact Statement.tokenize_text spelled

/-- The gaps hold a wide blank and repeated marks, and the literal holds marks of its
own. -/
theorem tokens_among_mixed_gaps :
    let tokens := ["loop", "ldr", "r0", "[r1"]
    let text := "loop:\u2003ldr ,,r0: [r1".toList
    let before := [',', ' ']
    let after := [':']
    let rest := "a, b: ".toList
    let source := ".orig x3000\nstart:br , far\n.blkw 2:far\nfar .fill far\n.end"
    let fixups := (Run.ofSource {} source).scan.fixups
    (∀ token ∈ tokens, PlainToken token) ∧ Spaced tokens text ∧ Gap before ∧ Gap after ∧
    tokenize (before ++ text ++ after) = tokens ∧
    (∃ kept, Stripped ('"' :: rest) kept ∧
      tokenize (before ++ text ++ after ++ '"' :: rest) = tokens ++ [String.ofList kept]) ∧
    fixups.map (·.statement.text) = ["br far", ".blkw 2, far"] ∧
    ∀ fixup ∈ fixups,
      tokenize fixup.statement.text.toList =
        fixup.statement.name :: fixup.statement.operands := by
  intro tokens text before after rest source fixups
  have plain : ∀ token ∈ tokens, PlainToken token := by decide
  have last : Spaced ["r0", "[r1"] "r0: [r1".toList :=
    @Spaced.more "r0" "[r1" [] ": ".toList _ (by decide) (by decide) (.single "[r1")
  have middle : Spaced ["ldr", "r0", "[r1"] "ldr ,,r0: [r1".toList :=
    @Spaced.more "ldr" "r0" ["[r1"] " ,,".toList _ (by decide) (by decide) last
  have spaced : Spaced tokens text :=
    @Spaced.more "loop" "ldr" ["r0", "[r1"] ":\u2003".toList _ (by decide) (by decide) middle
  have leading : Gap before := by decide
  have trailing : Gap after := by decide
  rcases tokens_whatever_the_gaps {} source with ⟨law, shown⟩
  rcases law tokens before text after plain spaced leading trailing with ⟨read, quoted⟩
  exact ⟨plain, spaced, leading, trailing, read, quoted '"' rest (.inl rfl), by decide +kernel,
    shown⟩

end TwoPass
