import Mathlib.Data.List.DropRight
import TwoPass.Proofs.LowerCaseForms

/-! # Normal lines

What is left of a line when its comment is cut off, its blanks are trimmed and its case is
folded is left as it is when the same is done again. A line whose literals are all closed
is told apart from others by what stands in its literals and, but for case, outside them. -/

namespace TwoPass

/-! ## Trimming -/

def Blanks (text : List Char) : Prop :=
  ∀ character ∈ text, isBlank character = true

instance (text : List Char) : Decidable (Blanks text) :=
  decidable_of_iff (text.all isBlank = true) List.all_eq_true

theorem trimStart_of_blanks {blanks : List Char} (blank : Blanks blanks) (text : List Char) :
    trimStart (blanks ++ text) = trimStart text :=
  List.dropWhile_append_of_pos blank

theorem trimEnd_of_blanks {blanks : List Char} (blank : Blanks blanks) (text : List Char) :
    trimEnd (text ++ blanks) = trimEnd text := by
  unfold trimEnd
  rw [List.reverse_append, List.dropWhile_append_of_pos]
  exact fun character member => blank character (List.mem_reverse.mp member)

theorem blanks_takeWhile (text : List Char) : Blanks (text.takeWhile isBlank) :=
  fun _ member => List.mem_takeWhile_imp member

theorem trim_surrounded {before after : List Char} (blankBefore : Blanks before)
    (blankAfter : Blanks after) (text : List Char) :
    trim (before ++ text ++ after) = trim text := by
  have started : trimStart (before ++ text ++ after) = trimStart (text ++ after) := by
    rw [List.append_assoc, trimStart_of_blanks blankBefore]
  rw [trim, started, trimStart, List.dropWhile_append]
  split
  · rename_i nothing
    have empty : trimStart text = [] := List.isEmpty_iff.mp nothing
    have gone : trimStart after = [] := List.dropWhile_eq_nil_iff.mpr blankAfter
    rw [trim, empty]
    exact congrArg trimEnd gone
  · exact trimEnd_of_blanks blankAfter _

theorem exists_trim (text : List Char) :
    ∃ before after, Blanks before ∧ Blanks after ∧ text = before ++ trim text ++ after := by
  refine ⟨text.takeWhile isBlank, (trimStart text).rtakeWhile isBlank, blanks_takeWhile text,
    fun _ member => List.mem_rtakeWhile_imp member, ?_⟩
  have ending : trim text ++ (trimStart text).rtakeWhile isBlank = trimStart text :=
    List.rdropWhile_append_rtakeWhile
  rw [List.append_assoc, ending]
  exact (List.takeWhile_append_dropWhile).symm

theorem trim_trim (text : List Char) : trim (trim text) = trim text := by
  rcases exists_trim text with ⟨before, after, blankBefore, blankAfter, whole⟩
  calc trim (trim text) = trim (before ++ trim text ++ after) :=
        (trim_surrounded blankBefore blankAfter _).symm
    _ = trim text := by rw [← whole]

/-! ## Lines that folding keeps -/

def Quoting.next : Quoting → Char → Quoting
  | .outside, character => if isQuote character then .inside character else .outside
  | .inside quote, character =>
    if character = '\\' then .escaped quote
    else if character = quote then .outside
    else .inside quote
  | .escaped quote, _ => .inside quote

/-- A line without comment whose characters outside literals are in lower case. -/
inductive Settled : Quoting → List Char → Prop where
  | nil (quoting : Quoting) : Settled quoting []
  | outside {character : Char} {rest : List Char} (goesOn : character ≠ ';')
      (folded : lowerCase character = [character])
      (settled : Settled (Quoting.outside.next character) rest) :
      Settled .outside (character :: rest)
  | inside (quote : Char) {character : Char} {rest : List Char}
      (settled : Settled ((Quoting.inside quote).next character) rest) :
      Settled (.inside quote) (character :: rest)
  | escaped (quote : Char) {character : Char} {rest : List Char}
      (settled : Settled (.inside quote) rest) : Settled (.escaped quote) (character :: rest)

namespace Settled

variable {quoting : Quoting} {line rest : List Char}

theorem foldLine_eq (settled : Settled quoting line) : foldLine quoting line = line := by
  induction settled with
  | nil quoting => cases quoting <;> rfl
  | outside goesOn folded _ induction =>
      rw [foldLine, if_neg goesOn, folded]
      exact congrArg (_ :: ·) induction
  | inside quote _ induction =>
      rw [foldLine]
      exact congrArg (_ :: ·) induction
  | escaped quote _ induction =>
      rw [foldLine]
      exact congrArg (_ :: ·) induction

theorem of_append (settled : Settled quoting (line ++ rest)) : Settled quoting line := by
  induction line generalizing quoting with
  | nil => exact .nil quoting
  | cons character line induction =>
      cases settled with
      | outside goesOn folded settled => exact .outside goesOn folded (induction settled)
      | inside quote settled => exact .inside quote (induction settled)
      | escaped quote settled => exact .escaped quote (induction settled)

theorem append_iff (unmarked : ∀ character ∈ line, isMark character = false) :
    Settled .outside (line ++ rest) ↔
      (∀ character ∈ line, lowerCase character = [character]) ∧ Settled .outside rest := by
  induction line with
  | nil => simp
  | cons character line induction =>
      rcases List.forall_mem_cons.mp unmarked with ⟨plain, others⟩
      simp only [isMark, Bool.or_eq_false_iff, beq_eq_false_iff_ne] at plain
      have stays : Quoting.outside.next character = .outside := by simp [Quoting.next, plain.1]
      rw [List.forall_mem_cons, and_assoc, ← induction others]
      constructor
      · intro settled
        cases settled with
        | outside _ folded settled =>
            rw [stays] at settled
            exact ⟨folded, settled⟩
      · intro both
        refine .outside plain.2 both.1 ?_
        rw [stays]
        exact both.2

end Settled

theorem settled_foldLine (quoting : Quoting) (line : List Char) :
    Settled quoting (foldLine quoting line) := by
  induction line generalizing quoting with
  | nil => cases quoting <;> exact .nil _
  | cons character rest induction =>
      cases quoting with
      | inside quote => exact .inside quote (induction _)
      | escaped quote => exact .escaped quote (induction _)
      | outside =>
          rw [foldLine]
          split
          · exact .nil _
          · rename_i goesOn
            cases mark : isMark character with
            | true =>
                rw [lowerCase_of_isMark mark]
                exact .outside goesOn (lowerCase_of_isMark mark) (induction _)
            | false =>
                -- There may be more than one form, but none that opens a literal.
                have unquoted : isQuote character = false := (Bool.or_eq_false_iff.mp mark).1
                rw [unquoted]
                exact (Settled.append_iff fun form member => isMark_of_mem member mark).mpr
                  ⟨fun form member => lowerCase_of_mem member, induction _⟩

theorem settled_normalize (line : List Char) : Settled .outside (normalize line) := by
  rcases exists_trim (foldLine .outside line) with ⟨before, after, blankBefore, -, whole⟩
  have settled := settled_foldLine .outside line
  rw [whole, List.append_assoc] at settled
  have unmarked : ∀ character ∈ before, isMark character = false := fun character member =>
    isMark_of_isBlank (blankBefore character member)
  exact ((Settled.append_iff unmarked).mp settled).2.of_append

theorem normalize_normalize (line : List Char) : normalize (normalize line) = normalize line := by
  rw [normalize, (settled_normalize line).foldLine_eq]
  exact trim_trim _

/-! ## Lines of closed literals -/

/-- A part of a literal for a reader that looks for its end: a character, or a backslash and
whatever follows it. -/
inductive Inlay (quote : Char) where
  | plain (character : Char) (unescaped : character ≠ '\\') (unquoted : character ≠ quote)
  | escaped (mark : Char)

def Inlay.text {quote : Char} : Inlay quote → List Char
  | .plain character _ _ => [character]
  | .escaped mark => ['\\', mark]

/-- A part of a line without comment: a character outside literals, or a literal from quote
to quote. -/
inductive Segment where
  | plain (character : Char) (unmarked : isMark character = false)
  | literal (quote : Char) (quotes : isQuote quote = true) (inlays : List (Inlay quote))

namespace Segment

def text : Segment → List Char
  | .plain character _ => [character]
  | .literal quote _ inlays => quote :: (inlays.flatMap Inlay.text ++ [quote])

def literal? : Segment → Option (List Char)
  | .plain _ _ => none
  | .literal quote quotes inlays => some (text (.literal quote quotes inlays))

def line (segments : List Segment) : List Char :=
  segments.flatMap text

def literals (segments : List Segment) : List (List Char) :=
  segments.filterMap literal?

def folded : Segment → List Char
  | .plain character _ => lowerCase character
  | .literal quote quotes inlays => text (.literal quote quotes inlays)

/-- A segment as it may be spelled otherwise: letters of ASCII outside literals may change
their case. -/
inductive Recased : Segment → Segment → Prop where
  | plain {character other : Char} (same : character.toLower = other.toLower)
      (unmarked : isMark character = false) (otherUnmarked : isMark other = false) :
      Recased (.plain character unmarked) (.plain other otherUnmarked)
  | literal (quote : Char) (quotes : isQuote quote = true) (inlays : List (Inlay quote)) :
      Recased (.literal quote quotes inlays) (.literal quote quotes inlays)

theorem Recased.folded_eq {segment other : Segment} (recased : Recased segment other) :
    segment.folded = other.folded := by
  cases recased with
  | plain same => exact lowerCase_of_toLower_eq same
  | literal => rfl

theorem ne_of_isQuote {quote : Char} (quotes : isQuote quote = true) :
    quote ≠ ';' ∧ quote ≠ '\\' := by
  constructor <;> intro same <;> rw [same] at quotes <;> exact absurd quotes (by decide)

theorem foldLine_inlays {quote : Char} (inlays : List (Inlay quote)) (rest : List Char) :
    foldLine (.inside quote) (inlays.flatMap Inlay.text ++ quote :: rest) =
      inlays.flatMap Inlay.text ++ foldLine (.inside quote) (quote :: rest) := by
  induction inlays with
  | nil => rfl
  | cons inlay inlays induction =>
      rw [List.flatMap_cons, List.append_assoc, List.append_assoc, ← induction]
      cases inlay with
      | plain character unescaped unquoted => simp [Inlay.text, foldLine, unescaped, unquoted]
      | escaped mark => simp [Inlay.text, foldLine]

theorem foldLine_text (segment : Segment) (rest : List Char) :
    foldLine .outside (segment.text ++ rest) = segment.folded ++ foldLine .outside rest := by
  cases segment with
  | plain character unmarked =>
      simp only [isMark, Bool.or_eq_false_iff, beq_eq_false_iff_ne] at unmarked
      simp [text, folded, foldLine, unmarked]
  | literal quote quotes inlays =>
      rcases ne_of_isQuote quotes with ⟨goesOn, unescaped⟩
      have mark : isMark quote = true := by simp [isMark, quotes]
      have closes : foldLine (.inside quote) (quote :: rest) = quote :: foldLine .outside rest := by
        simp [foldLine, unescaped]
      simp only [text, folded, List.cons_append, List.append_assoc, List.nil_append]
      rw [foldLine, if_neg goesOn, lowerCase_of_isMark mark, if_pos quotes, foldLine_inlays, closes]
      rfl

theorem foldLine_line (segments : List Segment) (rest : List Char) :
    foldLine .outside (line segments ++ rest) =
      segments.flatMap folded ++ foldLine .outside rest := by
  induction segments with
  | nil => rfl
  | cons segment segments induction =>
      rw [line, List.flatMap_cons, List.append_assoc, foldLine_text, List.flatMap_cons,
        List.append_assoc]
      exact congrArg _ induction

def plains (text : List Char) (unmarked : ∀ character ∈ text, isMark character = false) :
    List Segment :=
  text.pmap plain unmarked

section Plains

variable {text : List Char} (unmarked : ∀ character ∈ text, isMark character = false)

theorem line_plains : line (plains text unmarked) = text := by
  induction text with
  | nil => rfl
  | cons character text induction =>
      exact congrArg (character :: ·) (induction (List.forall_mem_cons.mp unmarked).2)

theorem folded_plains : (plains text unmarked).flatMap folded = text.flatMap lowerCase := by
  induction text with
  | nil => rfl
  | cons character text induction =>
      exact congrArg (lowerCase character ++ ·) (induction (List.forall_mem_cons.mp unmarked).2)

theorem literals_plains : literals (plains text unmarked) = [] := by
  induction text with
  | nil => rfl
  | cons character text induction => exact induction (List.forall_mem_cons.mp unmarked).2

end Plains

theorem line_append (segments others : List Segment) :
    line (segments ++ others) = line segments ++ line others :=
  List.flatMap_append

theorem literals_append (segments others : List Segment) :
    literals (segments ++ others) = literals segments ++ literals others :=
  List.filterMap_append

theorem normalize_line (segments : List Segment) :
    normalize (line segments) = trim (segments.flatMap folded) := by
  have whole := foldLine_line segments []
  rw [List.append_nil] at whole
  rw [normalize, whole]
  exact congrArg trim (List.append_nil _)

theorem foldLine_blanks {blanks : List Char} (blank : Blanks blanks) (rest : List Char) :
    foldLine .outside (blanks ++ rest) = blanks ++ foldLine .outside rest := by
  have unmarked : ∀ character ∈ blanks, isMark character = false := fun character member =>
    isMark_of_isBlank (blank character member)
  have kept : blanks.flatMap lowerCase = blanks :=
    (List.flatMap_congr fun character member =>
      lowerCase_of_isBlank (blank character member)).trans (List.flatMap_singleton' blanks)
  have folds := foldLine_line (plains blanks unmarked) rest
  rwa [line_plains, folded_plains, kept] at folds

theorem folded_of_recased {segments recased : List Segment}
    (spelled : List.Forall₂ Recased segments recased) :
    recased.flatMap folded = segments.flatMap folded := by
  induction spelled with
  | nil => rfl
  | cons first _ induction =>
      rw [List.flatMap_cons, List.flatMap_cons, first.folded_eq, induction]

theorem normalize_of_recased {segments recased : List Segment}
    (spelled : List.Forall₂ Recased segments recased) {before after : List Char}
    (blankBefore : Blanks before) (blankAfter : Blanks after) (comment : List Char) :
    normalize (before ++ line recased ++ after ++ ';' :: comment) = normalize (line segments) := by
  have cut : foldLine .outside (';' :: comment) = [] := by simp [foldLine]
  have folds : foldLine .outside (before ++ line recased ++ after ++ ';' :: comment) =
      before ++ segments.flatMap folded ++ after := by
    simp only [List.append_assoc]
    rw [foldLine_blanks blankBefore, foldLine_line, foldLine_blanks blankAfter, cut,
      List.append_nil, folded_of_recased spelled]
  rw [normalize_line, normalize, folds]
  exact trim_surrounded blankBefore blankAfter _

/-! ## Literals -/

theorem isBlank_quote {quote : Char} (quotes : isQuote quote = true) : isBlank quote = false := by
  rw [Bool.eq_false_iff]
  intro blank
  have unmarked := isMark_of_isBlank blank
  simp [isMark, quotes] at unmarked

theorem exists_folded (segments : List Segment) :
    ∃ row, line row = segments.flatMap folded ∧ literals row = literals segments := by
  induction segments with
  | nil => exact ⟨[], rfl, rfl⟩
  | cons segment segments induction =>
      rcases induction with ⟨row, spelled, kept⟩
      cases segment with
      | plain character unmarked =>
          let forms := plains (lowerCase character) fun form member =>
            isMark_of_mem member unmarked
          refine ⟨forms ++ row, ?_, ?_⟩
          · rw [line_append, line_plains, spelled]
            rfl
          · rw [literals_append, literals_plains, kept]
            rfl
      | literal quote quotes inlays =>
          refine ⟨.literal quote quotes inlays :: row, ?_, ?_⟩
          · exact congrArg (_ ++ ·) spelled
          · exact congrArg (_ :: ·) kept

theorem exists_without_front {before rest : List Char} (blank : Blanks before)
    {row : List Segment} (spelled : line row = before ++ rest) :
    ∃ kept, line kept = rest ∧ literals kept = literals row := by
  induction before generalizing row with
  | nil => exact ⟨row, spelled, rfl⟩
  | cons first before induction =>
      rcases List.forall_mem_cons.mp blank with ⟨firstBlank, others⟩
      cases row with
      | nil => cases spelled
      | cons segment row =>
          cases segment with
          | plain character unmarked =>
              have shorter : line row = before ++ rest := (List.cons.inj spelled).2
              rcases induction others shorter with ⟨kept, trimmed, same⟩
              exact ⟨kept, trimmed, same⟩
          | literal quote quotes inlays =>
              have same : quote = first := (List.cons.inj spelled).1
              rw [← same, isBlank_quote quotes] at firstBlank
              cases firstBlank

theorem exists_without_back {after rest : List Char} (blank : Blanks after)
    {row : List Segment} (spelled : line row = rest ++ after) :
    ∃ kept, line kept = rest ∧ literals kept = literals row := by
  induction after using List.reverseRecOn generalizing row with
  | nil => exact ⟨row, by rwa [List.append_nil] at spelled, rfl⟩
  | append_singleton after last induction =>
      rcases List.forall_mem_append.mp blank with ⟨others, lastBlank⟩
      rw [← List.append_assoc] at spelled
      cases row using List.reverseRecOn with
      | nil => exact absurd spelled.symm (List.append_ne_nil_of_right_ne_nil _ (by simp))
      | append_singleton row segment =>
          rw [line_append] at spelled
          cases segment with
          | plain character unmarked =>
              have front : line row = rest ++ after := (List.append_inj' spelled rfl).1
              rcases induction others front with ⟨kept, shorter, same⟩
              refine ⟨kept, shorter, ?_⟩
              rw [same, literals_append]
              exact (List.append_nil _).symm
          | literal quote quotes inlays =>
              have ending : line [.literal quote quotes inlays] =
                  (quote :: inlays.flatMap Inlay.text) ++ [quote] := by
                simp [line, text]
              rw [ending, ← List.append_assoc] at spelled
              have same := (List.append_inj' spelled rfl).2
              rw [← List.singleton_inj.mp same] at lastBlank
              have quoteBlank := lastBlank quote List.mem_cons_self
              rw [isBlank_quote quotes] at quoteBlank
              cases quoteBlank

/-- A normal line has the literals of the line that it was made from. -/
theorem exists_normal (segments : List Segment) :
    ∃ kept, line kept = normalize (line segments) ∧ literals kept = literals segments := by
  rcases exists_folded segments with ⟨row, spelled, same⟩
  rcases exists_trim (line row) with ⟨before, after, blankBefore, blankAfter, whole⟩
  rcases exists_without_back blankAfter whole with ⟨shorter, cut, shorterSame⟩
  rcases exists_without_front blankBefore cut with ⟨kept, trimmed, keptSame⟩
  refine ⟨kept, ?_, keptSame.trans (shorterSame.trans same)⟩
  rw [trimmed, spelled, normalize_line]

theorem infix_of_mem_literals {segments : List Segment} {literal : List Char}
    (member : literal ∈ literals segments) : literal <:+: line segments := by
  rcases List.mem_filterMap.mp member with ⟨segment, present, spelled⟩
  rcases List.append_of_mem present with ⟨earlier, later, rfl⟩
  cases segment with
  | plain => cases spelled
  | literal quote quotes inlays =>
      cases spelled
      refine ⟨line earlier, line later, ?_⟩
      rw [line_append, List.append_assoc]
      rfl

end Segment

/-! ## Which lines are made of segments -/

/-- Where a reader stands after a line, unless it comes to a comment. -/
def Quoting.after? : Quoting → List Char → Option Quoting
  | quoting, [] => some quoting
  | quoting, character :: rest =>
    if quoting = .outside ∧ character = ';' then
      none
    else
      (quoting.next character).after? rest

namespace Segment

theorem after?_inlays {quote : Char} (inlays : List (Inlay quote)) (rest : List Char) :
    (Quoting.inside quote).after? (inlays.flatMap Inlay.text ++ rest) =
      (Quoting.inside quote).after? rest := by
  induction inlays with
  | nil => rfl
  | cons inlay inlays induction =>
      rw [List.flatMap_cons, List.append_assoc, ← induction]
      cases inlay with
      | plain character unescaped unquoted =>
          simp [Inlay.text, Quoting.after?, Quoting.next, unescaped, unquoted]
      | escaped mark => simp [Inlay.text, Quoting.after?, Quoting.next]

theorem after?_line (segments : List Segment) :
    Quoting.outside.after? (line segments) = some .outside := by
  induction segments with
  | nil => rfl
  | cons segment segments induction =>
      rw [line, List.flatMap_cons]
      change Quoting.outside.after? (segment.text ++ line segments) = _
      rw [← induction]
      cases segment with
      | plain character unmarked =>
          simp only [isMark, Bool.or_eq_false_iff, beq_eq_false_iff_ne] at unmarked
          simp [text, Quoting.after?, Quoting.next, unmarked]
      | literal quote quotes inlays =>
          rcases ne_of_isQuote quotes with ⟨goesOn, unescaped⟩
          simp [text, Quoting.after?, Quoting.next, goesOn, quotes, after?_inlays, unescaped]

end Segment

def Quoting.Closes : Quoting → List Char → Prop
  | .outside, line => ∃ segments, Segment.line segments = line
  | .inside quote, line =>
    ∃ (inlays : List (Inlay quote)) (segments : List Segment),
      inlays.flatMap Inlay.text ++ quote :: Segment.line segments = line
  | .escaped quote, line =>
    ∃ (mark : Char) (inlays : List (Inlay quote)) (segments : List Segment),
      mark :: (inlays.flatMap Inlay.text ++ quote :: Segment.line segments) = line

theorem Quoting.closes_of_after? {quoting : Quoting} {line : List Char}
    (ends : quoting.after? line = some .outside) : quoting.Closes line := by
  induction line generalizing quoting with
  | nil =>
      cases ends
      exact ⟨[], rfl⟩
  | cons character rest induction =>
      rw [after?] at ends
      split at ends
      · cases ends
      · rename_i goesOn
        have closed := induction ends
        cases quoting with
        | outside =>
            cases quotes : isQuote character with
            | false =>
                simp only [next, quotes] at closed
                rcases closed with ⟨segments, rfl⟩
                have unmarked : isMark character = false := by
                  simpa [isMark, quotes] using goesOn
                exact ⟨.plain character unmarked :: segments, rfl⟩
            | true =>
                simp only [next, quotes, if_true] at closed
                rcases closed with ⟨inlays, segments, rfl⟩
                refine ⟨.literal character quotes inlays :: segments, ?_⟩
                simp [Segment.line, Segment.text]
        | inside quote =>
            rw [next] at closed
            split at closed
            · rename_i escape
              rcases closed with ⟨mark, inlays, segments, rfl⟩
              rw [escape]
              exact ⟨.escaped mark :: inlays, segments, rfl⟩
            · rename_i unescaped
              split at closed
              · rename_i same
                rcases closed with ⟨segments, rfl⟩
                rw [same]
                exact ⟨[], segments, rfl⟩
              · rename_i unquoted
                rcases closed with ⟨inlays, segments, rfl⟩
                exact ⟨.plain character unescaped unquoted :: inlays, segments, rfl⟩
        | escaped quote =>
            rcases closed with ⟨inlays, segments, rfl⟩
            exact ⟨character, inlays, segments, rfl⟩

/-- A normal line is normal already. A line is made of segments if its literals are closed and
it has no comment; then neither case outside literals nor blanks around it nor a comment
behind it make a difference, and its literals are those of the normal line. -/
theorem normalize_insensitive :
    (∀ line, normalize (normalize line) = normalize line) ∧
    (∀ line, Quoting.outside.after? line = some .outside ↔
      ∃ segments, Segment.line segments = line) ∧
    ∀ segments : List Segment,
      (∀ recased before after comment,
        List.Forall₂ Segment.Recased segments recased → Blanks before → Blanks after →
          normalize (before ++ Segment.line recased ++ after ++ ';' :: comment) =
            normalize (Segment.line segments)) ∧
      (∃ kept, Segment.line kept = normalize (Segment.line segments) ∧
        Segment.literals kept = Segment.literals segments) ∧
      ∀ literal ∈ Segment.literals segments, literal <:+: normalize (Segment.line segments) := by
  refine ⟨normalize_normalize, fun line => ⟨Quoting.closes_of_after?, ?_⟩, fun segments => ?_⟩
  · intro made
    rcases made with ⟨segments, rfl⟩
    exact Segment.after?_line segments
  · refine ⟨fun recased before after comment spelled blankBefore blankAfter =>
      Segment.normalize_of_recased spelled blankBefore blankAfter comment,
      Segment.exists_normal segments, fun literal member => ?_⟩
    rcases Segment.exists_normal segments with ⟨kept, spelled, same⟩
    rw [← spelled]
    rw [← same] at member
    exact Segment.infix_of_mem_literals member

/-- The literal holds a comment marker, a quote and a capital letter, all of which are
kept. -/
theorem normalize_insensitive_of_literal :
    let literal : Segment := .literal '"' rfl
      [.plain ';' (by decide) (by decide), .escaped '"', .plain 'A' (by decide) (by decide)]
    let segments := [.plain 'B' rfl, .plain ' ' rfl, literal]
    let recased := [.plain 'b' rfl, .plain ' ' rfl, literal]
    List.Forall₂ Segment.Recased segments recased ∧ Blanks ['\t', ' '] ∧ Blanks [' '] ∧
    normalize (['\t', ' '] ++ Segment.line recased ++ [' '] ++ ';' :: ['"', 'C']) =
      normalize (Segment.line segments) ∧
    normalize (Segment.line segments) = ['b', ' ', '"', ';', '\\', '"', 'A', '"'] ∧
    ['"', ';', '\\', '"', 'A', '"'] <:+: normalize (Segment.line segments) := by
  intro literal segments recased
  rcases normalize_insensitive.2.2 segments with ⟨insensitive, -, kept⟩
  have spelled : List.Forall₂ Segment.Recased segments recased :=
    .cons (.plain (by decide) rfl rfl) (.cons (.plain rfl rfl rfl) (.cons (.literal ..) .nil))
  have before : Blanks ['\t', ' '] := by decide
  have after : Blanks [' '] := by decide
  exact ⟨spelled, before, after, insensitive recased _ _ _ spelled before after, by decide,
    kept _ List.mem_cons_self⟩

end TwoPass
