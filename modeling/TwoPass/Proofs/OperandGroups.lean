import Mathlib.Data.List.Basic
import TwoPass.Proofs.Tokens

/-! # Groups of operands

A group is texts between brackets, of which the first carries the opening bracket and the last
the closing one. Blanks within the brackets of a group on a line may set a bracket apart, so
that it carries no text. Then the group gains an empty text, which does not count. -/

namespace TwoPass

/-! ## Groups -/

/-- Texts of which the first carries an opening bracket. -/
def opened (opening : Char) (texts : List (List Char)) : List (List Char) :=
  texts.modifyHead (opening :: ·)

def closed (closing : Char) (texts : List (List Char)) : List (List Char) :=
  texts.dropLast ++ [texts.getLastD [] ++ [closing]]

def bracketed (opening closing : Char) (texts : List (List Char)) : List (List Char) :=
  closed closing (opened opening texts)

def Unbracketed (opening closing : Char) (text : List Char) : Prop :=
  opening ∉ text ∧ closing ∉ text

theorem closed_concat (closing : Char) (init : List (List Char)) (last : List Char) :
    closed closing (init ++ [last]) = init ++ [last ++ [closing]] := by
  simp [closed]

theorem closed_ne_nil (closing : Char) (texts : List (List Char)) : closed closing texts ≠ [] := by
  simp [closed]

theorem opened_ne_nil {opening : Char} {texts : List (List Char)} (some : texts ≠ []) :
    opened opening texts ≠ [] := by
  simpa [opened] using some

theorem opened_append {opening : Char} {texts : List (List Char)} (some : texts ≠ [])
    (more : List (List Char)) : opened opening (texts ++ more) = opened opening texts ++ more := by
  obtain ⟨first, others, rfl⟩ := List.exists_cons_of_ne_nil some
  rfl

theorem closed_cons {closing : Char} {first : List Char} {texts : List (List Char)}
    (some : texts ≠ []) : closed closing (first :: texts) = first :: closed closing texts := by
  obtain ⟨init, last, rfl⟩ := (List.eq_nil_or_concat' texts).resolve_left some
  rw [closed_concat, ← List.cons_append, closed_concat]
  rfl

theorem not_mem_of_mem_closed {mark closing : Char} {texts : List (List Char)} (some : texts ≠ [])
    (different : mark ≠ closing) (free : ∀ text ∈ texts, mark ∉ text) :
    ∀ text ∈ closed closing texts, mark ∉ text := by
  obtain ⟨init, last, rfl⟩ := (List.eq_nil_or_concat' texts).resolve_left some
  simp only [List.forall_mem_append, List.forall_mem_singleton] at free
  simp only [closed_concat, List.forall_mem_append, List.forall_mem_singleton]
  exact ⟨free.1, by simpa [different] using free.2⟩

theorem not_mem_of_mem_opened {mark opening : Char} {texts : List (List Char)}
    (different : mark ≠ opening) (free : ∀ text ∈ texts, mark ∉ text) :
    ∀ text ∈ opened opening texts, mark ∉ text := by
  cases texts with
  | nil => exact List.forall_mem_nil _
  | cons first others =>
      rw [List.forall_mem_cons] at free
      rw [opened, List.modifyHead_cons, List.forall_mem_cons]
      exact ⟨by simpa [different] using free.1, free.2⟩

theorem bracketed_eq {opening closing : Char} {texts : List (List Char)} (some : texts ≠ []) :
    bracketed opening closing texts = opened opening (closed closing texts) := by
  cases texts with
  | nil => exact absurd rfl some
  | cons first others =>
      cases others with
      | nil => rfl
      | cons second others =>
          have more : second :: others ≠ [] := List.cons_ne_nil second others
          rw [bracketed, closed_cons more]
          exact closed_cons more

theorem length_bracketed {opening closing : Char} {texts : List (List Char)} (some : texts ≠ []) :
    (bracketed opening closing texts).length = texts.length := by
  have count : 0 < texts.length := List.length_pos_iff.mpr some
  simp only [bracketed, closed, opened, List.length_append, List.length_dropLast,
    List.length_modifyHead, List.length_singleton]
  omega

theorem getLast?_getLastD_iff {opening closing : Char} (different : opening ≠ closing)
    {rest last : List Char} {others init : List (List Char)}
    (whole : rest :: others = init ++ [last]) :
    (others.getLastD (opening :: rest)).getLast? = some closing ↔
      last.getLast? = some closing := by
  have ends : (rest :: others).getLast? = some last := by rw [whole, List.getLast?_concat]
  cases others with
  | nil =>
      rw [List.getLast?_singleton, Option.some.injEq] at ends
      rw [List.getLastD_nil, ← ends]
      cases rest with
      | nil => simpa using different
      | cons first rest => rw [List.getLast?_cons_cons]
  | cons second others =>
      rw [List.getLast?_cons_cons, List.getLast?_cons, Option.some.injEq] at ends
      rw [List.getLastD_cons, List.getLastD_eq_getLast?, ends]

section

variable {opening closing : Char} {tokens entries : List String} (different : opening ≠ closing)
include different

theorem enclosed?_of_bracketed {texts : List (List Char)} (some : texts ≠ [])
    (whole : tokens.map String.toList = bracketed opening closing texts) :
    enclosed? opening closing tokens =
      if (texts.filter (!·.isEmpty)).any fun operand =>
          operand.contains opening || operand.contains closing then none
      else Option.some ((texts.filter (!·.isEmpty)).map String.ofList) := by
  obtain ⟨init, last, rfl⟩ := (List.eq_nil_or_concat' texts).resolve_left some
  rw [bracketed_eq some, closed_concat] at whole
  obtain ⟨rest, others, parts⟩ :=
    List.exists_cons_of_ne_nil (List.concat_ne_nil (last ++ [closing]) init)
  have ends := (getLast?_getLastD_iff different parts.symm).mpr List.getLast?_concat
  have inner : (rest :: others).dropLast ++ [((rest :: others).getLastD []).dropLast] =
      init ++ [last] := by
    rw [← parts]
    simp
  rw [parts] at whole
  simp only [enclosed?, whole, opened, List.modifyHead_cons, List.head?_cons, List.tail_cons, ends,
    and_self, if_true, inner]

theorem exists_texts (grouped : enclosed? opening closing tokens = some entries) :
    ∃ texts, texts ≠ [] ∧ tokens.map String.toList = bracketed opening closing texts ∧
      (∀ text ∈ texts, Unbracketed opening closing text) ∧
      entries = (texts.filter (!·.isEmpty)).map String.ofList := by
  obtain ⟨texts, some, whole⟩ : ∃ texts, texts ≠ [] ∧
      tokens.map String.toList = bracketed opening closing texts := by
    cases whole : tokens.map String.toList with
    | nil => simp [enclosed?, whole] at grouped
    | cons first others =>
        simp only [enclosed?, whole] at grouped
        split at grouped
        · rename_i marks
          obtain ⟨rest, rfl⟩ := List.head?_eq_some_iff.mp marks.1
          obtain ⟨init, last, parts⟩ := (List.eq_nil_or_concat' (rest :: others)).resolve_left
            (List.cons_ne_nil rest others)
          obtain ⟨text, rfl⟩ := List.getLast?_eq_some_iff.mp
            ((getLast?_getLastD_iff different parts).mp marks.2)
          have nonempty : init ++ [text] ≠ [] := by simp
          refine ⟨init ++ [text], nonempty, ?_⟩
          rw [bracketed_eq nonempty, closed_concat, ← parts]
          rfl
        · cases grouped
  rw [enclosed?_of_bracketed different some whole] at grouped
  split at grouped
  · cases grouped
  · rename_i plain
    refine ⟨texts, some, whole, fun text member => ?_, (Option.some.inj grouped).symm⟩
    by_cases empty : text = []
    · simp [empty, Unbracketed]
    · have kept : text ∈ texts.filter (!·.isEmpty) :=
        List.mem_filter.mpr ⟨member, by simpa using empty⟩
      have clean := List.any_eq_false.mp (Bool.eq_false_iff.mpr plain) text kept
      simpa [Unbracketed] using clean

theorem enclosed?_of_texts {texts : List (List Char)} (some : texts ≠ [])
    (whole : tokens.map String.toList = bracketed opening closing texts)
    (inside : ∀ text ∈ texts, Unbracketed opening closing text) :
    enclosed? opening closing tokens =
      Option.some ((texts.filter (!·.isEmpty)).map String.ofList) := by
  have plain : ((texts.filter (!·.isEmpty)).any fun operand =>
      operand.contains opening || operand.contains closing) = false := by
    simp only [List.any_eq_false, Bool.or_eq_true, List.contains_iff_mem, not_or]
    intro text member
    exact inside text (List.mem_of_mem_filter member)
  rw [enclosed?_of_bracketed different some whole, plain]
  rfl

end

/-! ## Blanks -/

/-- Whether blanks set a bracket apart from the character beside it: they do if this is part
of a token. -/
def setsApart (blanks : List Char) (beside : Option Char) : Bool :=
  !blanks.isEmpty && beside.any (!separatesTokens ·)

/-- The texts that a group gains beside a bracket: an empty one if the bracket is set apart. -/
def gained (blanks : List Char) (beside : Option Char) : List (List Char) :=
  List.replicate (setsApart blanks beside).toNat []

theorem gained_of_separates {blanks : List Char} {beside : Option Char}
    (separates : beside.all separatesTokens = true) : gained blanks beside = [] := by
  cases beside with
  | none => simp [gained, setsApart]
  | some character =>
      have cuts : separatesTokens character = true := by simpa using separates
      simp [gained, setsApart, cuts]

theorem gained_of_plain {blanks : List Char} {character : Char} (some : blanks ≠ [])
    (plain : separatesTokens character = false) :
    gained blanks (Option.some character) = [[]] := by
  obtain ⟨first, others, rfl⟩ := List.exists_cons_of_ne_nil some
  simp [gained, setsApart, plain]

theorem filter_gained (blanks : List Char) (beside : Option Char) :
    (gained blanks beside).filter (!·.isEmpty) = [] := by
  simp [gained]

theorem unbracketed_of_mem_gained {opening closing : Char} {blanks : List Char}
    {beside : Option Char} :
    ∀ text ∈ gained blanks beside, Unbracketed opening closing text := by
  intro text member
  rw [List.eq_of_mem_replicate member]
  exact ⟨List.not_mem_nil, List.not_mem_nil⟩

theorem words_append_blanks {blanks : List Char} (some : blanks ≠ [])
    (blank : ∀ character ∈ blanks, separatesTokens character = true) (left right : List Char) :
    words separatesTokens (left ++ (blanks ++ right)) =
      words separatesTokens left ++ words separatesTokens right := by
  obtain ⟨first, others, rfl⟩ := List.exists_cons_of_ne_nil some
  rw [List.cons_append, words_append (blank first List.mem_cons_self)]
  rw [words_separators_append fun character member =>
    blank character (List.mem_cons_of_mem first member)]

theorem words_around {before word after : List Char} (some : word ≠ [])
    (plain : ∀ character ∈ word, separatesTokens character = false)
    (ends : before.getLast?.all separatesTokens = true)
    (starts : after.head?.all separatesTokens = true) :
    words separatesTokens (before ++ (word ++ after)) =
      words separatesTokens before ++ word :: words separatesTokens after := by
  rw [words_append_of_ends ends, words_append_of_starts word starts,
    words_of_unseparated some plain, List.singleton_append]

/-- A line around a mark in it: the parts of the word with the mark, and what is cut off
before and after that word. -/
structure CutAround (before rest earlier lead trail later : List Char) : Prop where
  left : before = earlier ++ lead
  right : rest = trail ++ later
  ends : earlier.getLast?.all separatesTokens = true
  starts : later.head?.all separatesTokens = true
  leadPlain : ∀ character ∈ lead, separatesTokens character = false
  trailPlain : ∀ character ∈ trail, separatesTokens character = false

theorem exists_cutAround {mark : Char} (plain : separatesTokens mark = false)
    (before rest : List Char) :
    ∃ earlier lead trail later, CutAround before rest earlier lead trail later ∧
      words separatesTokens (before ++ mark :: rest) =
        words separatesTokens earlier ++ (lead ++ mark :: trail) ::
          words separatesTokens later := by
  obtain ⟨earlier, lead, rfl, leadPlain, ends⟩ := exists_trailing separatesTokens before
  obtain ⟨trail, later, rfl, trailPlain, starts⟩ := exists_leading separatesTokens rest
  have some : lead ++ mark :: trail ≠ [] := by simp
  have wordPlain : ∀ character ∈ lead ++ mark :: trail, separatesTokens character = false := by
    simp only [List.forall_mem_append, List.forall_mem_cons]
    exact ⟨leadPlain, plain, trailPlain⟩
  refine ⟨earlier, lead, trail, later, ⟨rfl, rfl, ends, starts, leadPlain, trailPlain⟩, ?_⟩
  rw [← words_around some wordPlain ends starts]
  simp

theorem exists_cutAround_of_words {mark : Char} {before rest : List Char}
    {front back : List (List Char)} {word : List Char} (plain : separatesTokens mark = false)
    (whole : words separatesTokens (before ++ mark :: rest) = front ++ word :: back)
    (frontFree : ∀ text ∈ front, mark ∉ text) (backFree : ∀ text ∈ back, mark ∉ text) :
    ∃ earlier lead trail later, CutAround before rest earlier lead trail later ∧
      word = lead ++ mark :: trail ∧ words separatesTokens earlier = front ∧
      words separatesTokens later = back := by
  obtain ⟨earlier, lead, trail, later, cut, around⟩ := exists_cutAround plain before rest
  have marked : mark ∈ lead ++ mark :: trail := by simp
  obtain ⟨sameFront, sameWord, sameBack⟩ := (List.append_cons_inj_of_notMem
    (fun member => frontFree _ member marked) (fun member => backFree _ member marked)).mp
    (whole.symm.trans around)
  exact ⟨earlier, lead, trail, later, cut, sameWord, sameFront.symm, sameBack.symm⟩

/-! ### Lines with blanks in a group -/

section

variable {opening closing : Char} {front texts : List (List Char)}
  {before rest : List Char} (different : opening ≠ closing) (some : texts ≠ [])
  (outside : ∀ text ∈ front, Unbracketed opening closing text)
  (inside : ∀ text ∈ texts, Unbracketed opening closing text)
include different some outside inside

theorem exists_rest_of_opened (plain : separatesTokens opening = false)
    (whole : words separatesTokens (before ++ opening :: rest) =
      front ++ bracketed opening closing texts) :
    ∃ first later, rest = first ++ later ∧
      (∀ character ∈ first, separatesTokens character = false) ∧
      before.getLast?.all separatesTokens = true ∧ later.head?.all separatesTokens = true ∧
      words separatesTokens before = front ∧
      closed closing texts = first :: words separatesTokens later := by
  obtain ⟨first, others, parts⟩ := List.exists_cons_of_ne_nil (closed_ne_nil closing texts)
  have unopened : ∀ text ∈ first :: others, opening ∉ text :=
    parts ▸ not_mem_of_mem_closed some different fun text member => (inside text member).1
  rw [List.forall_mem_cons] at unopened
  rw [bracketed_eq some, parts] at whole
  obtain ⟨earlier, lead, trail, later, ⟨rfl, rfl, ends, starts, -, trailPlain⟩, word, rfl, rfl⟩ :=
    exists_cutAround_of_words plain whole (fun text member => (outside text member).1) unopened.2
  -- The group starts with its bracket, and so does the word that has it.
  obtain ⟨rfl, -, rfl⟩ := (@List.append_cons_inj_of_notMem _ [] lead first trail opening opening
    List.not_mem_nil unopened.1).mp word
  rw [List.append_nil]
  exact ⟨first, later, rfl, trailPlain, ends, starts, rfl, parts⟩

theorem ne_nil_of_bracketed {middle : List Char} (opens : separatesTokens opening = false)
    (closes : separatesTokens closing = false) (holds : ∃ text ∈ texts, text ≠ [])
    (whole : words separatesTokens (before ++ opening :: (middle ++ closing :: rest)) =
      front ++ bracketed opening closing texts) : middle ≠ [] := by
  rintro rfl
  obtain ⟨first, later, joined, -, -, starts, -, parts⟩ :=
    exists_rest_of_opened different some outside inside opens whole
  obtain ⟨init, last, rfl⟩ := (List.eq_nil_or_concat' texts).resolve_left some
  simp only [List.forall_mem_append, List.forall_mem_singleton] at inside
  rw [closed_concat] at parts
  cases first with
  | nil =>
      rw [List.nil_append, List.nil_append] at joined
      rw [← joined] at starts
      simp [closes] at starts
  | cons character first =>
      cases (List.cons.inj joined).1
      cases init with
      | nil =>
          rw [List.nil_append] at parts
          obtain ⟨rfl, -, -⟩ := (@List.append_cons_inj_of_notMem _ last [] [] first closing closing
            inside.2.2 List.not_mem_nil).mp (List.cons.inj parts).1
          simp at holds
      | cons head init =>
          have same : head = closing :: first := (List.cons.inj parts).1
          have clean := (inside.1 head List.mem_cons_self).2
          simp [same] at clean

variable {blanks : List Char}
  (blank : ∀ character ∈ blanks, separatesTokens character = true)
include blank

theorem words_blanks_after (plain : separatesTokens opening = false)
    (whole : words separatesTokens (before ++ opening :: rest) =
      front ++ bracketed opening closing texts) :
    words separatesTokens (before ++ opening :: (blanks ++ rest)) =
      front ++ bracketed opening closing (gained blanks rest.head? ++ texts) := by
  by_cases none : blanks = []
  · simpa [none, gained, setsApart] using whole
  obtain ⟨first, later, rfl, firstPlain, ends, starts, rfl, parts⟩ :=
    exists_rest_of_opened different some outside inside plain whole
  have apart : words separatesTokens (before ++ [opening]) =
      words separatesTokens before ++ [[opening]] :=
    @words_around before [opening] [] (by simp) (by simpa using plain) ends rfl
  have loose : words separatesTokens (before ++ opening :: (blanks ++ (first ++ later))) =
      words separatesTokens before ++ [opening] ::
        (words separatesTokens first ++ words separatesTokens later) := by
    rw [List.append_cons, words_append_blanks none blank, apart,
      words_append_of_starts first starts, List.append_assoc, List.singleton_append]
  rw [loose]
  cases first with
  | nil =>
      rw [List.nil_append, gained_of_separates starts, List.nil_append, bracketed_eq some, parts]
      rfl
  | cons character first =>
      have beside : separatesTokens character = false := firstPlain character List.mem_cons_self
      rw [List.cons_append, List.head?_cons, gained_of_plain none beside, List.singleton_append,
        bracketed_eq (List.cons_ne_nil _ texts), closed_cons some, parts,
        words_of_unseparated (List.cons_ne_nil character first) firstPlain]
      rfl

theorem words_blanks_before (plain : separatesTokens closing = false)
    (whole : words separatesTokens (before ++ closing :: rest) =
      front ++ bracketed opening closing texts) :
    words separatesTokens (before ++ (blanks ++ closing :: rest)) =
      front ++ bracketed opening closing (texts ++ gained blanks before.getLast?) := by
  by_cases none : blanks = []
  · simpa [none, gained, setsApart] using whole
  obtain ⟨init, last, parts⟩ :=
    (List.eq_nil_or_concat' (opened opening texts)).resolve_left (opened_ne_nil some)
  have unclosed : ∀ text ∈ init ++ [last], closing ∉ text :=
    parts ▸ not_mem_of_mem_opened different.symm fun text member => (inside text member).2
  rw [List.forall_mem_append, List.forall_mem_singleton] at unclosed
  rw [bracketed, parts, closed_concat, ← List.append_assoc] at whole
  have frontFree : ∀ text ∈ front ++ init, closing ∉ text :=
    List.forall_mem_append.mpr ⟨fun text member => (outside text member).2, unclosed.1⟩
  obtain ⟨earlier, lead, trail, later, ⟨rfl, rfl, ends, starts, leadPlain, -⟩, word, sameFront,
    sameBack⟩ := exists_cutAround_of_words plain whole frontFree (List.forall_mem_nil _)
  -- The group ends in its bracket, and so does the word that has it.
  obtain ⟨rfl, -, rfl⟩ := (@List.append_cons_inj_of_notMem _ last lead [] trail closing closing
    unclosed.2 List.not_mem_nil).mp word
  have apart : words separatesTokens (closing :: later) =
      [closing] :: words separatesTokens later :=
    @words_around [] [closing] later (by simp) (by simpa using plain) rfl starts
  have loose : words separatesTokens (earlier ++ last ++ (blanks ++ closing :: later)) =
      front ++ (init ++ (words separatesTokens last ++ [[closing]])) := by
    rw [words_append_blanks none blank, words_append_of_ends ends, apart, sameFront, sameBack]
    simp
  rw [List.nil_append, loose]
  obtain rfl | ⟨lastInit, character, rfl⟩ := List.eq_nil_or_concat' last
  · rw [List.append_nil, gained_of_separates ends, List.append_nil, bracketed, parts, closed_concat]
    rfl
  · have some' : lastInit ++ [character] ≠ [] := by simp
    have beside : separatesTokens character = false := leadPlain character (by simp)
    rw [← List.append_assoc earlier, List.getLast?_concat, gained_of_plain none beside, bracketed,
      opened_append some, closed_concat, parts, words_of_unseparated some' leadPlain]
    simp

theorem words_loosened {middle moreBlanks : List Char} (opens : separatesTokens opening = false)
    (closes : separatesTokens closing = false) (holds : ∃ text ∈ texts, text ≠ [])
    (moreBlank : ∀ character ∈ moreBlanks, separatesTokens character = true)
    (whole : words separatesTokens (before ++ opening :: (middle ++ closing :: rest)) =
      front ++ bracketed opening closing texts) :
    words separatesTokens
        (before ++ opening :: (blanks ++ (middle ++ (moreBlanks ++ closing :: rest)))) =
      front ++ bracketed opening closing
        (gained blanks middle.head? ++ texts ++ gained moreBlanks middle.getLast?) := by
  have between : middle ≠ [] :=
    ne_nil_of_bracketed different some outside inside opens closes holds whole
  have after := words_blanks_after different some outside inside blank opens whole
  rw [List.head?_append_of_ne_nil _ between] at after
  have joined : before ++ opening :: (blanks ++ middle) =
      before ++ opening :: blanks ++ middle := by
    simp
  have kept : (before ++ opening :: (blanks ++ middle)).getLast? = middle.getLast? := by
    rw [joined, List.getLast?_append_of_ne_nil _ between]
  rw [← kept]
  have both := @words_blanks_before opening closing front (gained blanks middle.head? ++ texts)
    (before ++ opening :: (blanks ++ middle)) rest different
    (List.append_ne_nil_of_right_ne_nil _ some) outside
    (List.forall_mem_append.mpr ⟨unbracketed_of_mem_gained, inside⟩) moreBlanks moreBlank closes
    (by simpa using after)
  simpa using both

end

end TwoPass
