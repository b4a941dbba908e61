import Mathlib.Data.List.DropRight
import TwoPass.Proofs.LiteralGrammar
import TwoPass.Proofs.Locality
import TwoPass.Proofs.Tokens

/-! # String literals

Three readers look at a string literal, one after the other: the one that looks for a
comment, the one that cuts the line into tokens, and the one that takes the characters
from between the quotes. They agree on where a literal ends if every character in it is
written so that none of them takes it for something else. Then each of its characters
comes to its place in memory. -/

namespace TwoPass

/-! ## Writing literals -/

namespace Literal

def escapeCharacter (quote character : Char) : List Char :=
  if character = '\n' then ['\\', 'n']
  else if character = '\r' then ['\\', 'r']
  else if character = '\t' then ['\\', 't']
  else if character = '\\' ∨ character = quote then ['\\', character]
  else [character]

def escape (quote : Char) (text : List Char) : List Char :=
  text.flatMap (escapeCharacter quote)

def write (quote : Char) (text : List Char) : List Char :=
  quote :: escape quote text ++ [quote]

inductive Spelled (quote character : Char) : List Char → Prop where
  | escaped (mark : Char) (stands : escapedCharacter? mark = some character)
      (single : mark ≠ '\n') : Spelled quote character ['\\', mark]
  | plain (unescaped : character ≠ '\\') (unquoted : character ≠ quote)
      (single : character ≠ '\n') : Spelled quote character [character]

theorem isQuote_iff (quote : Char) : isQuote quote = true ↔ quote = '"' ∨ quote = '\'' := by
  simp [isQuote]

theorem unescape?_of_spelled {quote character : Char} {spelled : List Char}
    (spells : Spelled quote character spelled) (rest : List Char) :
    unescape? quote (spelled ++ rest) = (unescape? quote rest).map (character :: ·) := by
  cases spells with
  | escaped mark stands _ =>
      exact unescape?_text (.escaped mark character (escapedCharacter?_eq_some_iff.mp stands)) rest
  | plain unescaped unquoted _ =>
      exact unescape?_text (.plain character unescaped unquoted) rest

/-- No character of a literal ends it for the reader that looks for a comment. -/
theorem foldLine_of_spelled {quote character : Char} {spelled : List Char}
    (spells : Spelled quote character spelled) (rest : List Char) :
    foldLine (.inside quote) (spelled ++ rest) = spelled ++ foldLine (.inside quote) rest := by
  cases spells with
  | escaped mark _ _ => simp [foldLine]
  | plain unescaped unquoted _ => simp [foldLine, unescaped, unquoted]

variable {quote : Char} (quotes : isQuote quote = true)
include quotes

theorem escapeCharacter_spelled (character : Char) :
    Spelled quote character (escapeCharacter quote character) := by
  unfold escapeCharacter
  split
  case isTrue feed => exact .escaped 'n' (by rw [feed]; rfl) (by decide)
  case isFalse single =>
    split
    case isTrue ends => exact .escaped 'r' (by rw [ends]; rfl) (by decide)
    case isFalse =>
      split
      case isTrue tab => exact .escaped 't' (by rw [tab]; rfl) (by decide)
      case isFalse =>
        split
        case isTrue special =>
          refine .escaped character ?_ single
          rcases special with rfl | rfl
          · rfl
          · rcases (isQuote_iff character).mp quotes with rfl | rfl <;> rfl
        case isFalse ordinary =>
          exact .plain (fun same => ordinary (.inl same)) (fun same => ordinary (.inr same)) single

theorem unescape?_escape (text : List Char) : unescape? quote (escape quote text) = some text := by
  induction text with
  | nil => rfl
  | cons character text induction =>
      rw [escape, List.flatMap_cons,
        unescape?_of_spelled (escapeCharacter_spelled quotes character)]
      change Option.map _ (unescape? quote (escape quote text)) = _
      rw [induction]
      rfl

theorem body?_write (text : List Char) :
    body? (write quote text) = some (quote, escape quote text) := by
  simp [write, body?, quotes]

theorem escape_ne_nil {text : List Char} (some : text ≠ []) : escape quote text ≠ [] := by
  intro empty
  cases text with
  | nil => exact some rfl
  | cons character text =>
      rw [escape, List.flatMap_cons] at empty
      have nothing := (List.append_eq_nil_iff.mp empty).1
      have spells := escapeCharacter_spelled quotes character
      rw [nothing] at spells
      cases spells

theorem codes_write {text : List Char} (some : text ≠ []) :
    codes (String.ofList (write quote text)) = .ok (text.map Char.toNat) := by
  have read : characters (String.ofList (write quote text)) = .ok text := by
    rw [characters, String.toList_ofList, body?_write quotes]
    cases written : escape quote text with
    | nil => exact absurd written (escape_ne_nil quotes some)
    | cons first others => simp only [← written, unescape?_escape quotes]
  rw [codes, read]
  rfl

end Literal

/-! ## Lines with a literal -/

open Literal

section Line

variable {quote : Char} (quotes : isQuote quote = true)
include quotes

theorem foldLine_escape (text rest : List Char) :
    foldLine (.inside quote) (escape quote text ++ rest) =
      escape quote text ++ foldLine (.inside quote) rest := by
  induction text with
  | nil => rfl
  | cons character text induction =>
      simp only [escape, List.flatMap_cons, List.append_assoc]
      rw [foldLine_of_spelled (escapeCharacter_spelled quotes character)]
      exact congrArg _ induction

theorem foldLine_write (text rest : List Char) :
    foldLine .outside (write quote text ++ rest) = write quote text ++ foldLine .outside rest := by
  have opening : foldLine .outside (quote :: (escape quote text ++ quote :: rest)) =
      quote :: foldLine (.inside quote) (escape quote text ++ quote :: rest) := by
    rcases (isQuote_iff quote).mp quotes with rfl | rfl <;> rfl
  have closing : foldLine (.inside quote) (quote :: rest) = quote :: foldLine .outside rest := by
    rcases (isQuote_iff quote).mp quotes with rfl | rfl <;> rfl
  simp only [write, List.cons_append, List.append_assoc, List.nil_append]
  rw [opening, foldLine_escape quotes, closing]

theorem trimEnd_write (text front : List Char) :
    trimEnd (front ++ write quote text) = front ++ write quote text := by
  have visible : isBlank quote = false := by
    rcases (isQuote_iff quote).mp quotes with rfl | rfl <;> decide
  simp [trimEnd, write, visible]

def stringLine (quote : Char) (text comment : List Char) : List Char :=
  ".stringz ".toList ++ write quote text ++ " ;".toList ++ comment

omit quotes in
theorem stringLine_eq (quote : Char) (text comment : List Char) :
    stringLine quote text comment =
      ['.', 's', 't', 'r', 'i', 'n', 'g', 'z', ' '] ++ write quote text ++ [' ', ';'] ++
        comment := by
  have directive : ".stringz ".toList = ['.', 's', 't', 'r', 'i', 'n', 'g', 'z', ' '] := by decide
  have marker : " ;".toList = [' ', ';'] := by decide
  rw [← directive, ← marker]
  rfl

theorem normalize_stringLine (text comment : List Char) :
    normalize (stringLine quote text comment) =
      ['.', 's', 't', 'r', 'i', 'n', 'g', 'z', ' '] ++ write quote text := by
  have folded : foldLine .outside (stringLine quote text comment) =
      ['.', 's', 't', 'r', 'i', 'n', 'g', 'z', ' '] ++ write quote text ++ [' '] := by
    rw [stringLine_eq, List.append_assoc, List.append_assoc]
    have kept := foldLine_write quotes text ([' ', ';'] ++ comment)
    exact (congrArg (['.', 's', 't', 'r', 'i', 'n', 'g', 'z', ' '] ++ ·) kept).trans
      (List.append_assoc _ _ _).symm
  have blank (front : List Char) : trimEnd (front ++ [' ']) = trimEnd front := by
    simp only [trimEnd, List.reverse_append, List.reverse_singleton, List.singleton_append]
    rfl
  rw [normalize, folded, trim]
  exact (blank (['.', 's', 't', 'r', 'i', 'n', 'g', 'z', ' '] ++ write quote text)).trans
    (trimEnd_write quotes text _)

theorem tokens_of_stringLine {line : SourceLine} {text comment : List Char}
    (written : line.text.toList = stringLine quote text comment) :
    line.tokens = [".stringz", String.ofList (write quote text)] := by
  have plain : ∀ character ∈ ['.', 's', 't', 'r', 'i', 'n', 'g', 'z'],
      separatesTokens character = false ∧ isQuote character = false := by
    simp only [List.forall_mem_cons, List.not_mem_nil, false_implies, implies_true]
    decide
  have literal : tokenize (write quote text) = [String.ofList (write quote text)] := by
    rw [write, List.cons_append, tokenize_of_quote quotes]
    exact congrArg (fun token => [String.ofList token]) (trimEnd_write quotes text [])
  rw [SourceLine.tokens, SourceLine.normal, written, normalize_stringLine quotes]
  exact (tokenize_append (by decide) plain rfl rfl _).trans (congrArg _ literal)

theorem stringLine_single (text : List Char) {comment : List Char}
    (single : ∀ character ∈ comment, character ≠ '\n') :
    ∀ character ∈ stringLine quote text comment, character ≠ '\n' := by
  have unescaped : ∀ character ∈ escape quote text, character ≠ '\n' := by
    intro character member
    rcases List.mem_flatMap.mp member with ⟨meant, -, written⟩
    have spells := escapeCharacter_spelled quotes meant
    generalize escapeCharacter quote meant = spelled at spells written
    cases spells with
    | escaped mark _ single =>
        rcases List.mem_cons.mp written with rfl | last
        · decide
        · rwa [List.mem_singleton.mp last]
    | plain _ _ single => rwa [List.mem_singleton.mp written]
  have visible : quote ≠ '\n' := by
    rcases (isQuote_iff quote).mp quotes with rfl | rfl <;> decide
  have directive : ∀ character ∈ ['.', 's', 't', 'r', 'i', 'n', 'g', 'z', ' '],
      character ≠ '\n' := by
    simp only [List.forall_mem_cons, List.not_mem_nil, false_implies, implies_true]
    decide
  have marker : ∀ character ∈ [' ', ';'], character ≠ '\n' := by
    simp only [List.forall_mem_cons, List.not_mem_nil, false_implies, implies_true]
    decide
  intro character member
  rw [stringLine_eq] at member
  rcases List.mem_append.mp member with before | last
  · rcases List.mem_append.mp before with front | mark
    · rcases List.mem_append.mp front with name | literal
      · exact directive character name
      · rcases List.mem_append.mp literal with opened | closing
        · rcases List.mem_cons.mp opened with rfl | inside
          · exact visible
          · exact unescaped character inside
        · rwa [List.mem_singleton.mp closing]
    · exact marker character mark
  · exact single character last

omit quotes in
/-- A carriage return at the end of the line belongs to the comment. -/
theorem dropReturn_stringLine (quote : Char) (text comment : List Char) :
    SourceLine.dropReturn (stringLine quote text comment) =
      stringLine quote text (SourceLine.dropReturn comment) := by
  rw [stringLine_eq, stringLine_eq]
  generalize ['.', 's', 't', 'r', 'i', 'n', 'g', 'z', ' '] ++ write quote text = front
  cases comment using List.reverseRecOn with
  | nil =>
      have marked : (front ++ [' ', ';']).getLast? = some ';' := by simp
      rw [List.append_nil, SourceLine.dropReturn, marked]
      exact (List.append_nil _).symm
  | append_singleton rest last =>
      simp only [SourceLine.dropReturn, ← List.append_assoc, List.getLast?_concat,
        List.dropLast_concat]
      split
      · rfl
      · rw [List.append_assoc]

theorem ofText_stringLine (before : String) (text : List Char) {comment : List Char}
    {ending : String} (single : ∀ character ∈ comment, character ≠ '\n')
    (ends : ending = "" ∨ ∃ after, ending = "\n" ++ after) :
    ∃ line later rest,
      SourceLine.ofText
          (before ++ "\n" ++ (String.ofList (stringLine quote text comment) ++ ending)) =
        SourceLine.ofText (before ++ "\n") ++ line :: later ∧
      line.text.toList = stringLine quote text rest ∧
      ∀ after, ending = "\n" ++ after →
        later.map (·.text.toList) = SourceLine.split after.toList := by
  have some : stringLine quote text comment ≠ [] := by
    rw [stringLine_eq]
    exact List.cons_ne_nil _ _
  have feed (after : String) : ("\n" ++ after).toList = '\n' :: after.toList :=
    String.toList_append
  have stops : ending.toList = [] ∨ ∃ after, ending.toList = '\n' :: after := by
    rcases ends with rfl | ⟨after, rfl⟩
    · exact .inl rfl
    · exact .inr ⟨after.toList, feed after⟩
  rcases SourceLine.split_of_ends (stringLine_single quotes text single) some stops with
    ⟨own, others, cut, written, next⟩
  have comments : ∃ rest, own = stringLine quote text rest := by
    rcases written with rfl | rfl
    · exact ⟨comment, rfl⟩
    · exact ⟨_, dropReturn_stringLine quote text comment⟩
  rcases comments with ⟨rest, rfl⟩
  rw [SourceLine.ofText_append, String.toList_append, String.toList_ofList, cut, List.zipIdx_cons,
    List.map_cons]
  refine ⟨_, _, rest, rfl, String.toList_ofList, ?_⟩
  rintro after rfl
  rw [List.map_map, ← next _ (feed after)]
  simp [Function.comp_def, List.zipIdx_map_fst]

end Line

/-! ## A statement among others -/

theorem Scan.ofLines_position (options : Options) (lines : List SourceLine) :
    (ofLines options lines).position =
      Position.afterAll options.profile {} (Outline.ofLines options lines).actions := by
  rw [ofLines_eq_performAll, close_eq]
  exact performAll_position options.profile _ _

theorem Scan.Reaches.actions {options : Options} {read : List SourceLine}
    {required : List OpeningLine} {scan : Scan}
    (reached : Reaches options read (.body required) scan) :
    ∃ origin actions,
      (∀ rest, Outline.ofLines options (read ++ rest) =
        let body := Outline.ofBody options.profile origin required scan.openSection
          (rest.filter SourceLine.isSignificant)
        { body with actions := actions ++ body.actions }) ∧
      scan.position = Position.afterAll options.profile {} actions ∧
      ∀ action ∈ actions, action.line ∈ read := by
  have ended := reached.ofLines_eq_run []
  rw [List.append_nil] at ended
  cases reached.traced with
  | body origin required scan actions outline =>
      have alone : (Outline.ofLines options read).actions = actions := by
        have none := congrArg Outline.actions (outline [])
        rw [List.append_nil] at none
        exact none.trans (List.append_nil actions)
      refine ⟨origin, actions, outline, ?_, ?_⟩
      · have place := Scan.ofLines_position options read
        rw [ended, alone] at place
        exact place
      · rw [← alone]
        exact fun action => Outline.line_mem_of_ofLines

theorem Ending.isElsewhere_of_mem {ending : Ending} {diagnostic : Diagnostic} (number : Nat)
    (member : diagnostic ∈ ending.diagnostics) : diagnostic.isElsewhere number = true := by
  cases ending with
  | finished => cases member
  | abandoned => cases member
  | exhausted stage =>
      rw [List.mem_singleton.mp member]
      cases stage with
      | origin => rfl
      | body required => cases required <;> rfl

/-- If a line does anything, it only places a statement that can be encoded whatever the
labels are. -/
def Outline.Encodes (outline : Outline) (profile : Profile) (number : Nat) : Prop :=
  ∀ action ∈ outline.actions, action.line.number = number →
    ∃ statement words, action.effect = .place statement ∧
      (∀ labels pc, statement.encode profile labels pc = .ok ⟨words, false⟩) ∧
      ∀ value ∈ words, value ≤ 0xFFFF

namespace Run

section Encodes

variable {options : Options} {source : String} {number : Nat}
  (encodes : (Outline.ofSource options source).Encodes options.profile number)
include encodes

theorem encode_of_number {placement : Placement}
    (member : placement ∈ (Outline.ofSource options source).placements options.profile)
    (same : placement.line.number = number) :
    ∃ words, (∀ labels, placement.encode options.profile labels = .ok ⟨words, false⟩) ∧
      ∀ value ∈ words, value ≤ 0xFFFF := by
  obtain ⟨statement, words, places, encoded, fits⟩ :=
    encodes _ (action_of_placement member) same
  cases places
  exact ⟨words, fun labels => encoded labels _, fits⟩

theorem remark_elsewhere {located : LocatedAction} {diagnostic : Diagnostic}
    (member : located ∈ (Outline.ofSource options source).located options.profile)
    (said : located.remark? options.profile
      (·.promptError? options.profile (ofSource options source).scan.labels) = some diagnostic) :
    diagnostic.isElsewhere number = true := by
  rcases LocatedAction.remark_eq_errorAt said with ⟨problem, rfl⟩
  apply bne_iff_ne.mpr
  intro same
  have listed : located.action ∈ (Outline.ofSource options source).actions := by
    rw [← layout_actions options.profile {} (Outline.ofSource options source).actions]
    exact List.mem_map_of_mem member
  obtain ⟨statement, words, places, encoded, -⟩ := encodes _ listed same
  have own : located.placement? = some ⟨located.position, located.action.line, statement⟩ := by
    rw [LocatedAction.placement?, places]
  rw [LocatedAction.remark?_of_placement own] at said
  simp [Placement.promptError?, Placement.error?, Placement.encode, encoded] at said

theorem error_elsewhere {placement : Placement} {diagnostic : Diagnostic}
    (member : placement ∈ (Outline.ofSource options source).placements options.profile)
    (wrong : placement.error? options.profile (ofSource options source).scan.labels =
      some diagnostic) : diagnostic.isElsewhere number = true := by
  rcases Placement.error_eq_errorAt wrong with ⟨problem, rfl⟩
  apply bne_iff_ne.mpr
  intro same
  obtain ⟨words, encoded, -⟩ := encode_of_number encodes member same
  simp [Placement.error?, encoded] at wrong

theorem emission_elsewhere {diagnostic : Diagnostic}
    (member : diagnostic ∈ (ofSource options source).emissionDiagnostics) :
    diagnostic.isElsewhere number = true := by
  unfold emissionDiagnostics at member
  split at member
  case h_2 => cases member
  case h_1 origin _ =>
    rcases List.mem_append.mp member with tooLarge | oversized
    · split at tooLarge
      · rw [List.mem_singleton.mp tooLarge]
        rfl
      · cases tooLarge
    · rcases List.mem_filterMap.mp oversized with ⟨cell, present, found⟩
      rcases Option.map_eq_some_iff.mp found with ⟨value, large, rfl⟩
      apply bne_iff_ne.mpr
      intro same
      rw [image_cells] at present
      rcases List.mem_flatMap.mp present with ⟨placement, placed, own⟩
      rcases List.mem_map.mp own with ⟨content, held, rfl⟩
      obtain ⟨words, encoded, fits⟩ := encode_of_number encodes placed same
      rw [Placement.values, encoded] at held
      rcases List.mem_map.mp held with ⟨small, listed, rfl⟩
      have narrow : ¬ 65536 ≤ small := Nat.not_le.mpr (Nat.lt_succ_of_le (fits small listed))
      simp [Cell.oversized?, Option.filter_some, narrow] at large

theorem isElsewhere_of_encodes :
    ∀ diagnostic ∈ (ofSource options source).diagnostics,
      diagnostic.isElsewhere number = true := by
  intro diagnostic member
  rw [diagnostics, scan_diagnostics, resolution_diagnostics] at member
  rcases List.mem_append.mp member with passes | emitted
  · rcases List.mem_append.mp passes with scanned | resolved
    · rcases List.mem_append.mp scanned with remarked | ended
      · rcases List.mem_filterMap.mp remarked with ⟨located, present, said⟩
        exact remark_elsewhere encodes present said
      · exact Ending.isElsewhere_of_mem number ended
    · rcases List.mem_filterMap.mp resolved with ⟨placement, deferred, wrong⟩
      exact error_elsewhere encodes (List.mem_filter.mp deferred).1 wrong
  · exact emission_elsewhere encodes emitted

end Encodes

theorem actions_of_single {options : Options} {source : String} {read rest : List SourceLine}
    {scan : Scan} {line : SourceLine} {effect : Effect}
    (lines : SourceLine.ofText source = read ++ line :: rest)
    (reached : Scan.Reaches options read (.body []) scan) (significant : line.isSignificant)
    (reading : Reading.ofTokens options.profile scan.openSection line.tokens = .single effect) :
    ∃ start before after,
      (Outline.ofSource options source).origin = some start ∧
      (Outline.ofSource options source).actions = before ++ ⟨line, effect⟩ :: after ∧
      scan.position = Position.afterAll options.profile {} before ∧
      ∀ action ∈ before ++ after, action.line.number ≠ line.number := by
  have above := SourceLine.ofText_above source
  rw [lines] at above
  have lower := (List.pairwise_append.mp above).2.2
  have upper := (List.pairwise_cons.mp (List.pairwise_append.mp above).2.1).1
  rcases reached.actions with ⟨start, actions, outline, position, members⟩
  have whole : Outline.ofSource options source = _ :=
    (congrArg (Outline.ofLines options) lines).trans (outline (line :: rest))
  rw [List.filter_cons_of_pos significant, Outline.ofBody_of_proceed rfl reading] at whole
  refine ⟨start, actions, _, ?_, congrArg Outline.actions whole, position, ?_⟩
  · rw [whole]
    exact Outline.ofBody_origin ..
  · intro action member
    rcases List.mem_append.mp member with earlier | later
    · exact Nat.ne_of_lt (lower _ (members action earlier) line List.mem_cons_self)
    · have below := (Outline.ofBody_follows ..).line_mem later
      exact Nat.ne_of_gt (upper _ (List.mem_filter.mp below).1)

/-- A program with a line that only places a statement, which can be encoded whatever the
labels are. -/
structure Places (options : Options) (source : String) (read : List SourceLine) (scan : Scan)
    (line : SourceLine) (statement : Statement) (words : List Nat) : Prop where
  lines : ∃ rest, SourceLine.ofText source = read ++ line :: rest
  reached : Scan.Reaches options read (.body []) scan
  significant : line.isSignificant
  reading : Reading.ofTokens options.profile scan.openSection line.tokens =
    .single (.place statement)
  encoded : ∀ labels pc, statement.encode options.profile labels pc = .ok ⟨words, false⟩
  fits : ∀ value ∈ words, value ≤ 0xFFFF

variable {options : Options} {source : String} {read : List SourceLine} {scan : Scan}
  {line : SourceLine} {statement : Statement} {words : List Nat}
  (places : Places options source read scan line statement words)
include places

theorem Places.actions :
    ∃ start before after,
      (Outline.ofSource options source).origin = some start ∧
      (Outline.ofSource options source).actions = before ++ ⟨line, .place statement⟩ :: after ∧
      scan.position = Position.afterAll options.profile {} before ∧
      ∀ action ∈ before ++ after, action.line.number ≠ line.number := by
  obtain ⟨rest, lines⟩ := places.lines
  exact actions_of_single lines places.reached places.significant places.reading

theorem Places.encodes : (Outline.ofSource options source).Encodes options.profile line.number := by
  rcases places.actions with ⟨start, before, after, -, actions, -, others⟩
  intro action member same
  rw [actions] at member
  rcases List.mem_append.mp member with earlier | rest
  · exact absurd same (others action (List.mem_append_left after earlier))
  · rcases List.mem_cons.mp rest with rfl | later
    · exact ⟨statement, words, rfl, places.encoded, places.fits⟩
    · exact absurd same (others action (List.mem_append_right before later))

theorem Places.isElsewhere :
    ∀ diagnostic ∈ (ofSource options source).diagnostics,
      diagnostic.isElsewhere line.number = true :=
  isElsewhere_of_encodes places.encodes

theorem Places.outputBinary :
    ∃ start above own below,
      outputBinary (ofSource options source).result = some ⟨start, above ++ own ++ below⟩ ∧
      above.length = scan.image.size ∧ own.map BitVec.toNat = words := by
  rcases places.actions with ⟨start, before, after, origin, actions, position, -⟩
  let placement : Placement := ⟨scan.position, line, statement⟩
  have placements : (Outline.ofSource options source).placements options.profile =
      TwoPass.placements options.profile {} before ++ placement ::
        TwoPass.placements options.profile (scan.position.after options.profile (.place statement))
          after := by
    rw [Outline.placements, actions, placements_append, placements_cons, ← position]
    rfl
  have consecutive : Consecutive 0
      ((Outline.ofSource options source).placements options.profile) :=
    Outline.consecutive_placements
  rw [placements] at consecutive
  have offset := consecutive.offset_eq options.profile (ofSource options source).scan.labels
  rw [Nat.zero_add] at offset
  rw [outputBinary_result, origin_eq, origin, Option.map_some, emit_words, placements,
    List.flatMap_append, List.flatMap_cons, ← List.append_assoc]
  have encoded : placement.encode options.profile (ofSource options source).scan.labels =
      .ok ⟨words, false⟩ := places.encoded _ _
  exact ⟨start, _, _, _, rfl, offset.symm, Placement.toNat_words encoded places.fits⟩

end Run

/-! ## Strings in a program -/

theorem Reading.ofTokens_storage {profile : Profile} {current : Option Section} (kind : Storage)
    {operands : List String} (counted : kind.arity.check kind.name operands = .ok ())
    (allowed : profile.sectioned → current = some .data) :
    ofTokens profile current (kind.name :: operands) =
      .single (.place (.storage kind operands)) := by
  have plain : profile.mayDefine kind.name = false := by
    cases profile <;> cases kind <;> decide +kernel
  have found : Directive.ofName? profile kind.name = some (.storage kind) := by
    cases profile <;> cases kind <;> decide +kernel
  have dotted : startsWith '.' kind.name = true := by cases kind <;> decide +kernel
  have taken : profile.takeLabel (kind.name :: operands) = ⟨none, kind.name :: operands⟩ :=
    Profile.takeLabel_append operands (fun _ none => absurd none (Option.not_mem_none _)) plain
  have placed : ¬(profile.sectioned ∧ current ≠ some .data) := fun misplaced =>
    misplaced.2 (allowed misplaced.1)
  have reading : ofStatement profile current (kind.name :: operands) =
      .single (.place (.storage kind operands)) := by
    simp only [ofStatement, dotted, if_true, found, ofDirective, Directive.arity, Directive.name,
      counted]
    exact if_neg placed
  simp only [ofTokens, taken, reading]
  rfl

theorem Reading.ofTokens_stringz (current : Option Section) (literal : String) :
    ofTokens .baseline current [".stringz", literal] =
      .single (.place (.storage .string [literal])) :=
  ofTokens_storage .string rfl fun sectioned => absurd sectioned (by decide)

theorem Storage.encode_write {quote : Char} (quotes : isQuote quote = true) {text : List Char}
    (some : text ≠ []) (labels : Labels) :
    Storage.encode labels .string [String.ofList (write quote text)] =
      .ok ⟨text.map Char.toNat ++ [0], false⟩ := by
  rw [encode, parse, codes_write quotes some]
  rfl

theorem Run.result_of_single {options : Options} {source : String} {start : Address}
    {line : SourceLine} {statement : Statement} {words : List Nat}
    (outline : Outline.ofSource options source =
      ⟨some start, [⟨line, .place statement⟩], .finished⟩)
    (encoded : ∀ labels pc, statement.encode options.profile labels pc = .ok ⟨words, false⟩)
    (fits : ∀ value ∈ words, value ≤ 0xFFFF) (room : start.toNat + words.length ≤ 65536) :
    ∃ assembly, (ofSource options source).result = .ok assembly ∧ assembly.start = start ∧
      assembly.binary.words.map BitVec.toNat = words ∧ assembly.warnings = [] := by
  have accepted : (ofSource options source).scan.origin = some start := by
    rw [origin_eq, outline]
  have placements : (Outline.ofSource options source).placements options.profile =
      [⟨{}, line, statement⟩] := by
    rw [outline]
    rfl
  have size : (Outline.ofSource options source).size options.profile = words.length := by
    have length : words.length = statement.size :=
      Statement.encode_length (encoded ⟨{}, start, .second⟩ 0)
    rw [outline, length]
    exact Nat.zero_add _
  have sound : (Outline.ofSource options source).Sound options.profile start := by
    constructor
    case unremarked =>
      rw [outline]
      intro located member
      rw [List.mem_singleton.mp member]
      rfl
    case ended =>
      rw [outline]
      nofun
    case encoded =>
      rw [placements]
      intro placement member
      rw [List.mem_singleton.mp member]
      exact ⟨⟨words, false⟩, encoded _ _, fits⟩
    case room =>
      rw [size]
      exact .inr room
  rcases (result_ok_iff_sound accepted).mpr sound with ⟨assembly, done⟩
  rcases (result_eq_ok_iff _ assembly).mp done with ⟨clean, origin, known, record⟩
  refine ⟨assembly, done, ?_, ?_, ?_⟩
  · exact Option.some.inj ((start_of_ok done).symm.trans accepted)
  · let labels := (ofSource options source).scan.labels
    let placement : Placement := ⟨{}, line, statement⟩
    have emitted : assembly.binary.words = placement.words options.profile labels := by
      rw [Assembly.binary, emitted_of_ok done, emit_words, placements]
      exact List.append_nil _
    have known : placement.encode options.profile labels = .ok ⟨words, false⟩ := encoded _ _
    rw [emitted]
    exact Placement.toNat_words known fits
  · have said : (ofSource options source).diagnostics = [] := by
      rw [diagnostics_of_clean clean, outline]
      rfl
    rw [record]
    exact said

theorem Outline.ofSource_of_stringLine {role : Role} {source : String}
    {first line last : SourceLine} {literal : String} {start : Address}
    (significant : (SourceLine.ofText source).filter SourceLine.isSignificant = [first, line, last])
    (read : Scan.readOrigin first.tokens = .ok start) (tokens : line.tokens = [".stringz", literal])
    (ends : last.tokens = [".end"]) :
    ofSource ⟨.baseline, role⟩ source =
      ⟨some start, [⟨line, .place (.storage .string [literal])⟩], .finished⟩ := by
  have finish : Reading.ofTokens .baseline none [".end"] = ⟨[], .finish⟩ := by decide +kernel
  have stringz : Reading.ofTokens .baseline none line.tokens =
      ⟨[.place (.storage .string [literal])], .proceed⟩ := by
    rw [tokens, Reading.ofTokens_stringz]
    rfl
  have free (line : SourceLine) : unmet? [] line = none := rfl
  have finished : ofBody .baseline start [] none [last] = ⟨some start, [], .finished⟩ := by
    rw [ofBody, free, ends]
    simp only [finish]
    rfl
  have body := ofBody_of_proceed (free line) stringz start [last]
  rw [ofSource_of_origin significant read]
  refine body.trans ?_
  dsimp only [List.tail_nil, List.foldl, Effect.sectionAfter]
  rw [finished]
  rfl

/-- Every string comes from its literal to memory, whatever characters are in it and
whatever comment stands after it. On its line of a program it places the codes of its
characters and a zero, and nothing is said of that line. A program of nothing else is
assembled if there is room for it. -/
theorem strings_reach_memory (role : Role) (before ending : String) (quote : Char)
    (text comment : List Char) (scan : Scan) (quotes : isQuote quote = true)
    (filled : text ≠ []) (small : ∀ character ∈ text, character.toNat ≤ 0xFFFF)
    (single : ∀ character ∈ comment, character ≠ '\n')
    (ends : ending = "" ∨ ∃ after, ending = "\n" ++ after)
    (reached :
      Scan.Reaches ⟨.baseline, role⟩ (SourceLine.ofText (before ++ "\n")) (.body []) scan) :
    let options : Options := ⟨.baseline, role⟩
    let source := before ++ "\n" ++ (String.ofList (stringLine quote text comment) ++ ending)
    let literal := String.ofList (write quote text)
    let codes := text.map Char.toNat ++ [0]
    (∃ line later,
      SourceLine.ofText source = SourceLine.ofText (before ++ "\n") ++ line :: later ∧
      line.tokens = [".stringz", literal] ∧
      (∀ labels, Storage.encode labels .string [literal] = .ok ⟨codes, false⟩) ∧
      ∀ diagnostic ∈ outputDiagnostics (assemble options source),
        diagnostic.isElsewhere line.number = true) ∧
    (∃ start above own below,
      outputBinary (assemble options source) = some ⟨start, above ++ own ++ below⟩ ∧
      above.length = scan.image.size ∧ own.map BitVec.toNat = codes) ∧
    ∀ first start,
      (SourceLine.ofText (before ++ "\n")).filter SourceLine.isSignificant = [first] →
      Scan.readOrigin first.tokens = .ok start → ending = "\n.end" →
      start.toNat + codes.length ≤ 65536 →
      ∃ assembly, assemble options source = .ok assembly ∧ assembly.start = start ∧
        assembly.binary.words.map BitVec.toNat = codes ∧ assembly.warnings = [] := by
  intro options source literal codes
  rcases ofText_stringLine quotes before text single ends with
    ⟨line, later, rest, lines, written, next⟩
  have tokens : line.tokens = [".stringz", literal] := tokens_of_stringLine quotes written
  have significant : line.isSignificant := SourceLine.isSignificant_of_tokens (by simp [tokens])
  have encoded (labels : Labels) : Storage.encode labels .string [literal] = .ok ⟨codes, false⟩ :=
    Storage.encode_write quotes filled labels
  have fits : ∀ value ∈ codes, value ≤ 0xFFFF := by
    intro value member
    rcases List.mem_append.mp member with code | zero
    · rcases List.mem_map.mp code with ⟨character, listed, rfl⟩
      exact small character listed
    · rw [List.mem_singleton.mp zero]
      exact Nat.zero_le _
  have places : Run.Places options source (SourceLine.ofText (before ++ "\n")) scan line
      (.storage .string [literal]) codes := by
    refine ⟨⟨later, lines⟩, reached, significant, ?_, fun labels pc => encoded labels, fits⟩
    rw [tokens]
    exact Reading.ofTokens_stringz scan.openSection literal
  refine ⟨⟨line, later, lines, tokens, encoded, ?_⟩, places.outputBinary, ?_⟩
  · rw [assemble, Run.outputDiagnostics_result]
    exact places.isElsewhere
  · rintro first start opening read rfl room
    have after : later.map (·.text.toList) = [".end".toList] := next ".end" rfl
    rcases List.map_eq_singleton_iff.mp after with ⟨last, rfl, spelled⟩
    have finish : last.tokens = [".end"] := by
      rw [SourceLine.tokens, SourceLine.normal, spelled]
      decide +kernel
    have present : last.isSignificant := SourceLine.isSignificant_of_tokens (by simp [finish])
    have whole : (SourceLine.ofText source).filter SourceLine.isSignificant =
        [first, line, last] := by
      rw [lines, List.filter_append, opening, List.filter_cons_of_pos significant,
        List.filter_cons_of_pos present]
      rfl
    exact Run.result_of_single (Outline.ofSource_of_stringLine whole read tokens finish)
      (fun labels pc => encoded labels) fits room

/-- Marks of a comment, of an operand and of a label, both quotes and the escape
character stand in the literal, and a quote stands in the comment. -/
theorem special_characters_reach_memory :
    let text := ['A', ';', '\\', '"', '\'', ',', ':', '\n', '\t', ' ']
    let source :=
      ".orig x3000" ++ "\n" ++ (String.ofList (stringLine '"' text ['"', '\r']) ++ "\n.end")
    ∃ assembly, assemble {} source = .ok assembly ∧ assembly.start = ⟨0x3000⟩ ∧
      assembly.binary.words.map BitVec.toNat = [65, 59, 92, 34, 39, 44, 58, 10, 9, 32, 0] ∧
      assembly.warnings = [] := by
  intro text source
  let opening := SourceLine.ofText (".orig x3000" ++ "\n")
  have comes : (Scan.readAll {} .origin {} opening).map Prod.fst = some (.body []) := by
    decide +kernel
  rcases Option.map_eq_some_iff.mp comes with ⟨⟨stage, scan⟩, found, rfl⟩
  have reached : Scan.Reaches {} opening (.body []) scan := Scan.Reaches.start.readAll _ found
  have significant : opening.filter SourceLine.isSignificant = [⟨0, ".orig x3000"⟩] := by
    decide +kernel
  have read : Scan.readOrigin (SourceLine.tokens ⟨0, ".orig x3000"⟩) = .ok ⟨0x3000⟩ := by rfl
  have small : ∀ character ∈ text, character.toNat ≤ 0xFFFF := by
    simp only [text, List.forall_mem_cons, List.not_mem_nil, false_implies, implies_true]
    decide
  have single : ∀ character ∈ ['"', '\r'], character ≠ '\n' := by
    simp only [List.forall_mem_cons, List.not_mem_nil, false_implies, implies_true]
    decide
  exact (strings_reach_memory .primary ".orig x3000" "\n.end" '"' text ['"', '\r'] scan rfl
    (by decide) small single (.inr ⟨".end", rfl⟩) reached).2.2
      ⟨0, ".orig x3000"⟩ ⟨0x3000⟩ significant read rfl (by decide)

end TwoPass
