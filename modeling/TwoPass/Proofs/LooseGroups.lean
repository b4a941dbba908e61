import TwoPass.Proofs.CompactWords
import TwoPass.Proofs.LabelSpelling
import TwoPass.Proofs.Locality
import TwoPass.Proofs.OperandGroups
import TwoPass.Proofs.RegisterSpellings
import TwoPass.Proofs.StatementProblems

/-! # Blanks within groups

Blanks inside the brackets of a group leave what is in the group as it is. But they may set a
bracket apart as a token of its own, and such a token counts as an operand. So an instruction
with blanks inside its brackets comes to the same as without them, unless it then has more
operands than its mnemonic takes. -/

namespace TwoPass.Compact

/-! ## Operands in a line -/

def groupMarks : List Char :=
  ['[', ']', '\x7b', '\x7d']

theorem visible_of_mem_groupMarks {mark : Char} (known : mark ∈ groupMarks) :
    separatesTokens mark = false ∧ isQuote mark = false := by
  have visible : groupMarks.all (fun mark => !separatesTokens mark && !isQuote mark) = true := rfl
  simpa using List.all_eq_true.mp visible mark known

/-- Text that is neither part of a group nor of a literal. -/
structure Plain (text : List Char) : Prop where
  unmarked : ∀ mark ∈ groupMarks, mark ∉ text
  unquoted : text.head?.all (!isQuote ·) = true

theorem Plain.of_bare {text : List Char} (bare : Bare text)
    (unquoted : text.head?.all (!isQuote ·) = true) : Plain text := by
  refine ⟨fun mark known member => ?_, unquoted⟩
  have marks : groupMarks.all isBracket = true := rfl
  cases (List.all_eq_true.mp marks mark known).symm.trans (bare mark member)

theorem head?_unquoted {text : List Char}
    (other : ∀ quote rest, isQuote quote = true → text ≠ quote :: rest) :
    text.head?.all (!isQuote ·) = true := by
  cases text with
  | nil => rfl
  | cons first rest =>
      have plain : isQuote first = false :=
        Bool.eq_false_iff.mpr fun quotes => other first rest quotes rfl
      simp [plain]

theorem eq_of_isQuote {character : Char} (quotes : isQuote character = true) :
    character = '"' ∨ character = '\'' := by
  simpa [isQuote] using quotes

theorem Plain.of_shape {token : String} {shape : Shape} (shaped : Shape.of? token = some shape) :
    Plain token.toList := by
  apply Plain.of_bare (Bare.of_shape shaped)
  apply head?_unquoted
  intro quote rest quotes whole
  have accepted := List.find?_some shaped
  rw [whole] at accepted
  obtain rfl | rfl := eq_of_isQuote quotes <;> cases shape <;> cases accepted

theorem Plain.of_number {token : String} {value : Int} (read : Numeral.parse token = .ok value) :
    Plain token.toList := by
  apply Plain.of_bare (Bare.of_parse read)
  apply head?_unquoted
  intro quote rest quotes whole
  have unread : Numeral.digitValue? 10 quote = none := by
    obtain rfl | rfl := eq_of_isQuote quotes <;> rfl
  have failed : Numeral.magnitude? 10 (quote :: rest) = none := by
    simp [Numeral.magnitude?, unread]
  have same : Numeral.parse token = .error (.malformedImmediate token) := by
    unfold Numeral.parse
    rw [whole]
    obtain rfl | rfl := eq_of_isQuote quotes <;> simp [Numeral.takeMinus, Numeral.takeRadix, failed]
  cases same.symm.trans read

theorem plain_of_named {name : String} {register : Register}
    (named : Register.ofName? .sixteen name = some register) : Plain name.toList := by
  obtain low | high | ⟨other, -⟩ := shape_of_named named
  · exact .of_shape low
  · exact .of_shape high
  · exact .of_shape other

theorem plain_of_namesLow {name : String} {number : BitVec 3} (named : NamesLow name number) :
    Plain name.toList :=
  plain_of_named named

theorem plain_of_immediate {field : Field} {token : String} {bits : BitVec field.width}
    (read : Numeral.immediate field token = .ok bits) : Plain token.toList := by
  obtain ⟨value, number, -⟩ := bind_eq_ok.mp read
  exact .of_number number

theorem plain_of_label {token : String} (label : readsAsNumber token = false) :
    Plain token.toList := by
  unfold readsAsNumber at label
  split at label
  · rename_i shaped
    exact .of_shape shaped
  · cases label

theorem plain_of_mnemonic {mnemonic : String} {form : Form}
    (known : mnemonics.lookup mnemonic = some form) : Plain mnemonic.toList := by
  have shaped : ∀ entry ∈ mnemonics, (Shape.of? entry.1).isSome = true := by decide +kernel
  obtain ⟨shape, found⟩ := Option.isSome_iff_exists.mp (shaped _ (mem_of_lookup known))
  exact .of_shape found

theorem plain_of_target {field : Field} {token : String} {target : Target field.width}
    (read : Target.parse field token = .ok target) : Plain token.toList := by
  unfold Target.parse at read
  split at read
  · obtain ⟨bits, number, -⟩ := map_eq_ok.mp read
    exact plain_of_immediate number
  · rename_i label
    exact plain_of_label (Bool.eq_false_iff.mpr label)

theorem plain_of_parseBased {forms : AddressForms} {rd : BitVec 3} {base offset : String}
    {instruction : Instruction Target} (read : parseBased forms rd base offset = .ok instruction) :
    Plain base.toList ∧ Plain offset.toList := by
  obtain ⟨register, named, read⟩ := bind_eq_ok.mp read
  refine ⟨plain_of_named (Register.ofName?_of_parse named), ?_⟩
  split at read
  · obtain ⟨form, -, read⟩ := bind_eq_ok.mp read
    obtain ⟨bits, number, -⟩ := bind_eq_ok.mp read
    exact plain_of_immediate number
  · split at read
    · obtain ⟨form, -, read⟩ := bind_eq_ok.mp read
      obtain ⟨target, place, -⟩ := bind_eq_ok.mp read
      exact plain_of_target place
    · split at read
      · obtain ⟨form, -, read⟩ := bind_eq_ok.mp read
        obtain ⟨number, low, -⟩ := bind_eq_ok.mp read
        exact plain_of_namesLow (namesLow_of_lowRegister low)
      · obtain ⟨bits, number, -⟩ := bind_eq_ok.mp read
        exact plain_of_immediate number

theorem plain_of_parseWriteBack {token : String} {number : BitVec 3}
    (read : parseWriteBack token = .ok number) : Plain token.toList := by
  obtain ⟨name, rfl, low⟩ := exists_of_parseWriteBack read
  obtain ⟨unmarked, unquoted⟩ := plain_of_namesLow low
  have whole : (name ++ "!").toList = name.toList ++ ['!'] := String.toList_append
  rw [whole]
  constructor
  · intro mark known
    have other : groupMarks.all (· ≠ '!') = true := rfl
    have differs : mark ≠ '!' := of_decide_eq_true (List.all_eq_true.mp other mark known)
    simpa [differs] using unmarked mark known
  · rw [List.head?_append_of_ne_nil _ (ne_nil_of_named low)]
    exact unquoted

namespace RegisterList

theorem plain_of_spellsRange {text : List Char} {first last : Nat}
    (spelled : SpellsRange text first last) : Plain text := by
  apply Plain.of_bare spelled.bare
  rw [spelled.head?]
  rfl

theorem plain_of_insertEntry {extra : Option Register} {registers result : RegisterList}
    {entry : String} (added : insertEntry extra registers entry = .ok result) :
    Plain entry.toList := by
  unfold insertEntry at added
  split at added
  · rename_i read
    exact plain_of_spellsRange (range?_eq_some_iff.mp read)
  · obtain ⟨register, named, -⟩ := bind_eq_ok.mp added
    exact plain_of_named (Register.ofName?_of_parse named)

theorem plain_of_foldlM {extra : Option Register} {registers result : RegisterList}
    {entries : List String} (read : entries.foldlM (insertEntry extra) registers = .ok result) :
    ∀ entry ∈ entries, Plain entry.toList := by
  induction entries generalizing registers with
  | nil => exact List.forall_mem_nil _
  | cons entry entries induction =>
      rw [List.foldlM_cons] at read
      obtain ⟨next, added, later⟩ := bind_eq_ok.mp read
      exact List.forall_mem_cons.mpr ⟨plain_of_insertEntry added, induction later⟩

theorem exists_plain_of_parse {extra : Option Register} {tokens : List String}
    {registers : RegisterList} (read : parse extra tokens = .ok registers) :
    ∃ entries, enclosed? '\x7b' '\x7d' tokens = some entries ∧ entries ≠ [] ∧
      (∀ entry ∈ entries, Plain entry.toList) ∧
      ∀ others, enclosed? '\x7b' '\x7d' others = some entries →
        parse extra others = .ok registers := by
  obtain ⟨entries, grouped, some, added⟩ := exists_of_parse read
  refine ⟨entries, grouped, some, plain_of_foldlM added, fun others otherGrouped => ?_⟩
  rw [parse_of_enclosed? otherGrouped some, added]

end RegisterList

/-! ## Lines with groups -/

section

variable {opening closing : Char} {texts : List (List Char)}

theorem head?_unquoted_of_mem_bracketed (opens : isQuote opening = false)
    (closes : isQuote closing = false)
    (heads : ∀ text ∈ texts, text.head?.all (!isQuote ·) = true) :
    ∀ text ∈ bracketed opening closing texts, text.head?.all (!isQuote ·) = true := by
  have front : ∀ text ∈ opened opening texts, text.head?.all (!isQuote ·) = true := by
    cases texts with
    | nil => exact heads
    | cons first others =>
        rw [List.forall_mem_cons] at heads
        rw [opened, List.modifyHead_cons, List.forall_mem_cons]
        exact ⟨by simp [opens], heads.2⟩
  rw [bracketed]
  obtain empty | ⟨init, last, parts⟩ := List.eq_nil_or_concat' (opened opening texts)
  · simp [empty, closed, closes]
  · rw [parts, List.forall_mem_append, List.forall_mem_singleton] at front
    rw [parts, closed_concat, List.forall_mem_append, List.forall_mem_singleton]
    refine ⟨front.1, ?_⟩
    cases last with
    | nil => simp [closes]
    | cons first rest => exact front.2

variable {lead group entries : List String} (opens : opening ∈ groupMarks)
  (closes : closing ∈ groupMarks) (different : opening ≠ closing)
  (grouped : enclosed? opening closing group = some entries)
  (plain : ∀ token ∈ lead ++ entries, Plain token.toList)
include opens closes different grouped plain

/-- A line that ends in a group has no literal, and its words are those before the group and
the texts of the group in their brackets. -/
theorem exists_words_of_group {line : List Char} (spelled : tokenize line = lead ++ group) :
    ∃ texts, texts ≠ [] ∧ (∀ text ∈ texts, Unbracketed opening closing text) ∧
      entries = (texts.filter (!·.isEmpty)).map String.ofList ∧ group.length = texts.length ∧
      (∀ character ∈ line, isQuote character = false) ∧
      words separatesTokens line =
        lead.map String.toList ++ bracketed opening closing texts := by
  obtain ⟨texts, nonempty, whole, inside, rfl⟩ := exists_texts different grouped
  rw [List.forall_mem_append] at plain
  have inner : ∀ text ∈ texts, text.head?.all (!isQuote ·) = true := by
    intro text member
    by_cases empty : text = []
    · rw [empty]
      rfl
    · have kept : String.ofList text ∈ (texts.filter (!·.isEmpty)).map String.ofList :=
        List.mem_map_of_mem (List.mem_filter.mpr ⟨member, by simpa using empty⟩)
      simpa using (plain.2 _ kept).unquoted
  have framed := head?_unquoted_of_mem_bracketed (visible_of_mem_groupMarks opens).2
    (visible_of_mem_groupMarks closes).2 inner
  have heads : ∀ token ∈ lead ++ group, token.toList.head?.all (!isQuote ·) = true := by
    rw [List.forall_mem_append]
    refine ⟨fun token member => (plain.1 token member).unquoted, fun token member => ?_⟩
    exact framed _ (whole ▸ List.mem_map_of_mem member)
  have unquoted := unquoted_of_tokenize (spelled ▸ heads)
  have count : group.length = texts.length := by
    rw [← List.length_map String.toList, whole, length_bracketed nonempty]
  refine ⟨texts, nonempty, inside, rfl, count, unquoted, ?_⟩
  rw [← whole, ← List.map_append, ← spelled, tokenize_of_unquoted unquoted]
  simp

/-- Blanks within a group make brackets tokens, and leave what is in the group as it is. -/
theorem exists_loosened {before middle after blanks moreBlanks : List Char}
    (spelled : tokenize (before ++ opening :: (middle ++ closing :: after)) = lead ++ group)
    (some : entries ≠ [])
    (blank : ∀ character ∈ blanks ++ moreBlanks, isBlank character = true) :
    ∃ loosened,
      tokenize (before ++ opening :: (blanks ++ (middle ++ (moreBlanks ++ closing :: after)))) =
        lead ++ loosened ∧
      enclosed? opening closing loosened = Option.some entries ∧
      loosened.length = group.length + (setsApart blanks middle.head?).toNat +
        (setsApart moreBlanks middle.getLast?).toNat := by
  obtain ⟨texts, nonempty, inside, rfl, count, unquoted, tight⟩ :=
    exists_words_of_group opens closes different grouped plain spelled
  have holds : ∃ text ∈ texts, text ≠ [] := by simpa using some
  have separators : ∀ character ∈ blanks ++ moreBlanks, separatesTokens character = true := by
    intro character member
    simp [separatesTokens, blank character member]
  rw [List.forall_mem_append] at separators
  have outside : ∀ text ∈ lead.map String.toList, Unbracketed opening closing text := by
    rw [List.forall_mem_map]
    intro token member
    have clean := (plain token (List.mem_append_left _ member)).unmarked
    exact ⟨clean opening opens, clean closing closes⟩
  have loose := words_loosened different nonempty outside inside separators.1
    (visible_of_mem_groupMarks opens).1 (visible_of_mem_groupMarks closes).1 holds separators.2
    tight
  have looseUnquoted : ∀ character ∈ before ++ opening :: (blanks ++
      (middle ++ (moreBlanks ++ closing :: after))), isQuote character = false := by
    intro character member
    by_cases added : character ∈ blanks ++ moreBlanks
    · exact not_isQuote_of_isBlank (blank character added)
    · apply unquoted
      simp only [List.mem_append, List.mem_cons, not_or] at member added ⊢
      tauto
  have some' : gained blanks middle.head? ++ texts ++ gained moreBlanks middle.getLast? ≠ [] := by
    simp [nonempty]
  have inside' : ∀ text ∈ gained blanks middle.head? ++ texts ++ gained moreBlanks middle.getLast?,
      Unbracketed opening closing text := by
    simp only [List.forall_mem_append]
    exact ⟨⟨unbracketed_of_mem_gained, inside⟩, unbracketed_of_mem_gained⟩
  refine ⟨(bracketed opening closing (gained blanks middle.head? ++ texts ++
    gained moreBlanks middle.getLast?)).map String.ofList, ?_, ?_, ?_⟩
  · rw [tokenize_of_unquoted looseUnquoted, loose]
    simp
  · rw [enclosed?_of_texts different some' (by simp) inside']
    simp [filter_gained]
  · rw [List.length_map, length_bracketed some', count]
    simp only [gained, List.length_append, List.length_replicate]
    omega

end

/-! ## Instructions with groups -/

def Form.brackets? : Form → Option (Char × Char)
  | .memory _ _ => some ('[', ']')
  | .stackList _ _ | .multiple _ => some ('\x7b', '\x7d')
  | _ => none

/-- Operands with a group: what stands before the group, and what is in it. -/
structure HasGroup (opening closing : Char)
    (read : List String → Except Problem (Instruction Target)) (instruction : Instruction Target)
    (operands front group entries : List String) : Prop where
  whole : operands = front ++ group
  grouped : enclosed? opening closing group = some entries
  some : entries ≠ []
  plain : ∀ operand ∈ front ++ entries, Plain operand.toList
  kept : ∀ others, enclosed? opening closing others = Option.some entries →
    read (front ++ others) = .ok instruction

theorem parseMemory_of_enclosed? {forms : AddressForms} {rd : String} {number : BitVec 3}
    {group entries : List String} (low : lowRegister rd = .ok number)
    (grouped : enclosed? '[' ']' group = some entries) :
    parseMemory forms rd group = parseBracketed forms number group := by
  rw [parseMemory, low, ok_bind]
  split
  · rw [if_pos (startsWith_of_enclosed? grouped)]
  · rfl

theorem exists_of_parseBracketed {forms : AddressForms} {rd : BitVec 3} {group : List String}
    {instruction : Instruction Target} (read : parseBracketed forms rd group = .ok instruction) :
    ∃ entries, enclosed? '[' ']' group = some entries ∧ entries ≠ [] ∧
      (∀ entry ∈ entries, Plain entry.toList) ∧
      ∀ others, enclosed? '[' ']' others = some entries →
        parseBracketed forms rd others = .ok instruction := by
  unfold parseBracketed at read
  split at read
  · rename_i base grouped
    refine ⟨[base], grouped, List.cons_ne_nil _ _, ?_, fun others otherGrouped => ?_⟩
    · exact List.forall_mem_singleton.mpr (plain_of_parseBased read).1
    · rw [parseBracketed, otherGrouped]
      exact read
  · rename_i base offset grouped
    obtain ⟨basePlain, offsetPlain⟩ := plain_of_parseBased read
    refine ⟨[base, offset], grouped, List.cons_ne_nil _ _, ?_, fun others otherGrouped => ?_⟩
    · exact List.forall_mem_cons.mpr ⟨basePlain, List.forall_mem_singleton.mpr offsetPlain⟩
    · rw [parseBracketed, otherGrouped]
      exact read
  · cases read

theorem Form.plain_or_group {form : Form} {opening closing : Char} {mnemonic : String}
    {operands : List String} {instruction : Instruction Target}
    (marks : form.brackets? = some (opening, closing))
    (read : form.parse mnemonic operands = .ok instruction) :
    (∀ operand ∈ operands, Plain operand.toList) ∨
      ∃ front group entries, HasGroup opening closing (form.parse mnemonic) instruction operands
        front group entries := by
  cases form with
  | memory access extent =>
      cases marks
      cases operands with
      | nil => cases read
      | cons rd operands =>
          obtain ⟨number, low, read⟩ := bind_eq_ok.mp read
          have destination := plain_of_namesLow (namesLow_of_lowRegister low)
          have group (read : parseBracketed (addressForms access extent) number operands =
              .ok instruction) : ∃ front group entries, HasGroup '[' ']'
                ((Form.memory access extent).parse mnemonic) instruction (rd :: operands) front
                group entries := by
            obtain ⟨entries, grouped, some, plain, kept⟩ := exists_of_parseBracketed read
            refine ⟨[rd], operands, entries, rfl, grouped, some, ?_, fun others otherGrouped => ?_⟩
            · exact List.forall_mem_cons.mpr ⟨destination, plain⟩
            · exact (parseMemory_of_enclosed? low otherGrouped).trans (kept others otherGrouped)
          split at read
          · split at read
            · exact .inr (group read)
            · obtain ⟨form, -, read⟩ := bind_eq_ok.mp read
              obtain ⟨target, place, -⟩ := bind_eq_ok.mp read
              exact .inl (List.forall_mem_cons.mpr
                ⟨destination, List.forall_mem_singleton.mpr (plain_of_target place)⟩)
          · exact .inr (group read)
  | stackList access extra =>
      cases marks
      obtain ⟨registers, listed, read⟩ := bind_eq_ok.mp read
      obtain ⟨entries, grouped, some, plain, kept⟩ := RegisterList.exists_plain_of_parse listed
      refine .inr ⟨[], operands, entries, rfl, grouped, some, plain, fun others otherGrouped => ?_⟩
      exact bind_eq_ok.mpr ⟨registers, kept others otherGrouped, read⟩
  | multiple access =>
      cases marks
      cases operands with
      | nil => cases read
      | cons base operands =>
          obtain ⟨number, marked, read⟩ := bind_eq_ok.mp read
          obtain ⟨registers, listed, read⟩ := bind_eq_ok.mp read
          obtain ⟨entries, grouped, some, plain, kept⟩ := RegisterList.exists_plain_of_parse listed
          refine .inr ⟨[base], operands, entries, rfl, grouped, some, ?_,
            fun others otherGrouped => ?_⟩
          · exact List.forall_mem_cons.mpr ⟨plain_of_parseWriteBack marked, plain⟩
          · exact bind_eq_ok.mpr ⟨number, marked,
              bind_eq_ok.mpr ⟨registers, kept others otherGrouped, read⟩⟩
  | _ => cases marks

theorem not_mem_of_plain {line : List Char} {mark : Char} (known : mark ∈ groupMarks)
    (plain : ∀ token ∈ tokenize line, Plain token.toList) : mark ∉ line := by
  intro member
  obtain ⟨before, rest, rfl⟩ := List.append_of_mem member
  obtain ⟨earlier, lead, trail, later, -, around⟩ :=
    exists_cutAround (visible_of_mem_groupMarks known).1 before rest
  have unquoted := unquoted_of_tokenize fun token member => (plain token member).unquoted
  rw [tokenize_of_unquoted unquoted, List.forall_mem_map, around] at plain
  have clean := (plain (lead ++ mark :: trail) (by simp)).unmarked mark known
  simp at clean

theorem parse_of_lookup {mnemonic : String} {form : Form}
    (known : mnemonics.lookup mnemonic = some form) (operands : List String) :
    parse mnemonic operands = (do
      form.arity.check mnemonic operands
      form.parse mnemonic operands) := by
  rw [parse, known]

theorem Form.mem_groupMarks {form : Form} {opening closing : Char}
    (marks : form.brackets? = some (opening, closing)) :
    opening ∈ groupMarks ∧ closing ∈ groupMarks ∧ opening ≠ closing := by
  cases form <;> cases marks <;> decide

/-- Blanks within the group of a load, a store or a register list change nothing but the number
of operands: a bracket that they set apart is one operand more. The instruction comes to the
same word if its mnemonic takes so many operands, and is refused for their number if not. -/
theorem loose_groups_encode_alike_if_counted {labels : Labels} {pc : Nat} {form : Form}
    {mnemonic : String} {operands : List String} {label : Option String} {encoding : Encoding}
    {opening closing : Char} {before middle after blanks moreBlanks : List Char}
    (known : mnemonics.lookup mnemonic = some form)
    (marks : form.brackets? = some (opening, closing))
    (spelled : Profile.compact.takeLabel
        (tokenize (before ++ opening :: (middle ++ closing :: after))) =
      ⟨label, mnemonic :: operands⟩)
    (named : ∀ name ∈ label, isLabelName name = true)
    (encodes : Profile.compact.encode labels pc mnemonic operands = .ok encoding)
    (blank : ∀ character ∈ blanks ++ moreBlanks, isBlank character = true) :
    ∃ others,
      Profile.compact.takeLabel (tokenize
          (before ++ opening :: (blanks ++ (middle ++ (moreBlanks ++ closing :: after))))) =
        ⟨label, mnemonic :: others⟩ ∧
      others.length = operands.length + (setsApart blanks middle.head?).toNat +
        (setsApart moreBlanks middle.getLast?).toNat ∧
      Profile.compact.encode labels pc mnemonic others =
        if form.arity.accepts others.length then .ok encoding
        else .error (.operandCount mnemonic form.arity others.length) := by
  obtain ⟨opens, closes, different⟩ := Form.mem_groupMarks marks
  obtain ⟨tokens, defines⟩ := Profile.eq_append_of_takeLabel spelled
  have undefined : Profile.compact.mayDefine mnemonic = false := by
    simp [Profile.mayDefine, Profile.isMnemonic, known]
  obtain ⟨instruction, parsed, resolves⟩ := bind_eq_ok.mp encodes
  rw [parse_of_lookup known] at parsed
  obtain ⟨_, -, read⟩ := bind_eq_ok.mp parsed
  have leading : ∀ token ∈ label.toList ++ [mnemonic], Plain token.toList := by
    rw [List.forall_mem_append, List.forall_mem_singleton]
    refine ⟨fun name member => ?_, plain_of_mnemonic known⟩
    have label := named name (Option.mem_toList.mp member)
    rw [isLabelName_eq, Bool.not_eq_true'] at label
    exact plain_of_label label
  rw [List.append_cons label.toList] at tokens
  obtain plain | ⟨front, group, entries, rfl, grouped, some, plain, kept⟩ :=
    Form.plain_or_group marks read
  · have all : ∀ token ∈ tokenize (before ++ opening :: (middle ++ closing :: after)),
        Plain token.toList := tokens ▸ List.forall_mem_append.mpr ⟨leading, plain⟩
    exact absurd (by simp) (not_mem_of_plain opens all)
  · rw [← List.append_assoc (label.toList ++ [mnemonic])] at tokens
    rw [List.forall_mem_append] at plain
    obtain ⟨loosened, looseTokens, looseGrouped, count⟩ := exists_loosened opens closes different
      grouped (List.forall_mem_append.mpr
        ⟨List.forall_mem_append.mpr ⟨leading, plain.1⟩, plain.2⟩) tokens some blank
    refine ⟨front ++ loosened, ?_, ?_, ?_⟩
    · rw [looseTokens, List.append_assoc, ← List.append_cons]
      exact Profile.takeLabel_append _ defines undefined
    · rw [List.length_append, List.length_append, count]
      omega
    · have again := kept loosened looseGrouped
      simp only [Profile.encode, parse_of_lookup known]
      cases accepted : form.arity.accepts (front ++ loosened).length with
      | true =>
          rw [Arity.check_of_accepted accepted, ok_bind, again]
          exact resolves
      | false =>
          rw [Arity.check_of_rejected accepted]
          rfl

/-- A register list with blanks within both of its brackets is read as without them, and a
load with an offset is refused. -/
theorem loose_push_and_loose_load :
    let labels : Labels := ⟨{}, ⟨0x3000⟩, .second⟩
    Profile.compact.encode labels 0 "push" ["\x7br0", "lr\x7d"] = .ok ⟨[0xB501], false⟩ ∧
    Profile.compact.encode labels 0 "ldr" ["r0", "[r1", "#4]"] = .ok ⟨[0x6908], false⟩ ∧
    (∃ others,
      Profile.compact.takeLabel (tokenize ("loop: push ".toList ++ '\x7b' ::
        ([' '] ++ ("r0, lr".toList ++ ([' '] ++ '\x7d' :: []))))) =
          ⟨some "loop", "push" :: others⟩ ∧
      others.length = 4 ∧
      Profile.compact.encode labels 0 "push" others = .ok ⟨[0xB501], false⟩) ∧
    ∃ others,
      Profile.compact.takeLabel (tokenize ("ldr r0, ".toList ++ '[' ::
        ([' '] ++ ("r1, #4".toList ++ ([' '] ++ ']' :: []))))) = ⟨none, "ldr" :: others⟩ ∧
      others.length = 5 ∧
      Profile.compact.encode labels 0 "ldr" others =
        .error (.operandCount "ldr" (.between 2 3) 5) := by
  intro labels
  have pushes : Profile.compact.encode labels 0 "push" ["\x7br0", "lr\x7d"] =
      .ok ⟨[0xB501], false⟩ := by decide +kernel
  have loads : Profile.compact.encode labels 0 "ldr" ["r0", "[r1", "#4]"] =
      .ok ⟨[0x6908], false⟩ := by decide +kernel
  have spelledPush : Profile.compact.takeLabel (tokenize ("loop: push ".toList ++ '\x7b' ::
      ("r0, lr".toList ++ '\x7d' :: []))) =
        ⟨some "loop", "push" :: ["\x7br0", "lr\x7d"]⟩ := by decide +kernel
  have spelledLoad : Profile.compact.takeLabel (tokenize ("ldr r0, ".toList ++ '[' ::
      ("r1, #4".toList ++ ']' :: []))) = ⟨none, "ldr" :: ["r0", "[r1", "#4]"]⟩ := by decide +kernel
  have named : ∀ name ∈ some "loop", isLabelName name = true := by
    intro name same
    cases same
    decide
  have blank : ∀ character ∈ [' '] ++ [' '], isBlank character = true := by
    simp [isBlank, blankRanges]
  refine ⟨pushes, loads, ?_, ?_⟩
  · obtain ⟨others, tokens, count, encodes⟩ := @loose_groups_encode_alike_if_counted labels 0
      (.stackList .store .lr) _ _ _ _ _ _ _ _ _ _ _ (by decide +kernel) rfl spelledPush named
      pushes blank
    have four : others.length = 4 := count.trans (by decide +kernel)
    rw [four] at encodes
    exact ⟨others, tokens, four, encodes⟩
  · obtain ⟨others, tokens, count, encodes⟩ := @loose_groups_encode_alike_if_counted labels 0
      (.memory .load .word) _ _ _ _ _ _ _ _ _ _ _ (by decide +kernel) rfl spelledLoad
      (by simp) loads blank
    have five : others.length = 5 := count.trans (by decide +kernel)
    rw [five] at encodes
    exact ⟨others, tokens, five, encodes⟩

/-- Not every instruction can have blanks within its brackets: `ldr r0, [r1, #4]` is a load,
and `ldr r0, [ r1, #4 ]` is refused. -/
theorem loose_load_refused :
    ¬∀ (labels : Labels) (pc : Nat) (form : Form) (mnemonic : String) (operands : List String)
      (encoding : Encoding) (opening closing : Char)
      (before middle after blanks moreBlanks : List Char),
      mnemonics.lookup mnemonic = some form → form.brackets? = some (opening, closing) →
      tokenize (before ++ opening :: (middle ++ closing :: after)) = mnemonic :: operands →
      Profile.compact.encode labels pc mnemonic operands = .ok encoding →
      (∀ character ∈ blanks ++ moreBlanks, isBlank character = true) →
      ∃ others,
        tokenize (before ++ opening :: (blanks ++ (middle ++ (moreBlanks ++ closing :: after)))) =
          mnemonic :: others ∧
        Profile.compact.encode labels pc mnemonic others = .ok encoding := by
  intro harmless
  have blank : ∀ character ∈ [' '] ++ [' '], isBlank character = true := by
    simp [isBlank, blankRanges]
  obtain ⟨others, tokens, encodes⟩ := harmless ⟨{}, ⟨0x3000⟩, .second⟩ 0 (.memory .load .word) "ldr"
    ["r0", "[r1", "#4]"] ⟨[0x6908], false⟩ '[' ']' "ldr r0, ".toList "r1, #4".toList [] [' '] [' ']
    (by decide +kernel) rfl (by decide +kernel) (by decide +kernel) blank
  have refused : Profile.compact.encode ⟨{}, ⟨0x3000⟩, .second⟩ 0 "ldr" (tokenize
      ("ldr r0, ".toList ++ '[' :: ([' '] ++ ("r1, #4".toList ++ ([' '] ++ ']' :: []))))).tail =
      .error (.operandCount "ldr" (.between 2 3) 5) := by decide +kernel
  rw [tokens, List.tail_cons, encodes] at refused
  cases refused

end TwoPass.Compact
