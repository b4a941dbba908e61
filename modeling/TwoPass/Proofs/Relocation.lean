import TwoPass.Proofs.Emission
import TwoPass.Proofs.OneShot

/-! # Relocation

The origin of a program reaches a word only through the address of a label that is
stored as data. So a program that is moved keeps its other words, and what is an
address in it changes by the distance that it is moved. -/

namespace TwoPass

/-! ## Stored labels -/

def Statement.stored? : Statement → Option String
  | .storage .fill [value] => if readsAsNumber value then none else some value
  | .storage .block [_, value] => if readsAsNumber value then none else some value
  | _ => none

namespace Draft

def stored? : Draft → Option String
  | .baseline _ | .compact _ => none
  | .data content => content.label?

theorem resolve_of_stored {draft : Draft} {name : String} (stored : draft.stored? = some name)
    (labels : Labels) (pc : Nat) :
    draft.resolve labels pc = List.replicate draft.size <$> labels.address name := by
  cases draft with
  | baseline instruction => cases stored
  | compact instruction => cases stored
  | data content =>
      cases content with
      | codes values => cases stored
      | copies count value =>
          cases value with
          | number bits => cases stored
          | label other =>
              cases stored
              rfl

theorem resolve_of_unstored {draft : Draft} (unstored : draft.stored? = none)
    (table : SymbolTable) (origin target : Address) (pass : Pass) (pc : Nat) :
    draft.resolve ⟨table, target, pass⟩ pc = draft.resolve ⟨table, origin, pass⟩ pc := by
  cases draft with
  | baseline instruction => cases instruction <;> rfl
  | compact instruction => cases instruction <;> rfl
  | data content =>
      cases content with
      | codes values => rfl
      | copies count value =>
          cases value with
          | number bits => rfl
          | label other => cases unstored

end Draft

theorem WordOperand.label?_of_parse {token : String} {operand : WordOperand}
    (parsed : parse token = .ok operand) :
    operand.label? = if readsAsNumber token then none else some token := by
  unfold parse at parsed
  split
  · rename_i numeric
    rw [if_pos numeric] at parsed
    rcases map_eq_ok.mp parsed with ⟨bits, -, rfl⟩
    rfl
  · rename_i symbolic
    rw [if_neg symbolic] at parsed
    cases parsed
    rfl

namespace Statement

variable {profile : Profile} {statement : Statement}

theorem draft_stored? {draft : Draft} (read : statement.draft profile = .ok draft) :
    draft.stored? = statement.stored? := by
  cases statement with
  | instruction mnemonic operands =>
      cases profile with
      | baseline =>
          rcases map_eq_ok.mp read with ⟨instruction, -, rfl⟩
          rfl
      | compact =>
          rcases map_eq_ok.mp read with ⟨instruction, -, rfl⟩
          rfl
  | storage kind operands =>
      rcases map_eq_ok.mp read with ⟨content, parsed, rfl⟩
      unfold Storage.parse at parsed
      split at parsed
      · rcases map_eq_ok.mp parsed with ⟨operand, value, rfl⟩
        exact WordOperand.label?_of_parse value
      · rcases bind_eq_ok.mp parsed with ⟨count, -, built⟩
        cases built
        rfl
      · rcases bind_eq_ok.mp parsed with ⟨count, -, built⟩
        rcases bind_eq_ok.mp built with ⟨operand, value, built⟩
        cases built
        exact WordOperand.label?_of_parse value
      · rcases bind_eq_ok.mp parsed with ⟨codes, -, built⟩
        cases built
        rfl
      · cases parsed

theorem encode_of_unstored (unstored : statement.stored? = none) (profile : Profile)
    (table : SymbolTable) (origin target : Address) (pass : Pass) (pc : Nat) :
    statement.encode profile ⟨table, target, pass⟩ pc =
      statement.encode profile ⟨table, origin, pass⟩ pc := by
  rw [encode_eq_draft, encode_eq_draft]
  cases read : statement.draft profile with
  | error problem => rfl
  | ok draft =>
      rw [ok_bind, ok_bind,
        Draft.resolve_of_unstored ((draft_stored? read).trans unstored) table origin target]
      rfl

theorem encode_of_stored {table : SymbolTable} {origin : Address} {pc : Nat} {name : String}
    {encoding : Encoding} (stored : statement.stored? = some name)
    (encoded : statement.encode profile ⟨table, origin, .second⟩ pc = .ok encoding) :
    ∃ offset, table.offset? name = some offset ∧
      ∀ target, statement.encode profile ⟨table, target, .second⟩ pc =
        .ok ⟨List.replicate statement.size (target.advance offset), false⟩ := by
  rw [encode_eq_draft] at encoded
  rcases bind_eq_ok.mp encoded with ⟨draft, read, encoded⟩
  rcases bind_eq_ok.mp encoded with ⟨words, resolved, -⟩
  have storing : draft.stored? = some name := (draft_stored? read).trans stored
  rw [Draft.resolve_of_stored storing] at resolved
  -- The origin is added to the offset last, so it cannot keep the label from being found.
  cases bound : table.offset? name with
  | none => simp [Labels.address, Labels.offset, bound] at resolved
  | some offset =>
      refine ⟨offset, rfl, fun target => ?_⟩
      have prompt : draft.label?.any (Labels.defers ⟨table, target, .second⟩) = false := by
        cases draft.label? <;> rfl
      rw [encode_eq_draft, read, ok_bind, Draft.resolve_of_stored storing, draft_size read, prompt]
      simp [Labels.address, Labels.offset, bound]

end Statement

namespace Placement

variable {placement : Placement} {profile : Profile} {table : SymbolTable}
  {origin : Address} {encoding : Encoding}

theorem encodes_iff_fits (target : Address)
    (encoded : placement.encode profile ⟨table, origin, .second⟩ = .ok encoding)
    (fits : ∀ value ∈ encoding.words, value ≤ 0xFFFF) :
    (∃ encoding, placement.encode profile ⟨table, target, .second⟩ = .ok encoding ∧
      ∀ value ∈ encoding.words, value ≤ 0xFFFF) ↔
      (0 < placement.statement.size → ∀ name, placement.statement.stored? = some name →
        ∀ offset, table.offset? name = some offset → target.toNat + offset ≤ 0xFFFF) := by
  cases stored : placement.statement.stored? with
  | none =>
      have same : placement.encode profile ⟨table, target, .second⟩ = .ok encoding :=
        (Statement.encode_of_unstored stored profile table origin target .second _).trans encoded
      constructor
      · intro _ _ name stored
        cases stored
      · intro _
        exact ⟨encoding, same, fits⟩
  | some name =>
      rcases Statement.encode_of_stored stored encoded with ⟨offset, bound, anywhere⟩
      have there : placement.encode profile ⟨table, target, .second⟩ = _ := anywhere target
      rw [there]
      constructor
      · rintro ⟨moved, built, narrow⟩ nonempty other sameName further known
        cases built
        cases sameName
        cases bound.symm.trans known
        rw [← Address.advance_le_iff (by decide)]
        exact narrow _ (List.mem_replicate.mpr ⟨by omega, rfl⟩)
      · intro narrow
        refine ⟨_, rfl, fun value member => ?_⟩
        rcases List.mem_replicate.mp member with ⟨nonempty, rfl⟩
        rw [Address.advance_le_iff (by decide)]
        exact narrow (by omega) name rfl offset bound

theorem words_of_unstored (unstored : placement.statement.stored? = none) (target : Address) :
    placement.words profile ⟨table, target, .second⟩ =
      placement.words profile ⟨table, origin, .second⟩ := by
  have same : placement.encode profile ⟨table, target, .second⟩ =
      placement.encode profile ⟨table, origin, .second⟩ :=
    Statement.encode_of_unstored unstored profile table origin target .second _
  rw [words, words, same]

theorem toNat_of_stored {name : String} {index : Nat} {word : Word}
    (stored : placement.statement.stored? = some name)
    (encoded : placement.encode profile ⟨table, origin, .second⟩ = .ok encoding)
    (fits : ∀ value ∈ encoding.words, value ≤ 0xFFFF)
    (own : (placement.words profile ⟨table, origin, .second⟩)[index]? = some word) :
    ∃ offset, table.offset? name = some offset ∧ word.toNat = origin.toNat + offset := by
  rcases Statement.encode_of_stored stored encoded with ⟨offset, bound, anywhere⟩
  cases encoded.symm.trans (anywhere origin)
  have member : word.toNat ∈
      (placement.words profile ⟨table, origin, .second⟩).map BitVec.toNat :=
    List.mem_map_of_mem (List.mem_of_getElem? own)
  rw [toNat_words encoded fits] at member
  have value := List.eq_of_mem_replicate member
  have small : origin.toNat + offset ≤ 0xFFFF := by
    rw [← Address.advance_le_iff (by decide), ← value]
    exact fits _ member
  exact ⟨offset, bound, value.trans (Address.advance_of_le (by omega))⟩

end Placement

/-! ## Moved programs -/

/-- Whether two programs differ in nothing but the line that gives the origin, which in
the second of them is at `target`. -/
def Relocates (source moved : String) (target : Address) : Prop :=
  ∃ blank first other rest,
    SourceLine.ofText source = blank ++ first :: rest ∧
    SourceLine.ofText moved = blank ++ other :: rest ∧
    (∀ line ∈ blank, ¬ line.isSignificant) ∧ first.isSignificant ∧
    Scan.readOrigin other.tokens = .ok target

namespace Outline

theorem ofBody_relocated (profile : Profile) (origin target : Address)
    (required : List OpeningLine) (current : Option Section) (lines : List SourceLine) :
    ofBody profile target required current lines =
      { ofBody profile origin required current lines with origin := some target } := by
  induction lines generalizing required current with
  | nil => rfl
  | cons line lines induction =>
      rw [ofBody, ofBody]
      cases unmet? required line with
      | some opening => rfl
      | none =>
          generalize Reading.ofTokens profile current line.tokens = reading
          rcases reading with ⟨effects, flow⟩
          cases flow with
          | finish => rfl
          | abandon => rfl
          | proceed => simp only [induction]

variable {options : Options} {source moved : String} {start target : Address}

theorem ofSource_relocated (relocates : Relocates source moved target)
    (accepted : (ofSource options source).origin = some start) :
    ofSource options moved = { ofSource options source with origin := some target } := by
  rcases relocates with ⟨blank, first, other, rest, lines, movedLines, before, significant, read⟩
  rcases Scan.tokens_of_readOrigin read with ⟨operand, tokens⟩
  have otherSignificant : other.isSignificant :=
    SourceLine.isSignificant_of_tokens (by simp [tokens])
  have skipped : blank.filter SourceLine.isSignificant = [] := List.filter_eq_nil_iff.mpr before
  simp only [ofSource, ofLines, lines, movedLines, List.filter_append, skipped, List.nil_append,
    List.filter_cons_of_pos significant, List.filter_cons_of_pos otherSignificant, read]
    at accepted ⊢
  cases opened : Scan.readOrigin first.tokens with
  | error problem =>
      rw [opened] at accepted
      cases accepted
  | ok origin => exact ofBody_relocated options.profile origin target _ _ _

/-- A program without errors can be moved to where it has room and the addresses that it
stores fit in a word. -/
theorem Sound.relocated_iff {outline : Outline} {profile : Profile}
    (sound : outline.Sound profile start) (target : Address) :
    outline.Sound profile target ↔
      (outline.size profile = 0 ∨ target.toNat + outline.size profile ≤ 65536) ∧
      ∀ placement ∈ outline.placements profile, 0 < placement.statement.size →
        ∀ name, placement.statement.stored? = some name →
          ∀ offset, (outline.symbols profile).offset? name = some offset →
            target.toNat + offset ≤ 0xFFFF := by
  constructor
  · intro moved
    refine ⟨moved.room, fun placement member => ?_⟩
    rcases sound.encoded placement member with ⟨encoding, encoded, fits⟩
    exact (Placement.encodes_iff_fits target encoded fits).mp (moved.encoded placement member)
  · rintro ⟨room, narrow⟩
    refine ⟨sound.unremarked, sound.ended, fun placement member => ?_, room⟩
    rcases sound.encoded placement member with ⟨encoding, encoded, fits⟩
    exact (Placement.encodes_iff_fits target encoded fits).mpr (narrow placement member)

end Outline

namespace Run

variable {options : Options} {source moved : String} {target : Address}
  {assembly relocated : Assembly} (relocates : Relocates source moved target)
  (done : (ofSource options source).result = .ok assembly)
include relocates done

theorem outline_relocated :
    Outline.ofSource options moved =
      { Outline.ofSource options source with origin := some target } := by
  apply Outline.ofSource_relocated relocates
  rw [← origin_eq]
  exact start_of_ok done

theorem placements_relocated :
    (Outline.ofSource options moved).placements options.profile =
      (Outline.ofSource options source).placements options.profile := by
  rw [outline_relocated relocates done]
  rfl

theorem origin_relocated : (ofSource options moved).scan.origin = some target := by
  rw [origin_eq, outline_relocated relocates done]

theorem symbols_relocated :
    (ofSource options moved).scan.symbols = (ofSource options source).scan.symbols := by
  rw [symbols_eq, symbols_eq, outline_relocated relocates done]
  rfl

theorem result_relocated_iff :
    (∃ relocated, (ofSource options moved).result = .ok relocated) ↔
      (Outline.ofSource options source).Sound options.profile target := by
  rw [result_ok_iff_sound (origin_relocated relocates done), outline_relocated relocates done]
  exact ⟨fun sound => ⟨sound.unremarked, sound.ended, sound.encoded, sound.room⟩,
    fun sound => ⟨sound.unremarked, sound.ended, sound.encoded, sound.room⟩⟩

theorem sources_relocated (movedDone : (ofSource options moved).result = .ok relocated) :
    relocated.emitted.map (·.source) = assembly.emitted.map (·.source) := by
  let view (kind : CellKind) (line : SourceLine) : Option String :=
    if kind = .instruction then some line.text else none
  rw [emitted_of_ok done, emitted_of_ok movedDone, Image.map_source_emit, Image.map_source_emit]
  have first := map_image options source view
  have second := map_image options moved view
  rw [placements_relocated relocates done] at second
  exact second.trans first.symm

theorem word_relocated (movedDone : (ofSource options moved).result = .ok relocated)
    {placement : Placement} {index : Nat}
    (member : placement ∈ (Outline.ofSource options source).placements options.profile)
    (covers : placement.Covers index) :
    ∃ word other, assembly.binary.words[index]? = some word ∧
      relocated.binary.words[index]? = some other ∧
      (placement.statement.stored? = none → other = word) ∧
      (placement.statement.stored?.isSome →
        (other.toNat : Int) = word.toNat + (target.toNat - assembly.start.toNat)) := by
  have movedMember := member
  rw [← placements_relocated relocates done] at movedMember
  rcases emit_of_covers member covers with ⟨word, own, emitted⟩
  rcases emit_of_covers movedMember covers with ⟨other, movedOwn, movedEmitted⟩
  rw [Image.map_word_emit, ← words_of_ok done] at emitted
  rw [Image.map_word_emit, ← words_of_ok movedDone] at movedEmitted
  have accepted := start_of_ok done
  rw [labels_eq_symbols accepted, ← symbols_eq] at own
  rw [labels_eq_symbols (origin_relocated relocates done), ← symbols_eq,
    symbols_relocated relocates done] at movedOwn
  refine ⟨word, other, emitted, movedEmitted, ?_, ?_⟩
  · intro unstored
    rw [Placement.words_of_unstored unstored target, own] at movedOwn
    exact (Option.some.inj movedOwn).symm
  · intro stored
    rcases Option.isSome_iff_exists.mp stored with ⟨name, stored⟩
    have sound := (result_ok_iff_sound accepted).mp ⟨assembly, done⟩
    have movedSound := (result_relocated_iff relocates done).mp ⟨relocated, movedDone⟩
    rcases sound.encoded placement member with ⟨encoding, encoded, fits⟩
    rcases movedSound.encoded placement member with ⟨movedEncoding, movedEncoded, movedFits⟩
    rw [← symbols_eq] at encoded movedEncoded
    rcases Placement.toNat_of_stored stored encoded fits own with ⟨offset, bound, value⟩
    rcases Placement.toNat_of_stored stored movedEncoded movedFits movedOwn with
      ⟨sameOffset, sameBound, movedValue⟩
    cases bound.symm.trans sameBound
    omega

end Run

/-- A program that is assembled at one origin is assembled at another if it has room there
and the addresses that it stores fit in a word. Then its other words are the same, and
stored addresses, symbols and the addresses of source lines change by as much as the
origin does. -/
theorem relocation_is_shift (options : Options) (source moved : String) (target : Address)
    (assembly : Assembly) (done : assemble options source = .ok assembly)
    (relocates : Relocates source moved target) :
    let placements := (Outline.ofSource options source).placements options.profile
    let symbols := (Run.ofSource options source).scan.symbols
    let count := assembly.binary.words.length
    let shift : Int := target.toNat - assembly.start.toNat
    ((∃ relocated, assemble options moved = .ok relocated) ↔
      (count = 0 ∨ target.toNat + count ≤ 65536) ∧
      ∀ placement ∈ placements, 0 < placement.statement.size →
        ∀ label, placement.statement.stored? = some label →
          ∀ offset, symbols.offset? label = some offset → target.toNat + offset ≤ 65535) ∧
    ∀ relocated, assemble options moved = .ok relocated →
      relocated.start = target ∧
      relocated.binary.words.length = count ∧
      (∀ index < count, ∃ placement ∈ placements, placement.Covers index) ∧
      (∀ placement ∈ placements, ∀ index, placement.Covers index →
        ∃ word other, assembly.binary.words[index]? = some word ∧
          relocated.binary.words[index]? = some other ∧
          (placement.statement.stored? = none → other = word) ∧
          (placement.statement.stored?.isSome → (other.toNat : Int) = word.toNat + shift)) ∧
      relocated.symbols.entries.map (fun entry => (entry.1, (entry.2 : Int))) =
        assembly.symbols.entries.map (fun entry => (entry.1, entry.2 + shift)) ∧
      relocated.sourceLines.map (fun entry => ((entry.1.toNat : Int), entry.2)) =
        assembly.sourceLines.map (fun entry => (entry.1.toNat + shift, entry.2)) := by
  intro placements symbols count shift
  have size : count = (Outline.ofSource options source).size options.profile :=
    Run.length_of_ok done
  have sound := (Run.result_ok_iff_sound (Run.start_of_ok done)).mp ⟨assembly, done⟩
  constructor
  · rw [size, assemble, Run.result_relocated_iff relocates done, sound.relocated_iff,
      ← Run.symbols_eq]
  · intro relocated movedDone
    have start : relocated.start = target := by
      have known := Run.start_of_ok movedDone
      rw [Run.origin_relocated relocates done] at known
      exact (Option.some.inj known).symm
    refine ⟨start, ?_, ?_, ?_, ?_, ?_⟩
    · rw [size, Run.length_of_ok movedDone, Run.outline_relocated relocates done]
      rfl
    · intro index inside
      rw [size] at inside
      exact exists_covers (Nat.zero_le index) inside
    · intro placement member index covers
      exact Run.word_relocated relocates done movedDone member covers
    · rw [Run.definitions_of_ok done, Run.definitions_of_ok movedDone, start,
        Run.symbols_relocated relocates done]
      simp only [List.map_map]
      apply List.map_congr_left
      intro definition _
      simp only [Function.comp_apply, Prod.mk.injEq, true_and]
      omega
    · have lines := Assembly.sourceLines_shifted (Run.sources_relocated relocates done movedDone)
        (Run.room_of_ok done) (Run.room_of_ok movedDone)
      rw [start] at lines
      exact lines

/-- The label is bound after the last word. At the first target its address is the last
one of memory; at the second there is still room for all words, but not for that address
in a word. -/
theorem relocation_to_the_top :
    let source := ".orig x3000\nlea r0, last\n.fill last\nlast .end"
    let high := ".orig xFFFD\nlea r0, last\n.fill last\nlast .end"
    let beyond := ".orig xFFFE\nlea r0, last\n.fill last\nlast .end"
    Relocates source high ⟨0xFFFD⟩ ∧ Relocates source beyond ⟨0xFFFE⟩ ∧
    (∃ assembly relocated,
      assemble {} source = .ok assembly ∧ assemble {} high = .ok relocated ∧
      relocated.start = ⟨0xFFFD⟩ ∧
      relocated.symbols.entries.map (fun entry => (entry.1, (entry.2 : Int))) =
        assembly.symbols.entries.map (fun entry =>
          (entry.1, entry.2 + ((0xFFFD : Int) - assembly.start.toNat)))) ∧
    ¬ ∃ relocated, assemble {} beyond = .ok relocated := by
  intro source high beyond
  let rest : List SourceLine := [⟨1, "lea r0, last"⟩, ⟨2, ".fill last"⟩, ⟨3, "last .end"⟩]
  have toHigh : Relocates source high ⟨0xFFFD⟩ :=
    ⟨[], ⟨0, ".orig x3000"⟩, ⟨0, ".orig xFFFD"⟩, rest, by decide +kernel, by decide +kernel,
      nofun, by decide +kernel, by decide +kernel⟩
  have toBeyond : Relocates source beyond ⟨0xFFFE⟩ :=
    ⟨[], ⟨0, ".orig x3000"⟩, ⟨0, ".orig xFFFE"⟩, rest, by decide +kernel, by decide +kernel,
      nofun, by decide +kernel, by decide +kernel⟩
  have succeeds : (assemble {} source).isOk = true := by decide +kernel
  have highSucceeds : (assemble {} high).isOk = true := by decide +kernel
  rcases exists_of_isOk succeeds with ⟨assembly, done⟩
  rcases exists_of_isOk highSucceeds with ⟨relocated, highDone⟩
  refine ⟨toHigh, toBeyond, ⟨assembly, relocated, done, highDone, ?_⟩, ?_⟩
  · have general := (relocation_is_shift {} source high ⟨0xFFFD⟩ assembly done toHigh).2
    rcases general relocated highDone with ⟨start, -, -, -, symbols, -⟩
    exact ⟨start, symbols⟩
  · intro moves
    have general := (relocation_is_shift {} source beyond ⟨0xFFFE⟩ assembly done toBeyond).1
    let placement : Placement := ⟨⟨1, {}⟩, ⟨2, ".fill last"⟩, .storage .fill ["last"]⟩
    have placed : placement ∈ (Outline.ofSource {} source).placements .baseline := by
      decide +kernel
    have bound : (Run.ofSource {} source).scan.symbols.offset? "last" = some 2 := by
      decide +kernel
    have stored : placement.statement.stored? = some "last" := by decide +kernel
    have narrow := (general.mp moves).2 placement placed (by decide +kernel) "last" stored 2 bound
    exact absurd narrow (by decide)

end TwoPass
