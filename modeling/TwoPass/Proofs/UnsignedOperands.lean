import TwoPass.Proofs.NumeralGrammar
import TwoPass.Proofs.StringLiterals

/-! # Unsigned operands

The origin of a program and the length of a block are both unsigned words. They are read by
different routes: an origin is put into a field as wide as a word, which takes negative
numbers as well, and a length is only compared with the greatest word. So a negative number
is refused as a length, but as an origin it stands for an address at the end of memory. -/

namespace TwoPass

/-! ## Numbers within bounds -/

namespace Numeral

structure SpellsWithin (lowest highest : Int) (token : String) (value : Int) : Prop where
  spelled : ∃ spelling : Spelling, spelling.text = token.toList ∧ spelling.value = value
  least : lowest ≤ value
  most : value ≤ highest

theorem SpellsWithin.unique {lowest highest otherLowest otherHighest value other : Int}
    {token : String} (spells : SpellsWithin lowest highest token value)
    (otherSpells : SpellsWithin otherLowest otherHighest token other) : value = other := by
  have read := value?_eq_some_iff.mpr spells.spelled
  have otherRead := value?_eq_some_iff.mpr otherSpells.spelled
  exact Option.some.inj (read.symm.trans otherRead)

theorem SpellsWithin.not_unsigned {lowest highest value bound : Int} {token : String}
    (spells : SpellsWithin lowest highest token value) (negative : value < 0) :
    ¬∃ other, SpellsWithin 0 bound token other := by
  rintro ⟨other, unsigned⟩
  have same := spells.unique unsigned
  have least := unsigned.least
  omega

theorem spellsWithin_minusOne : SpellsWithin (-32768) 65535 "#-1" (-1) :=
  ⟨value?_eq_some_iff.mp (by decide +kernel), by decide, by decide⟩

theorem parse_eq_ok_iff {token : String} {value : Int} :
    parse token = .ok value ↔
      ∃ spelling : Spelling, spelling.text = token.toList ∧ spelling.value = value ∧
        spelling.magnitude < 2 ^ 63 := by
  constructor
  · intro read
    by_cases grammar : InGrammar token
    · obtain ⟨spelling, whole⟩ := grammar
      rw [parse_of_spelling whole] at read
      split at read
      · rename_i small
        exact ⟨spelling, whole, Except.ok.inj read, small⟩
      · cases read
    · rw [parse_eq, value?_eq_none_iff.mpr grammar] at read
      cases read
  · rintro ⟨spelling, whole, rfl, small⟩
    rw [parse_of_spelling whole, if_pos small]

theorem toNat_ofInt_word (value : Int) : ((BitVec.ofInt 16 value).toNat : Int) = value % 65536 := by
  rw [BitVec.toNat_ofInt]
  omega

/-- A word holds a number of either sign, modulo its size. -/
theorem immediate_word_eq_ok_iff {token : String} {bits : BitVec 16} :
    immediate .word token = .ok bits ↔
      ∃ value, SpellsWithin (-32768) 65535 token value ∧ (bits.toNat : Int) = value % 65536 := by
  constructor
  · intro read
    by_cases grammar : InGrammar token
    · obtain ⟨spelling, whole⟩ := grammar
      by_cases admitted : Field.word.Admits spelling.value
      · cases (immediate_of_admits whole admitted).symm.trans read
        exact ⟨spelling.value, ⟨⟨spelling, whole, rfl⟩, admitted.1, admitted.2⟩, toNat_ofInt_word _⟩
      · cases (immediate_of_not_admits whole admitted).symm.trans read
    · cases (immediate_of_not_inGrammar grammar).symm.trans read
  · rintro ⟨_, ⟨⟨spelling, whole, rfl⟩, least, most⟩, same⟩
    have bits : BitVec.ofInt 16 spelling.value = bits := by
      apply BitVec.eq_of_toNat_eq
      have known := toNat_ofInt_word spelling.value
      omega
    rw [← bits]
    exact immediate_of_admits whole ⟨least, most⟩

end Numeral

open Numeral

theorem Storage.blockCount_eq_ok_iff {token : String} {count : Nat} :
    blockCount token = .ok count ↔ SpellsWithin 0 65535 token count := by
  constructor
  · intro read
    obtain ⟨value, parsed, checked⟩ := bind_eq_ok.mp read
    obtain ⟨spelling, whole, rfl, -⟩ := parse_eq_ok_iff.mp parsed
    split at checked
    · rename_i inside
      cases checked
      rw [Int.toNat_of_nonneg inside.1]
      exact ⟨⟨spelling, whole, rfl⟩, inside.1, inside.2⟩
    · cases checked
  · rintro ⟨⟨spelling, whole, value⟩, least, most⟩
    have size : spelling.value.natAbs = spelling.magnitude := natAbs_signed _ _
    have parsed : Numeral.parse token = .ok (count : Int) :=
      parse_eq_ok_iff.mpr ⟨spelling, whole, value, by omega⟩
    rw [blockCount, parsed, ok_bind, if_pos ⟨least, most⟩]
    rfl

namespace Storage

variable {labels : Labels} {token : String}

theorem encode_of_blockCount {count : Nat} (counted : blockCount token = .ok count) :
    encode labels .block [token] = .ok ⟨List.replicate count 0, false⟩ := by
  rw [encode, parse, counted]
  rfl

theorem encode_of_blockCount_error {problem : Problem}
    (refused : blockCount token = .error problem) :
    encode labels .block [token] = .error problem := by
  rw [encode, parse, refused]
  rfl

theorem encode_block_eq_ok_iff {encoding : Encoding} :
    encode labels .block [token] = .ok encoding ↔
      ∃ value, SpellsWithin 0 65535 token value ∧
        encoding = ⟨List.replicate value.toNat 0, false⟩ := by
  constructor
  · intro encoded
    cases counted : blockCount token with
    | ok count =>
        refine ⟨count, blockCount_eq_ok_iff.mp counted, ?_⟩
        rw [encode_of_blockCount counted] at encoded
        exact (Except.ok.inj encoded).symm
    | error problem =>
        rw [encode_of_blockCount_error counted] at encoded
        cases encoded
  · rintro ⟨value, spells, rfl⟩
    apply encode_of_blockCount
    apply blockCount_eq_ok_iff.mpr
    rw [Int.toNat_of_nonneg spells.least]
    exact spells

end Storage

/-! ## Accepted lines -/

def LineAccepted (options : Options) (source : String) (line : SourceLine) : Prop :=
  ∀ diagnostic ∈ outputDiagnostics (assemble options source),
    diagnostic.isElsewhere line.number = true

instance (options : Options) (source : String) (line : SourceLine) :
    Decidable (LineAccepted options source line) :=
  inferInstanceAs (Decidable (∀ diagnostic ∈ outputDiagnostics (assemble options source), _))

section Lines

variable {options : Options} {source : String}

theorem lineAccepted_of_encodes {line : SourceLine}
    (encodes : (Outline.ofSource options source).Encodes options.profile line.number) :
    LineAccepted options source line := by
  rw [LineAccepted, assemble, Run.outputDiagnostics_result]
  exact Run.isElsewhere_of_encodes encodes

theorem not_lineAccepted_of_error {line : SourceLine} {problem : Problem}
    (reported : .errorAt line problem ∈ (Run.ofSource options source).diagnostics) :
    ¬LineAccepted options source line := by
  intro accepted
  rw [LineAccepted, assemble, Run.outputDiagnostics_result] at accepted
  have elsewhere : (line.number != line.number) = true := accepted _ reported
  rw [bne_self_eq_false] at elsewhere
  cases elsewhere

/-! ### The first line -/

theorem Scan.readOrigin_eq_ok_iff {token : String} {start : Address} :
    readOrigin [".orig", token] = .ok start ↔
      ∃ value, SpellsWithin (-32768) 65535 token value ∧
        (start.toNat : Int) = value % 65536 := by
  constructor
  · intro read
    obtain ⟨bits, found, rfl⟩ := map_eq_ok.mp read
    exact immediate_word_eq_ok_iff.mp found
  · intro spelled
    exact map_eq_ok.mpr ⟨start.bits, immediate_word_eq_ok_iff.mpr spelled, rfl⟩

theorem map_start_outputBinary :
    (outputBinary (assemble options source)).map Binary.start =
      (Outline.ofSource options source).origin := by
  rw [assemble, Run.outputBinary_result, Run.origin_eq, Option.map_map]
  exact congrFun Option.map_id _

section Origin

variable {first : SourceLine} {rest : List SourceLine}
  (significant : (SourceLine.ofText source).filter SourceLine.isSignificant = first :: rest)
include significant

theorem Outline.ofSource_of_refused {problem : Problem}
    (refused : Scan.readOrigin first.tokens = .error problem) :
    ofSource options source = ⟨none, [⟨first, .report problem⟩], .abandoned⟩ := by
  simp only [ofSource, ofLines, significant, refused]

theorem lineAccepted_of_readOrigin {start : Address}
    (read : Scan.readOrigin first.tokens = .ok start) : LineAccepted options source first := by
  have above := (SourceLine.ofText_above source).filter SourceLine.isSignificant
  rw [significant] at above
  apply lineAccepted_of_encodes
  intro action member same
  rw [Outline.ofSource_of_origin significant read] at member
  have below := (Outline.ofBody_follows ..).line_mem member
  exact absurd same (Nat.ne_of_gt ((List.pairwise_cons.mp above).1 _ below))

theorem not_lineAccepted_of_readOrigin {problem : Problem}
    (refused : Scan.readOrigin first.tokens = .error problem) :
    ¬LineAccepted options source first := by
  have located : ⟨{}, first, .report problem⟩ ∈
      (Outline.ofSource options source).located options.profile := by
    rw [Outline.ofSource_of_refused significant refused]
    exact List.mem_singleton_self _
  exact not_lineAccepted_of_error (Run.remark_mem_diagnostics located rfl)

theorem lineAccepted_origin_iff {token : String} (tokens : first.tokens = [".orig", token]) :
    LineAccepted options source first ↔ ∃ value, SpellsWithin (-32768) 65535 token value := by
  constructor
  · intro accepted
    cases read : Scan.readOrigin first.tokens with
    | ok start =>
        rw [tokens] at read
        obtain ⟨value, spells, -⟩ := Scan.readOrigin_eq_ok_iff.mp read
        exact ⟨value, spells⟩
    | error problem =>
        exact absurd accepted (not_lineAccepted_of_readOrigin significant read)
  · rintro ⟨value, spells⟩
    have read : Scan.readOrigin first.tokens = .ok ⟨BitVec.ofInt 16 value⟩ := by
      rw [tokens]
      exact Scan.readOrigin_eq_ok_iff.mpr ⟨value, spells, toNat_ofInt_word value⟩
    exact lineAccepted_of_readOrigin significant read

theorem start_eq_some_iff {token : String} (tokens : first.tokens = [".orig", token])
    (start : Address) :
    (outputBinary (assemble options source)).map Binary.start = some start ↔
      ∃ value, SpellsWithin (-32768) 65535 token value ∧
        (start.toNat : Int) = value % 65536 := by
  rw [map_start_outputBinary, ← Scan.readOrigin_eq_ok_iff, ← tokens]
  cases read : Scan.readOrigin first.tokens with
  | ok origin =>
      rw [Outline.ofSource_of_origin significant read, Outline.ofBody_origin, Option.some.injEq,
        Except.ok.injEq]
  | error problem =>
      rw [Outline.ofSource_of_refused significant read]
      constructor
      · intro impossible
        cases impossible
      · intro impossible
        cases impossible

end Origin

/-! ### Blocks -/

section Block

variable {read rest : List SourceLine} {line : SourceLine} {scan : Scan} {token : String}
  (lines : SourceLine.ofText source = read ++ line :: rest)
  (reached : Scan.Reaches options read (.body []) scan)
  (tokens : line.tokens = [".blkw", token])
  (allowed : options.profile.sectioned → scan.openSection = some .data)
include tokens allowed

theorem reading_block :
    Reading.ofTokens options.profile scan.openSection line.tokens =
      .single (.place (.storage .block [token])) := by
  rw [tokens]
  exact Reading.ofTokens_storage .block rfl allowed

include lines reached

theorem Run.places_block {value : Int} (spells : SpellsWithin 0 65535 token value) :
    Run.Places options source read scan line (.storage .block [token])
      (List.replicate value.toNat 0) where
  lines := ⟨rest, lines⟩
  reached := reached
  significant := SourceLine.isSignificant_of_tokens (by simp [tokens])
  reading := reading_block tokens allowed
  encoded := fun _ _ => Storage.encode_block_eq_ok_iff.mpr ⟨value, spells, rfl⟩
  fits := by
    intro word member
    rw [List.eq_of_mem_replicate member]
    exact Nat.zero_le _

theorem not_lineAccepted_of_blockCount {problem : Problem}
    (refused : Storage.blockCount token = .error problem) : ¬LineAccepted options source line := by
  have significant : line.isSignificant := SourceLine.isSignificant_of_tokens (by simp [tokens])
  obtain ⟨start, before, after, -, actions, -⟩ :=
    Run.actions_of_single lines reached significant (reading_block tokens allowed)
  have member : ⟨line, .place (.storage .block [token])⟩ ∈
      (Outline.ofSource options source).actions := by
    rw [actions]
    exact List.mem_append_right before List.mem_cons_self
  obtain ⟨placement, placed, here, statement⟩ :
      ∃ placement ∈ (Outline.ofSource options source).placements options.profile,
        placement.line = line ∧ placement.statement = .storage .block [token] :=
    placement_of_action member
  have wrong : placement.error? options.profile (Run.ofSource options source).scan.labels =
      some (.errorAt placement.line problem) := by
    rw [Placement.error?, Placement.encode, statement, Statement.encode,
      Storage.encode_of_blockCount_error refused]
  rw [← here]
  exact not_lineAccepted_of_error (Run.error_mem_diagnostics placed wrong)

theorem lineAccepted_block_iff :
    LineAccepted options source line ↔ ∃ value, SpellsWithin 0 65535 token value := by
  constructor
  · intro accepted
    cases counted : Storage.blockCount token with
    | ok count => exact ⟨count, Storage.blockCount_eq_ok_iff.mp counted⟩
    | error problem =>
        exact absurd accepted (not_lineAccepted_of_blockCount lines reached tokens allowed counted)
  · rintro ⟨value, spells⟩
    exact lineAccepted_of_encodes (Run.places_block lines reached tokens allowed spells).encodes

theorem exists_outputBinary_block {value : Int} (spells : SpellsWithin 0 65535 token value) :
    ∃ start above below,
      outputBinary (assemble options source) =
        some ⟨start, above ++ List.replicate value.toNat 0 ++ below⟩ ∧
      above.length = scan.image.size := by
  obtain ⟨start, above, own, below, output, size, words⟩ :=
    (Run.places_block lines reached tokens allowed spells).outputBinary
  have zeros : own = List.replicate value.toNat 0 := by
    apply List.map_injective_iff.mpr fun _ _ => BitVec.eq_of_toNat_eq
    rw [words, List.map_replicate]
    rfl
  rw [zeros] at output
  exact ⟨start, above, below, output, size⟩

end Block

end Lines

/-- The operand of the first line may be any number that a word can hold, and a negative one
stands for the address that is as far from the end of memory. The length of a block may not
be negative. A token that is no number, or none that a word can hold, is refused in both
places. -/
theorem origins_take_signs_blocks_do_not (options : Options) (source token : String) :
    (∀ first rest,
      (SourceLine.ofText source).filter SourceLine.isSignificant = first :: rest →
      first.tokens = [".orig", token] →
      (LineAccepted options source first ↔ ∃ value, SpellsWithin (-32768) 65535 token value) ∧
      ∀ start, (outputBinary (assemble options source)).map Binary.start = some start ↔
        ∃ value, SpellsWithin (-32768) 65535 token value ∧
          (start.toNat : Int) = value % 65536) ∧
    (∀ read line rest scan,
      SourceLine.ofText source = read ++ line :: rest →
      Scan.Reaches options read (.body []) scan → line.tokens = [".blkw", token] →
      (options.profile.sectioned → scan.openSection = some .data) →
      (LineAccepted options source line ↔ ∃ value, SpellsWithin 0 65535 token value) ∧
      ∀ value, SpellsWithin 0 65535 token value →
        ∃ start above below,
          outputBinary (assemble options source) =
            some ⟨start, above ++ List.replicate value.toNat 0 ++ below⟩ ∧
          above.length = scan.image.size) ∧
    ∀ labels encoding, Storage.encode labels .block [token] = .ok encoding ↔
      ∃ value, SpellsWithin 0 65535 token value ∧
        encoding = ⟨List.replicate value.toNat 0, false⟩ := by
  refine ⟨?_, ?_, fun labels encoding => Storage.encode_block_eq_ok_iff⟩
  · intro first rest significant tokens
    exact ⟨lineAccepted_origin_iff significant tokens, start_eq_some_iff significant tokens⟩
  · intro read line rest scan lines reached tokens allowed
    exact ⟨lineAccepted_block_iff lines reached tokens allowed,
      fun value => exists_outputBinary_block lines reached tokens allowed⟩

/-- A negative number is an origin and no length. -/
theorem negative_origin_and_block :
    let source := ".orig #-1\n.blkw #-1\n.end"
    LineAccepted {} source ⟨0, ".orig #-1"⟩ ∧
      (outputBinary (assemble {} source)).map Binary.start = some ⟨0xFFFF⟩ ∧
      ¬LineAccepted {} source ⟨1, ".blkw #-1"⟩ := by
  intro source
  let opening : List SourceLine := [⟨0, ".orig #-1"⟩]
  have comes : (Scan.readAll {} .origin {} opening).map Prod.fst = some (.body []) := by
    decide +kernel
  obtain ⟨⟨stage, scan⟩, found, rfl⟩ := Option.map_eq_some_iff.mp comes
  obtain ⟨origins, blocks, -⟩ := origins_take_signs_blocks_do_not {} source "#-1"
  obtain ⟨accepted, starts⟩ := origins ⟨0, ".orig #-1"⟩ [⟨1, ".blkw #-1"⟩, ⟨2, ".end"⟩]
    (by decide +kernel) (by decide +kernel)
  obtain ⟨blockAccepted, -⟩ := blocks opening ⟨1, ".blkw #-1"⟩ [⟨2, ".end"⟩] scan
    (by decide +kernel) (Scan.Reaches.start.readAll _ found) (by decide +kernel)
    (fun sectioned => absurd sectioned (by decide))
  refine ⟨accepted.mpr ⟨-1, spellsWithin_minusOne⟩,
    (starts _).mpr ⟨-1, spellsWithin_minusOne, by decide⟩, ?_⟩
  intro unsigned
  exact spellsWithin_minusOne.not_unsigned (by decide) (blockAccepted.mp unsigned)

/-- An origin is not always unsigned: `.orig #-1` is accepted. -/
theorem negative_origin_accepted :
    ¬∀ (options : Options) (source token : String) (first : SourceLine) (rest : List SourceLine),
      (SourceLine.ofText source).filter SourceLine.isSignificant = first :: rest →
      first.tokens = [".orig", token] →
      (LineAccepted options source first ↔ ∃ value, SpellsWithin 0 65535 token value) := by
  intro unsigned
  have accepted : LineAccepted ⟨.baseline, .library⟩ ".orig #-1\n.end" ⟨0, ".orig #-1"⟩ := by
    decide +kernel
  have spelled := (unsigned ⟨.baseline, .library⟩ ".orig #-1\n.end" "#-1" ⟨0, ".orig #-1"⟩
    [⟨1, ".end"⟩] (by decide +kernel) (by decide +kernel)).mp accepted
  exact spellsWithin_minusOne.not_unsigned (by decide) spelled

end TwoPass
