import TwoPass.Proofs.Reports

/-! # Assembling in one go

A program whose labels were all known beforehand could be assembled in one go, each
statement being encoded once. Two passes yield the words of that assembly. -/

namespace TwoPass

namespace Placement

/-- The words of a statement that is encoded once with given labels. A zero stands
for each value that does not fit in a word, and for each word of a statement that
cannot be encoded. -/
def words (placement : Placement) (profile : Profile) (labels : Labels) : List Word :=
  match placement.encode profile labels with
  | .ok encoding =>
    encoding.words.map fun value => if value ≤ 0xFFFF then BitVec.ofNat 16 value else 0
  | .error _ => List.replicate placement.statement.failedLength 0

theorem map_word_cells (placement : Placement) (profile : Profile) (labels : Labels) :
    (placement.cells profile labels).map Cell.word = placement.words profile labels := by
  unfold cells values words
  cases placement.encode profile labels with
  | ok encoding =>
      simp only [List.map_map]
      apply List.map_congr_left
      intro value _
      simp [Cell.word, Nat.lt_succ_iff]
  | error problem => simp [Cell.word]

theorem words_length (placement : Placement) (profile : Profile) (labels : Labels) :
    (placement.words profile labels).length = placement.statement.size := by
  rw [← map_word_cells, List.length_map, cells_length]

theorem toNat_words {placement : Placement} {profile : Profile} {labels : Labels}
    {encoding : Encoding} (encoded : placement.encode profile labels = .ok encoding)
    (fits : ∀ value ∈ encoding.words, value ≤ 0xFFFF) :
    (placement.words profile labels).map BitVec.toNat = encoding.words := by
  rw [words, encoded]
  simp only [List.map_map]
  refine (List.map_congr_left fun value member => ?_).trans (List.map_id _)
  have bound : value ≤ 65535 := fits value member
  simp only [Function.comp_apply, bound, if_true, BitVec.toNat_ofNat, id_eq]
  omega

end Placement

theorem Consecutive.offset_eq {offset : Nat} {before after : List Placement}
    {placement : Placement} (profile : Profile) (labels : Labels)
    (consecutive : Consecutive offset (before ++ placement :: after)) :
    placement.position.offset =
      offset + (before.flatMap (·.words profile labels)).length := by
  induction before generalizing offset with
  | nil => exact consecutive.1
  | cons first rest induction =>
      have later := induction consecutive.2
      rw [List.flatMap_cons, List.length_append, first.words_length]
      omega

theorem Run.emit_words (options : Options) (source : String) :
    (ofSource options source).image.emit.map (·.word) =
      ((Outline.ofSource options source).placements options.profile).flatMap
        (·.words options.profile (ofSource options source).scan.labels) := by
  rw [Image.map_word_emit, image_cells, List.map_flatMap]
  apply List.flatMap_congr
  intro placement _
  exact placement.map_word_cells options.profile _

theorem Run.emit_word {options : Options} {source : String} {placement : Placement}
    {index : Nat} {word : Word}
    (member : placement ∈ (Outline.ofSource options source).placements options.profile)
    (own : (placement.words options.profile (ofSource options source).scan.labels)[index]? =
      some word) :
    ((ofSource options source).image.emit.map (·.word))[placement.position.offset + index]? =
      some word := by
  have consecutive : Consecutive 0
      ((Outline.ofSource options source).placements options.profile) :=
    Outline.consecutive_placements
  have inside := (List.getElem?_eq_some_iff.mp own).1
  rw [placement.words_length] at inside
  have covers : placement.Covers (placement.position.offset + index) := by
    constructor <;> omega
  have found := consecutive.getElem?_flatMap
    (fun placement => placement.words_length options.profile (ofSource options source).scan.labels)
    member covers
  rw [Nat.add_sub_cancel_left, own] at found
  rw [emit_words]
  exact found

theorem Run.emit_of_covers {options : Options} {source : String} {placement : Placement}
    {index : Nat}
    (member : placement ∈ (Outline.ofSource options source).placements options.profile)
    (covers : placement.Covers index) :
    ∃ word,
      (placement.words options.profile
        (ofSource options source).scan.labels)[index - placement.position.offset]? = some word ∧
      ((ofSource options source).image.emit.map (·.word))[index]? = some word := by
  rcases covers with ⟨lower, upper⟩
  have inside : index - placement.position.offset <
      (placement.words options.profile (ofSource options source).scan.labels).length := by
    rw [placement.words_length]
    omega
  have own := List.getElem?_eq_getElem inside
  have emitted := emit_word member own
  rw [Nat.add_sub_cancel' lower] at emitted
  exact ⟨_, own, emitted⟩

/-- Two passes yield the words of an assembly in one go, in which each statement
stands after the words of the ones before it. When they succeed, every word is
that of an encoded statement. -/
theorem assemble_eq_one_shot (options : Options) (source : String) (start : Address)
    (accepted : (Run.ofSource options source).scan.origin = some start) :
    let labels : Labels := ⟨(Run.ofSource options source).scan.symbols, start, .second⟩
    let placements := (Outline.ofSource options source).placements options.profile
    outputBinary (assemble options source) =
      some ⟨start, placements.flatMap (·.words options.profile labels)⟩ ∧
    (∀ before placement after, placements = before ++ placement :: after →
      placement.position.offset = (before.flatMap (·.words options.profile labels)).length) ∧
    ∀ assembly, assemble options source = .ok assembly →
      ∀ placement ∈ placements, ∃ encoding,
        placement.encode options.profile labels = .ok encoding ∧
        (placement.words options.profile labels).map BitVec.toNat = encoding.words := by
  rw [← Scan.labels_eq accepted]
  intro labels placements
  refine ⟨?_, ?_, ?_⟩
  · rw [assemble, Run.outputBinary_result, accepted, Option.map_some, Run.emit_words]
  · intro before placement after split
    have consecutive : Consecutive 0 placements := Outline.consecutive_placements
    rw [split] at consecutive
    exact (consecutive.offset_eq options.profile labels).trans (Nat.zero_add _)
  · intro assembly done placement member
    have clean := ((Run.result_eq_ok_iff _ assembly).mp done).1
    rcases Run.encoded_of_clean accepted clean member with ⟨encoding, encoded, fits⟩
    exact ⟨encoding, encoded, Placement.toNat_words encoded fits⟩

/-- The label is used twice before it is bound, the second time in both words of a
block. -/
theorem one_shot_of_forward_references :
    let source := ".orig x3000\nld r0, far\nhalt\n.blkw 2 far\nfar .fill xFFFF\n.end"
    (Run.ofSource {} source).scan.origin = some ⟨0x3000⟩ ∧
    outputBinary (assemble {} source) =
      some ⟨⟨0x3000⟩, [0x2003, 0xF025, 0x3004, 0x3004, 0xFFFF]⟩ ∧
    ∃ assembly, assemble {} source = .ok assembly ∧
      ∀ placement ∈ (Outline.ofSource {} source).placements .baseline, ∃ encoding,
        placement.encode .baseline
          ⟨(Run.ofSource {} source).scan.symbols, ⟨0x3000⟩, .second⟩ = .ok encoding ∧
        (placement.words .baseline
          ⟨(Run.ofSource {} source).scan.symbols, ⟨0x3000⟩, .second⟩).map BitVec.toNat =
            encoding.words := by
  intro source
  have accepted : (Run.ofSource {} source).scan.origin = some ⟨0x3000⟩ := by decide +kernel
  have general := assemble_eq_one_shot {} source ⟨0x3000⟩ accepted
  refine ⟨accepted, ?_, ?_⟩
  · rw [general.1]
    decide +kernel
  · have succeeds : (assemble {} source).isOk = true := by decide +kernel
    cases done : assemble {} source with
    | ok assembly => exact ⟨assembly, rfl, general.2.2 assembly done⟩
    | error failure =>
        rw [done] at succeeds
        cases succeeds

end TwoPass
