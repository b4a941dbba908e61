import TwoPass.Proofs.Outcome

/-! # What is emitted

The second pass changes the values of cells and nothing else about them, and every
word of a program without errors has an address. -/

namespace TwoPass

/-! ## Cells and their lines -/

theorem Placement.map_cells (view : CellKind → SourceLine → α) (placement : Placement)
    (profile : Profile) (labels : Labels) :
    (placement.cells profile labels).map (fun cell => view cell.kind cell.line) =
      List.replicate placement.statement.size
        (view placement.statement.cellKind placement.line) := by
  simp only [cells, List.map_map, Function.comp_def, List.map_const', placement.values_length]

namespace Run

variable (options : Options) (source : String)

theorem map_image (view : CellKind → SourceLine → α) :
    (ofSource options source).image.cells.toList.map (fun cell => view cell.kind cell.line) =
      ((Outline.ofSource options source).placements options.profile).flatMap fun placement =>
        List.replicate placement.statement.size
          (view placement.statement.cellKind placement.line) := by
  rw [image_cells, List.map_flatMap]
  simp only [Placement.map_cells]

theorem image_kinds_eq_scan :
    (ofSource options source).image.cells.toList.map Cell.kind =
      (ofSource options source).scan.image.cells.toList.map Cell.kind := by
  let view (kind : CellKind) (_ : SourceLine) : CellKind := kind
  have first : (ofSource options source).scan.image.cells.toList = _ :=
    Scan.ofLines_cells options (SourceLine.ofText source)
  rw [first, List.map_flatMap]
  refine (map_image options source view).trans (List.flatMap_congr fun placement _ => ?_)
  exact (placement.map_cells view options.profile _).symm

theorem image_size :
    (ofSource options source).image.size =
      (Outline.ofSource options source).size options.profile := by
  rw [Image.size, ← Array.length_toList, image_cells, Outline.size,
    Position.afterAll_offset _ (ofSource options source).scan.labels]
  exact (Nat.zero_add _).symm

end Run

theorem Image.map_source_emit (image : Image) :
    image.emit.map (·.source) = image.cells.toList.map fun cell =>
      if cell.kind = .instruction then some cell.line.text else none := by
  rw [emit, List.map_map]
  apply List.map_congr_left
  intro cell _
  simp only [Function.comp_apply]
  cases cell.kind <;> rfl

/-! ## Addresses -/

theorem Address.offset?_of_lt {address : Address} {offset : Nat}
    (room : address.toNat + offset < 65536) :
    ∃ further, address.offset? offset = some further ∧
      further.toNat = address.toNat + offset := by
  rw [offset?, ofNat?, dif_pos room]
  exact ⟨_, rfl, BitVec.toNat_ofNatLT ..⟩

theorem Assembly.map_sourceLines {assembly : Assembly} (view : Nat × String → α)
    (room : ∀ offset < assembly.emitted.length, assembly.start.toNat + offset < 65536) :
    assembly.sourceLines.map (fun entry => view (entry.1.toNat, entry.2)) =
      (assembly.emitted.map (·.source)).zipIdx.filterMap fun entry =>
        entry.1.map fun text => view (assembly.start.toNat + entry.2, text) := by
  rw [sourceLines, List.map_filterMap, List.zipIdx_map, List.filterMap_map]
  apply List.filterMap_congr
  rintro ⟨emitted, offset⟩ member
  have bound : offset < assembly.emitted.length := (List.mem_zipIdx' member).1
  rcases Address.offset?_of_lt (room offset bound) with ⟨address, found, number⟩
  cases source : emitted.source <;> simp [found, source, number]

/-- Two programs whose words come from the same lines have these at addresses that differ
as their origins do. -/
theorem Assembly.sourceLines_shifted {first second : Assembly}
    (sources : second.emitted.map (·.source) = first.emitted.map (·.source))
    (firstRoom : ∀ offset < first.emitted.length, first.start.toNat + offset < 65536)
    (secondRoom : ∀ offset < second.emitted.length, second.start.toNat + offset < 65536) :
    let shift : Int := second.start.toNat - first.start.toNat
    second.sourceLines.map (fun entry => ((entry.1.toNat : Int), entry.2)) =
      first.sourceLines.map fun entry => (entry.1.toNat + shift, entry.2) := by
  intro shift
  rw [map_sourceLines (fun entry => ((entry.1 : Int), entry.2)) secondRoom,
    map_sourceLines (fun entry => (entry.1 + shift, entry.2)) firstRoom, sources]
  apply List.filterMap_congr
  rintro ⟨source, offset⟩ -
  have further : (second.start.toNat : Int) + offset = first.start.toNat + offset + shift := by
    omega
  cases source <;> simp [further]

/-! ## Assembled programs -/

theorem Run.emitted_of_ok {run : Run} {assembly : Assembly} (done : run.result = .ok assembly) :
    assembly.emitted = run.image.emit := by
  rcases (run.result_eq_ok_iff assembly).mp done with ⟨-, start, -, rfl⟩
  rfl

theorem Run.words_of_ok {run : Run} {assembly : Assembly} (done : run.result = .ok assembly) :
    assembly.binary.words = run.image.cells.toList.map Cell.word := by
  rw [Assembly.binary, emitted_of_ok done]
  exact run.image.map_word_emit

theorem Run.room_of_ok {run : Run} {assembly : Assembly} (done : run.result = .ok assembly) :
    ∀ offset < assembly.emitted.length, assembly.start.toNat + offset < 65536 := by
  rcases (run.result_eq_ok_iff assembly).mp done with ⟨clean, start, accepted, rfl⟩
  intro offset bound
  have size : run.image.emit.length = run.image.size := by
    rw [← run.emit_length, List.length_map]
  have inside : offset < run.image.size := by rwa [← size]
  dsimp only
  rcases room_of_clean accepted clean with empty | room <;> omega

theorem Run.start_of_ok {run : Run} {assembly : Assembly} (done : run.result = .ok assembly) :
    run.scan.origin = some assembly.start := by
  rcases (run.result_eq_ok_iff assembly).mp done with ⟨-, start, accepted, rfl⟩
  exact accepted

theorem Run.symbols_of_ok {run : Run} {assembly : Assembly} (done : run.result = .ok assembly) :
    assembly.symbols = .ofTable assembly.start run.scan.symbols := by
  rcases (run.result_eq_ok_iff assembly).mp done with ⟨-, start, -, rfl⟩
  rfl

theorem Run.length_of_ok {options : Options} {source : String} {assembly : Assembly}
    (done : (ofSource options source).result = .ok assembly) :
    assembly.binary.words.length = (Outline.ofSource options source).size options.profile := by
  rw [words_of_ok done, List.length_map, Array.length_toList]
  exact image_size options source

/-- The labels of an assembled program are so close to memory that their numbers are exact. -/
theorem Run.definitions_of_ok {options : Options} {source : String} {assembly : Assembly}
    (done : (ofSource options source).result = .ok assembly) :
    assembly.symbols.entries =
      (ofSource options source).scan.symbols.definitions.map fun definition =>
        (definition.name, assembly.start.toNat + definition.offset) := by
  rcases (result_eq_ok_iff _ assembly).mp done with ⟨clean, start, accepted, rfl⟩
  apply List.map_congr_left
  intro definition member
  rw [symbols_eq] at member
  have inside := Outline.offset_le_size member
  have small : start.toNat + definition.offset ≤ 0xFFFFFFFF := by
    rw [← image_size] at inside
    have memory := start.toNat_lt
    rcases room_of_clean accepted clean with empty | room <;> omega
  rw [Address.advance_of_le small]

/-! ## Programs without errors -/

structure Outline.Sound (outline : Outline) (profile : Profile) (start : Address) : Prop where
  unremarked : ∀ located ∈ outline.located profile,
    located.remark? profile (fun _ => none) = none
  ended : ∀ diagnostic ∈ outline.ending.diagnostics, diagnostic.isError = false
  encoded : ∀ placement ∈ outline.placements profile, ∃ encoding,
    placement.encode profile ⟨outline.symbols profile, start, .second⟩ = .ok encoding ∧
    ∀ value ∈ encoding.words, value ≤ 0xFFFF
  room : outline.size profile = 0 ∨ start.toNat + outline.size profile ≤ 65536

namespace Run

variable {options : Options} {source : String}

theorem emissionDiagnostics_of_fits {run : Run} {start : Address}
    (accepted : run.scan.origin = some start)
    (fits : ∀ cell ∈ run.image.cells.toList, ∃ value, cell.value = some value ∧ value ≤ 0xFFFF)
    (room : run.image.size = 0 ∨ start.toNat + run.image.size ≤ 65536) :
    run.emissionDiagnostics = [] := by
  have inside : ¬ (0 < run.image.size ∧ (start.offset? (run.image.size - 1)).isNone) := by
    rintro ⟨nonempty, beyond⟩
    have last : start.toNat + (run.image.size - 1) < 65536 := by omega
    rcases Address.offset?_of_lt last with ⟨address, found, -⟩
    simp [found] at beyond
  have small : run.image.cells.toList.filterMap (fun cell =>
      cell.oversized?.map fun value =>
        Diagnostic.errorAt cell.line (.valueTooLarge value)) = [] := by
    apply List.filterMap_eq_nil_iff.mpr
    intro cell member
    rcases fits cell member with ⟨value, holds, bound⟩
    have narrow : ¬ 65536 ≤ value := by omega
    simp [Cell.oversized?, holds, Option.filter_some, narrow]
  simp only [emissionDiagnostics, accepted, Image.diagnostics, if_neg inside, small,
    List.append_nil]

theorem remark?_of_encoded {located : LocatedAction}
    (encoded : ∀ placement ∈ (Outline.ofSource options source).placements options.profile,
      placement.error? options.profile (ofSource options source).scan.labels = none)
    (member : located ∈ (Outline.ofSource options source).located options.profile) :
    located.remark? options.profile
        (·.promptError? options.profile (ofSource options source).scan.labels) =
      located.remark? options.profile (fun _ => none) := by
  apply LocatedAction.remark?_congr
  intro placement places
  have silent := encoded placement (Outline.mem_placements_of_located member places)
  simp only [Placement.promptError?, silent, ite_self]

variable {start : Address} (accepted : (ofSource options source).scan.origin = some start)
include accepted

theorem labels_eq_symbols :
    (ofSource options source).scan.labels =
      ⟨(Outline.ofSource options source).symbols options.profile, start, .second⟩ := by
  rw [Scan.labels_eq accepted, symbols_eq]

theorem error?_of_sound (sound : (Outline.ofSource options source).Sound options.profile start)
    {placement : Placement}
    (member : placement ∈ (Outline.ofSource options source).placements options.profile) :
    placement.error? options.profile (ofSource options source).scan.labels = none := by
  rcases sound.encoded placement member with ⟨encoding, encoded, -⟩
  rw [labels_eq_symbols accepted, Placement.error?, encoded]

theorem clean_of_sound (sound : (Outline.ofSource options source).Sound options.profile start) :
    ∀ diagnostic ∈ (ofSource options source).diagnostics, diagnostic.isError = false := by
  intro diagnostic member
  have emitted : (ofSource options source).emissionDiagnostics = [] := by
    apply emissionDiagnostics_of_fits accepted
    · intro cell
      apply cell_of_encoded
      rw [labels_eq_symbols accepted]
      exact sound.encoded
    · rw [image_size]
      exact sound.room
  rw [diagnostics, scan_diagnostics, resolution_diagnostics, emitted, List.append_nil] at member
  rcases List.mem_append.mp member with scanned | resolved
  · rcases List.mem_append.mp scanned with remarked | last
    · rcases List.mem_filterMap.mp remarked with ⟨located, present, said⟩
      rw [remark?_of_encoded (fun _ => error?_of_sound accepted sound) present,
        sound.unremarked located present] at said
      cases said
    · exact sound.ended diagnostic last
  · rcases List.mem_filterMap.mp resolved with ⟨placement, deferred, wrong⟩
    rw [error?_of_sound accepted sound (List.mem_filter.mp deferred).1] at wrong
    cases wrong

theorem sound_of_clean
    (clean : ∀ diagnostic ∈ (ofSource options source).diagnostics, diagnostic.isError = false) :
    (Outline.ofSource options source).Sound options.profile start where
  unremarked located member := by
    apply Option.eq_none_iff_forall_ne_some.mpr
    intro diagnostic said
    rw [← remark?_of_encoded _ member] at said
    · have harmless := clean diagnostic (remark_mem_diagnostics member said)
      rcases LocatedAction.remark_eq_errorAt said with ⟨problem, rfl⟩
      cases harmless
    · intro placement placed
      rcases encoded_of_clean accepted clean placed with ⟨encoding, encoded, -⟩
      rw [Placement.error?, encoded]
  ended diagnostic member := clean diagnostic (ending_mem_diagnostics member)
  encoded placement member := by
    rw [← labels_eq_symbols accepted]
    exact encoded_of_clean accepted clean member
  room := by
    rw [← image_size]
    exact room_of_clean accepted clean

theorem result_ok_iff_sound :
    (∃ assembly, (ofSource options source).result = .ok assembly) ↔
      (Outline.ofSource options source).Sound options.profile start :=
  result_ok_iff_clean.trans ⟨sound_of_clean accepted, clean_of_sound accepted⟩

end Run

end TwoPass
