import TwoPass.Program.Listing
import TwoPass.Proofs.DefinedLabels
import TwoPass.Proofs.OneShot
import TwoPass.Proofs.Provenance
import TwoPass.Proofs.Tokens

/-! # Words and their source lines

Every word of a program comes from one statement. The map from addresses to source
lines has an entry for each word that comes from an instruction and for no other, and
a listing has one line for each word, with the source line that the map has for it. -/

namespace TwoPass

/-! ## The statement of a word -/

namespace Outline

variable {outline : Outline} {profile : Profile}

def owners (outline : Outline) (profile : Profile) : List Placement :=
  (outline.placements profile).flatMap fun placement =>
    List.replicate placement.statement.size placement

theorem length_owners : (outline.owners profile).length = outline.size profile := by
  let labels : Labels := ⟨{}, ⟨0⟩, .first⟩
  have total := Position.afterAll_offset profile labels {} outline.actions
  rw [size, total, owners, List.length_flatMap, List.length_flatMap]
  simp only [List.length_replicate, Placement.cells_length]
  exact (Nat.zero_add _).symm

theorem owner_of_covers {placement : Placement} {index : Nat}
    (member : placement ∈ outline.placements profile) (covers : placement.Covers index) :
    (outline.owners profile)[index]? = some placement := by
  have consecutive : Consecutive 0 (outline.placements profile) := consecutive_placements
  have found := consecutive.getElem?_flatMap
    (fun placement => List.length_replicate (a := placement)) member covers
  rw [owners]
  refine found.trans (List.getElem?_replicate_of_lt ?_)
  rcases covers with ⟨lower, upper⟩
  omega

theorem getElem?_owners_iff {placement : Placement} {index : Nat} :
    (outline.owners profile)[index]? = some placement ↔
      placement ∈ outline.placements profile ∧ placement.Covers index := by
  constructor
  · intro owner
    have inside := (List.getElem?_eq_some_iff.mp owner).1
    rw [length_owners] at inside
    have start : ({} : Position).offset ≤ index := Nat.zero_le index
    rcases exists_covers start inside with ⟨other, member, covers⟩
    cases owner.symm.trans (owner_of_covers member covers)
    exact ⟨member, covers⟩
  · rintro ⟨member, covers⟩
    exact owner_of_covers member covers

end Outline

def Placement.source? (placement : Placement) : Option String :=
  match placement.statement with
  | .instruction _ _ => some placement.line.text
  | .storage _ _ => none

theorem Placement.source?_eq_some_iff {placement : Placement} {text : String} :
    placement.source? = some text ↔
      (∃ mnemonic operands, placement.statement = .instruction mnemonic operands) ∧
        text = placement.line.text := by
  unfold source?
  cases placement.statement with
  | instruction mnemonic operands =>
      simp only [Option.some.injEq]
      constructor
      · rintro rfl
        exact ⟨⟨mnemonic, operands, rfl⟩, rfl⟩
      · rintro ⟨-, rfl⟩
        rfl
  | storage kind operands => simp

theorem Run.sources_eq_owners (options : Options) (source : String) :
    (ofSource options source).image.emit.map (·.source) =
      ((Outline.ofSource options source).owners options.profile).map Placement.source? := by
  rw [Image.map_source_emit, map_image options source fun kind line =>
    if kind = .instruction then some line.text else none, Outline.owners, List.map_flatMap]
  apply List.flatMap_congr
  intro placement _
  rw [List.map_replicate]
  congr 1
  unfold Placement.source?
  cases placement.statement <;> rfl

/-! ## Addresses -/

theorem Address.offset?_eq_some_iff {start address : Address} {offset : Nat} :
    start.offset? offset = some address ↔ address.toNat = start.toNat + offset := by
  constructor
  · intro found
    unfold offset? ofNat? at found
    split at found
    · cases found
      exact BitVec.toNat_ofNatLT ..
    · cases found
  · intro number
    have room : start.toNat + offset < 65536 := by
      rw [← number]
      exact address.toNat_lt
    rcases offset?_of_lt room with ⟨further, found, same⟩
    rw [found]
    have bits : further.bits.toNat = address.bits.toNat := same.trans number.symm
    rw [Option.some.injEq, Address.mk.injEq]
    exact BitVec.eq_of_toNat_eq bits

namespace Assembly

variable (assembly : Assembly)

theorem mem_sourceLines_iff {address : Address} {text : String} :
    (address, text) ∈ assembly.sourceLines ↔
      ∃ index, address.toNat = assembly.start.toNat + index ∧
        (assembly.emitted.map (·.source))[index]? = some (some text) := by
  simp only [List.getElem?_map, Option.map_eq_some_iff]
  constructor
  · intro member
    rcases List.mem_filterMap.mp member with ⟨⟨emitted, index⟩, present, entry⟩
    rcases Option.bind_eq_some_iff.mp entry with ⟨further, found, entry⟩
    rcases Option.bind_eq_some_iff.mp entry with ⟨source, known, entry⟩
    cases entry
    exact ⟨index, Address.offset?_eq_some_iff.mp found, emitted,
      List.mk_mem_zipIdx_iff_getElem?.mp present, known⟩
  · rintro ⟨index, number, emitted, present, known⟩
    refine List.mem_filterMap.mpr
      ⟨(emitted, index), List.mk_mem_zipIdx_iff_getElem?.mpr present, ?_⟩
    simp [Address.offset?_eq_some_iff.mpr number, known]

theorem sourceLines_ascending : (assembly.sourceLines.map (·.1.toNat)).Pairwise (· < ·) := by
  have ordered : assembly.emitted.zipIdx.Pairwise fun first second => first.2 < second.2 := by
    rw [← List.pairwise_map, List.zipIdx_map_snd]
    exact List.pairwise_lt_range'
  rw [List.pairwise_map, sourceLines, List.pairwise_filterMap]
  refine ordered.imp ?_
  rintro ⟨first, lower⟩ ⟨second, upper⟩ before entry found other otherFound
  rcases Option.bind_eq_some_iff.mp found with ⟨address, place, found⟩
  rcases Option.bind_eq_some_iff.mp found with ⟨text, -, found⟩
  rcases Option.bind_eq_some_iff.mp otherFound with ⟨otherAddress, otherPlace, otherFound⟩
  rcases Option.bind_eq_some_iff.mp otherFound with ⟨otherText, -, otherFound⟩
  cases found
  cases otherFound
  rw [Address.offset?_eq_some_iff.mp place, Address.offset?_eq_some_iff.mp otherPlace]
  exact Nat.add_lt_add_left before _

theorem sourceLines_distinct : (assembly.sourceLines.map Prod.fst).Nodup := by
  have ascending := assembly.sourceLines_ascending
  rw [List.pairwise_map] at ascending
  rw [List.Nodup, List.pairwise_map]
  refine ascending.imp ?_
  intro first second before same
  rw [same] at before
  exact Nat.lt_irrefl _ before

/-- The map has for the address of a word just what the word came from. -/
theorem lookup_sourceLines {address : Address} {index : Nat} {emitted : EmittedWord}
    (number : address.toNat = assembly.start.toNat + index)
    (present : assembly.emitted[index]? = some emitted) :
    assembly.sourceLines.lookup address = emitted.source := by
  apply Option.ext
  intro text
  rw [lookup_eq_some_iff_mem assembly.sourceLines_distinct, mem_sourceLines_iff]
  constructor
  · rintro ⟨other, otherNumber, known⟩
    have same : other = index := by omega
    rw [same, List.getElem?_map, present] at known
    exact Option.some.inj known
  · intro known
    refine ⟨index, number, ?_⟩
    rw [List.getElem?_map, present, ← known]
    rfl

end Assembly

/-! ## Listings -/

structure ListingRow where
  address : Address
  word : Word
  source : Option String
  deriving DecidableEq, Repr

def ListingRow.text (row : ListingRow) : String :=
  Assembly.listingLine row.address ⟨row.word, row.source⟩

def Binary.listingRows (binary : Binary) (sources : List (Address × String)) : List ListingRow :=
  binary.words.zipIdx.filterMap fun (word, offset) =>
    (binary.start.offset? offset).map fun address => ⟨address, word, sources.lookup address⟩

/-- A listing shows the symbols, the origin and then a row for each word, with the source
line that the map has for it. -/
theorem Assembly.listing_eq_rows (assembly : Assembly) :
    assembly.listing =
      s!"Symbol Table:\n{assembly.symbols.text}\n" ++
        s!"Listing:\n.orig {assembly.start.text}\n" ++
        String.join
          ((assembly.binary.listingRows assembly.sourceLines).map ListingRow.text) := by
  have rows : (assembly.binary.listingRows assembly.sourceLines).map ListingRow.text =
      assembly.emitted.zipIdx.filterMap fun entry =>
        (assembly.start.offset? entry.2).map (listingLine · entry.1) := by
    rw [Binary.listingRows, binary, List.zipIdx_map, List.filterMap_map, List.map_filterMap]
    apply List.filterMap_congr
    rintro ⟨emitted, offset⟩ member
    have present := List.mk_mem_zipIdx_iff_getElem?.mp member
    cases found : assembly.start.offset? offset with
    | none => simp [found]
    | some address =>
        have known := assembly.lookup_sourceLines (Address.offset?_eq_some_iff.mp found) present
        simp [found, ListingRow.text, known]
  rw [rows]
  rfl

namespace Binary

variable {binary : Binary} {sources : List (Address × String)}
  (room : ∀ offset < binary.words.length, binary.start.toNat + offset < 65536)
include room

theorem listingRows_eq_map :
    binary.listingRows sources = binary.words.zipIdx.map fun (word, offset) =>
      let address := (binary.start.offset? offset).getD binary.start
      ⟨address, word, sources.lookup address⟩ := by
  rw [listingRows, ← List.filterMap_eq_map]
  apply List.filterMap_congr
  rintro ⟨word, offset⟩ member
  rcases Address.offset?_of_lt (room offset (List.mem_zipIdx' member).1) with ⟨address, found, -⟩
  simp [found]

theorem length_listingRows : (binary.listingRows sources).length = binary.words.length := by
  rw [listingRows_eq_map room, List.length_map, List.length_zipIdx]

theorem getElem?_listingRows {index : Nat} {word : Word}
    (present : binary.words[index]? = some word) :
    ∃ address, address.toNat = binary.start.toNat + index ∧
      (binary.listingRows sources)[index]? =
        some ⟨address, word, sources.lookup address⟩ := by
  have inside := (List.getElem?_eq_some_iff.mp present).1
  rcases Address.offset?_of_lt (room index inside) with ⟨address, found, number⟩
  refine ⟨address, number, ?_⟩
  rw [listingRows_eq_map room, List.getElem?_map, List.getElem?_zipIdx, present]
  simp [found]

end Binary

/-! ## One line for each row -/

namespace SourceLine

theorem not_mem_of_mem_split {text line : List Char} (member : line ∈ split text) :
    '\n' ∉ line := by
  have plain {piece : List Char} (member : piece ∈ pieces (· == '\n') text) : '\n' ∉ piece := by
    intro feed
    cases (mem_and_not_of_mem_pieces member '\n' feed).2
  have ended {line : List Char}
      (member : line ∈ (pieces (· == '\n') text).dropLast.map dropReturn) : '\n' ∉ line := by
    rcases List.mem_map.mp member with ⟨piece, present, rfl⟩
    intro feed
    apply plain (List.dropLast_subset _ present)
    unfold dropReturn at feed
    split at feed
    · exact List.dropLast_subset _ feed
    · exact feed
  unfold split at member
  dsimp only at member
  split at member
  · exact ended member
  · exact ended member
  · rename_i rest _ last
    rcases List.mem_append.mp member with earlier | own
    · exact ended earlier
    · rw [List.mem_singleton.mp own]
      exact plain (List.mem_of_getLast? last)

theorem not_mem_of_ofText {text : String} {line : SourceLine} (member : line ∈ ofText text) :
    '\n' ∉ line.text.toList := by
  rcases List.mem_map.mp member with ⟨⟨characters, number⟩, present, rfl⟩
  rw [String.toList_ofList]
  exact not_mem_of_mem_split (List.fst_mem_of_mem_zipIdx present)

end SourceLine

theorem Hex.digit_ne_feed {value : Nat} (small : value < 16) : digit value ≠ '\n' := by
  revert value
  decide

theorem Hex.not_mem_fixed (width value : Nat) : '\n' ∉ (fixed width value).toList := by
  rw [fixed, String.toList_ofList]
  induction width generalizing value with
  | zero => exact List.not_mem_nil
  | succ width induction =>
      intro member
      rcases List.mem_append.mp member with front | last
      · exact induction _ front
      · exact digit_ne_feed (Nat.mod_lt value (by decide)) (List.mem_singleton.mp last).symm

theorem mem_of_mem_trim {text : List Char} {character : Char} (member : character ∈ trim text) :
    character ∈ text := by
  unfold trim trimEnd trimStart at member
  have inner := (List.dropWhile_sublist _).subset (List.mem_reverse.mp member)
  exact (List.dropWhile_sublist _).subset (List.mem_reverse.mp inner)

theorem ListingRow.text_eq_line {row : ListingRow}
    (plain : ∀ text, row.source = some text → '\n' ∉ text.toList) :
    ∃ line, row.text = line ++ "\n" ∧ '\n' ∉ line.toList := by
  let front := "x" ++ Hex.fixed 4 row.address.toNat ++ "  " ++ Hex.fixed 4 row.word.toNat
  have frontPlain : '\n' ∉ front.toList := by simp [front, Hex.not_mem_fixed]
  unfold text Assembly.listingLine
  cases source : row.source with
  | none => exact ⟨front, rfl, frontPlain⟩
  | some text =>
      have kept : '\n' ∉ trim text.toList := fun feed => plain text source (mem_of_mem_trim feed)
      refine ⟨front ++ "  " ++ String.ofList (trim text.toList), rfl, ?_⟩
      simp [frontPlain, kept]

/-! ## Assembled programs -/

/-- The statement that the word at an index comes from, which is spelled on a line of the
program and encoded to that word. -/
structure Run.Makes (options : Options) (source : String) (index : Nat) (word : Word)
    (placement : Placement) : Prop where
  placed : placement ∈ (Outline.ofSource options source).placements options.profile
  covers : placement.Covers index
  encoded : ∃ encoding,
    placement.encode options.profile (ofSource options source).scan.labels = .ok encoding ∧
    encoding.words[index - placement.position.offset]? = some word.toNat
  line : (SourceLine.ofText source)[placement.line.number]? = some placement.line
  spelled : (options.profile.takeLabel placement.line.tokens).statement =
    placement.statement.name :: placement.statement.operands

namespace Run

variable {options : Options} {source : String} {assembly : Assembly}
  (done : (ofSource options source).result = .ok assembly)
include done

theorem owners_of_ok :
    assembly.emitted.map (·.source) =
      ((Outline.ofSource options source).owners options.profile).map Placement.source? := by
  rw [emitted_of_ok done, sources_eq_owners]

theorem makes_of_owner {index : Nat} {word : Word} {placement : Placement}
    (present : assembly.binary.words[index]? = some word)
    (owner : ((Outline.ofSource options source).owners options.profile)[index]? =
      some placement) : Makes options source index word placement := by
  rcases Outline.getElem?_owners_iff.mp owner with ⟨member, covers⟩
  have action := action_of_placement member
  have clean := ((result_eq_ok_iff _ assembly).mp done).1
  rcases encoded_of_clean (start_of_ok done) clean member with ⟨encoding, encoded, fits⟩
  rcases emit_of_covers member covers with ⟨own, found, emitted⟩
  have same : own = word := by
    rw [Assembly.binary, emitted_of_ok done] at present
    exact Option.some.inj (emitted.symm.trans present)
  refine ⟨member, covers, ⟨encoding, encoded, ?_⟩,
    SourceLine.getElem?_ofText (Outline.line_mem_of_ofLines action),
    (Outline.ofLines_spelled action).statement_eq⟩
  rw [← Placement.toNat_words encoded fits, List.getElem?_map, found, same]
  rfl

theorem exists_owner {index : Nat} {word : Word}
    (present : assembly.binary.words[index]? = some word) :
    ∃ placement, ((Outline.ofSource options source).owners options.profile)[index]? =
      some placement := by
  have inside := (List.getElem?_eq_some_iff.mp present).1
  rw [length_of_ok done, ← Outline.length_owners] at inside
  exact ⟨_, List.getElem?_eq_getElem inside⟩

theorem word_of_owner {index : Nat} {placement : Placement}
    (owner : ((Outline.ofSource options source).owners options.profile)[index]? =
      some placement) : ∃ word, assembly.binary.words[index]? = some word := by
  have inside := (List.getElem?_eq_some_iff.mp owner).1
  rw [Outline.length_owners, ← length_of_ok done] at inside
  exact ⟨_, List.getElem?_eq_getElem inside⟩

theorem mem_sourceLines_iff_owner {address : Address} {text : String} :
    (address, text) ∈ assembly.sourceLines ↔
      ∃ index placement,
        ((Outline.ofSource options source).owners options.profile)[index]? = some placement ∧
        placement.source? = some text ∧ address.toNat = assembly.start.toNat + index := by
  rw [assembly.mem_sourceLines_iff, owners_of_ok done]
  simp only [List.getElem?_map, Option.map_eq_some_iff]
  constructor
  · rintro ⟨index, number, placement, owner, known⟩
    exact ⟨index, placement, owner, known, number⟩
  · rintro ⟨index, placement, owner, known, number⟩
    exact ⟨index, number, placement, owner, known⟩

theorem lookup_of_owner {address : Address} {index : Nat} {placement : Placement}
    (owner : ((Outline.ofSource options source).owners options.profile)[index]? =
      some placement)
    (number : address.toNat = assembly.start.toNat + index) :
    assembly.sourceLines.lookup address = placement.source? := by
  have known := congrArg (·[index]?) (owners_of_ok done)
  simp only [List.getElem?_map, owner, Option.map_some] at known
  rcases Option.map_eq_some_iff.mp known with ⟨emitted, present, same⟩
  rw [assembly.lookup_sourceLines number present, same]

theorem not_mem_of_sourceLines {address : Address} {text : String}
    (member : (address, text) ∈ assembly.sourceLines) : '\n' ∉ text.toList := by
  rcases (mem_sourceLines_iff_owner done).mp member with ⟨index, placement, owner, known, -⟩
  rw [(Placement.source?_eq_some_iff.mp known).2]
  apply SourceLine.not_mem_of_ofText
  exact Outline.line_mem_of_ofLines
    (action_of_placement (Outline.getElem?_owners_iff.mp owner).1)

theorem room_for_words :
    ∀ offset < assembly.binary.words.length,
      assembly.binary.start.toNat + offset < 65536 := by
  intro offset inside
  rw [Assembly.binary, List.length_map] at inside
  exact room_of_ok done offset inside

end Run

/-- Each word of an assembled program comes from one statement. The source lines are those
of the words that come from instructions, each at the address of its word, and a listing
has a line for every word, in order. -/
theorem source_lines_are_exact (options : Options) (source : String) (assembly : Assembly)
    (done : assemble options source = .ok assembly) :
    let words := assembly.binary.words
    let rows := assembly.binary.listingRows assembly.sourceLines
    (∀ index word, words[index]? = some word →
      ∃! placement, Run.Makes options source index word placement) ∧
    (∀ address text, (address, text) ∈ assembly.sourceLines ↔
      ∃ index word placement mnemonic operands,
        words[index]? = some word ∧
        Run.Makes options source index word placement ∧
        placement.statement = .instruction mnemonic operands ∧
        address.toNat = assembly.start.toNat + index ∧
        text = placement.line.text) ∧
    (assembly.sourceLines.map (·.1.toNat)).Pairwise (· < ·) ∧
    assembly.listing =
      s!"Symbol Table:\n{assembly.symbols.text}\n" ++
        s!"Listing:\n.orig {assembly.start.text}\n" ++
        String.join (rows.map ListingRow.text) ∧
    rows.length = words.length ∧
    (∀ row ∈ rows, ∃ line, row.text = line ++ "\n" ∧ '\n' ∉ line.toList) ∧
    ∀ index word placement, words[index]? = some word →
      Run.Makes options source index word placement →
      ∃ address, address.toNat = assembly.start.toNat + index ∧
        rows[index]? = some ⟨address, word, placement.source?⟩ := by
  intro words rows
  have room := Run.room_for_words done
  refine ⟨fun index word present => ?_, fun address text => ?_, assembly.sourceLines_ascending,
    assembly.listing_eq_rows, Binary.length_listingRows room, fun row member => ?_,
    fun index word placement present makes => ?_⟩
  · rcases Run.exists_owner done present with ⟨placement, owner⟩
    refine ⟨placement, Run.makes_of_owner done present owner, fun other makes => ?_⟩
    have same := Outline.owner_of_covers makes.placed makes.covers
    exact Option.some.inj (same.symm.trans owner)
  · rw [Run.mem_sourceLines_iff_owner done]
    constructor
    · rintro ⟨index, placement, owner, known, number⟩
      rcases Run.word_of_owner done owner with ⟨word, present⟩
      rcases Placement.source?_eq_some_iff.mp known with ⟨⟨mnemonic, operands, instruction⟩, same⟩
      exact ⟨index, word, placement, mnemonic, operands, present,
        Run.makes_of_owner done present owner, instruction, number, same⟩
    · rintro ⟨index, word, placement, mnemonic, operands, -, makes, instruction, number, same⟩
      refine ⟨index, placement, Outline.owner_of_covers makes.placed makes.covers, ?_, number⟩
      exact Placement.source?_eq_some_iff.mpr ⟨⟨mnemonic, operands, instruction⟩, same⟩
  · apply ListingRow.text_eq_line
    intro text known
    rcases List.mem_filterMap.mp member with ⟨⟨word, offset⟩, -, found⟩
    rcases Option.map_eq_some_iff.mp found with ⟨address, -, rfl⟩
    exact Run.not_mem_of_sourceLines done
      ((lookup_eq_some_iff_mem assembly.sourceLines_distinct address text).mp known)
  · rcases Binary.getElem?_listingRows room present with ⟨address, number, row⟩
    have owner := Outline.owner_of_covers makes.placed makes.covers
    rw [Run.lookup_of_owner done owner number] at row
    exact ⟨address, number, row⟩

/-- The data between the two instructions has three words, and the last word has the
last address that there is. -/
theorem source_lines_around_data :
    let source := ".orig xFFFB\nbr last\n.blkw 2\n.fill last\nlast: HALT ; done\n.end"
    ∃ assembly, assemble {} source = .ok assembly ∧
      assembly.binary.words = [0x0E03, 0, 0, 0xFFFF, 0xF025] ∧
      assembly.sourceLines = [(⟨0xFFFB⟩, "br last"), (⟨0xFFFF⟩, "last: HALT ; done")] ∧
      (∃! placement, Run.Makes {} source 4 0xF025 placement) ∧
      (assembly.binary.listingRows assembly.sourceLines).length = 5 ∧
      (assembly.binary.listingRows assembly.sourceLines).map ListingRow.text =
        ["xFFFB  0E03  br last\n", "xFFFC  0000\n", "xFFFD  0000\n", "xFFFE  FFFF\n",
          "xFFFF  F025  last: HALT ; done\n"] := by
  intro source
  have succeeds : (assemble {} source).isOk = true := by decide +kernel
  rcases exists_of_isOk succeeds with ⟨assembly, done⟩
  have emitted : (assemble {} source).toOption.map (·.binary.words) =
      some [0x0E03, 0, 0, 0xFFFF, 0xF025] := by decide +kernel
  have lines : (assemble {} source).toOption.map (·.sourceLines) =
      some [(⟨0xFFFB⟩, "br last"), (⟨0xFFFF⟩, "last: HALT ; done")] := by decide +kernel
  have texts : (assemble {} source).toOption.map (fun assembly =>
      (assembly.binary.listingRows assembly.sourceLines).map ListingRow.text) =
      some ["xFFFB  0E03  br last\n", "xFFFC  0000\n", "xFFFD  0000\n", "xFFFE  FFFF\n",
        "xFFFF  F025  last: HALT ; done\n"] := by decide +kernel
  rw [done] at emitted lines texts
  have words : assembly.binary.words = [0x0E03, 0, 0, 0xFFFF, 0xF025] := Option.some.inj emitted
  rcases source_lines_are_exact {} source assembly done with ⟨makers, -, -, -, length, -, -⟩
  refine ⟨assembly, done, words, Option.some.inj lines, makers 4 0xF025 ?_, ?_,
    Option.some.inj texts⟩
  · rw [words]
    rfl
  · rw [length, words]
    rfl

end TwoPass
