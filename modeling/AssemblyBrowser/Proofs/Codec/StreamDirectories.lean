import Mathlib.Algebra.Ring.Nat
import AssemblyBrowser.Metadata.Root
import AssemblyBrowser.Proofs.Codec.Heaps

/-!
# Stream directories

The root of metadata names a version and lists streams, by their ranges and names. A
name ends in a zero byte and is padded to a multiple of four, so where a header begins
depends on all names in front of it.

A directory that is written so is read back. Whatever bytes are accepted as a root, the
ranges of all its streams lie inside them, so that each listed name leads to a stream.
-/

namespace AssemblyBrowser

open Bytes (ofLittleEndian)

/-- The number of bytes from a length to the next multiple of an alignment. -/
def padding (alignment length : Nat) : Nat := (alignment - length % alignment) % alignment

/-- Bytes with zero bytes behind them up to the next multiple of an alignment. -/
def padded (alignment : Nat) (bytes : List UInt8) : List UInt8 :=
  bytes ++ List.replicate (padding alignment bytes.length) 0

theorem padded_length_mod (bytes : List UInt8) : (padded 4 bytes).length % 4 = 0 := by
  unfold padded padding
  rw [List.length_append, List.length_replicate]
  omega

theorem Decoder.run_align (before after : List UInt8) :
    (align 4).run (.between before (List.replicate (padding 4 before.length) 0 ++ after)) =
      .ok () (.between (before ++ List.replicate (padding 4 before.length) 0) after) := by
  have hpast : Bounded.remainder
      (Cursor.between before (List.replicate (padding 4 before.length) 0 ++ after)).pos 4 =
        .ok (before.length % 4) := Bounded.remainder_eq_ok (by decide)
  have hmissing : Bounded.subtract 4 (before.length % 4) = .ok (4 - before.length % 4) :=
    Bounded.subtract_eq_ok (by omega)
  have hcount : Bounded.remainder (4 - before.length % 4) 4 = .ok (padding 4 before.length) :=
    Bounded.remainder_eq_ok (by decide)
  unfold align
  rw [run_get, run_bind (run_ofExcept hpast _), run_bind (run_ofExcept hmissing _),
    run_bind (run_ofExcept hcount _)]
  exact reads_advance_of_length List.length_replicate before after

namespace StreamHeader

/-- A header as it is written. -/
def bytes (header : StreamHeader) : List UInt8 :=
  ofLittleEndian 4 header.offset ++ ofLittleEndian 4 header.size ++
    padded 4 ((Utf8.encode header.name).toList ++ [0])

theorem bytes_length_mod (header : StreamHeader) : header.bytes.length % 4 = 0 := by
  have hname := padded_length_mod ((Utf8.encode header.name).toList ++ [0])
  simp only [bytes, List.length_append, Bytes.ofLittleEndian_length] at hname ⊢
  omega

/-- The range of a stream lies inside data of that length, and ends where a word can say. -/
structure Within (header : StreamHeader) (length : Nat) : Prop where
  stop_le : header.offset + header.size ≤ length
  stop_lt : header.offset + header.size < UInt32.size

/-- Metadata are as long as a word of the runtime header says, so a range inside of them ends where
a word can say. -/
theorem within_of_le {header : StreamHeader} {length : Nat}
    (hinside : header.offset + header.size ≤ length) (hlength : length < UInt32.size) :
    header.Within length :=
  ⟨hinside, Nat.lt_of_le_of_lt hinside hlength⟩

/-- The bytes of a stream. -/
def cut (header : StreamHeader) (data : Bytes) : Bytes :=
  data.extract header.offset (header.offset + header.size)

end StreamHeader

/-- What the root of metadata says, and what stands behind it. -/
structure RootDraft where
  majorVersion : UInt16
  minorVersion : UInt16
  reserved : UInt32
  version : String
  /-- How many zero bytes end the version before it is padded; as a rule there is one. -/
  versionZeros : Nat
  flags : UInt16
  streams : List StreamHeader
  rest : List UInt8

namespace RootDraft

variable (draft : RootDraft)

def versionBytes : List UInt8 :=
  padded 4 ((Utf8.encode draft.version).toList ++ List.replicate draft.versionZeros 0)

/-- What stands in front of the headers of the streams. -/
def headBytes : List UInt8 :=
  ofLittleEndian 4 MetadataRoot.signature ++ ofLittleEndian 2 draft.majorVersion.toNat ++
    ofLittleEndian 2 draft.minorVersion.toNat ++ ofLittleEndian 4 draft.reserved.toNat ++
    ofLittleEndian 4 draft.versionBytes.length ++ draft.versionBytes ++
    ofLittleEndian 2 draft.flags.toNat ++ ofLittleEndian 2 draft.streams.length

def bytes : List UInt8 :=
  draft.headBytes ++ draft.streams.flatMap StreamHeader.bytes ++ draft.rest

/-- The root can be written: there are streams, but not too many, the names end where they end, the
ranges lie inside the data, and the data are no longer than data can be. -/
structure Fits : Prop where
  ne_nil : draft.streams ≠ []
  count_lt : draft.streams.length < 2 ^ 16
  version_lt : draft.versionBytes.length < 2 ^ 32
  plain : ∀ header ∈ draft.streams, '\x00' ∉ header.name.toList
  within : ∀ header ∈ draft.streams, header.Within draft.bytes.length
  room : draft.bytes.length < Bounded.positions

/-- What the root says, as it is read. -/
def root : MetadataRoot where
  majorVersion := draft.majorVersion.toNat
  minorVersion := draft.minorVersion.toNat
  version := MetadataRoot.trimPadding draft.version
  streams := draft.streams

end RootDraft

namespace MetadataRoot

open Decoder

/-!
## Written directories
-/

/-- A header is read where one may begin. -/
theorem run_streamDecoder {header : StreamHeader} {before after : List UInt8}
    (haligned : before.length % 4 = 0) (hplain : '\x00' ∉ header.name.toList)
    (hroom : (before ++ header.bytes ++ after).length < Bounded.positions)
    (hwithin : header.Within (before ++ header.bytes ++ after).length) :
    streamDecoder.run (.between before (header.bytes ++ after)) =
      .ok header (.between (before ++ header.bytes) after) := by
  obtain ⟨hinside, hword⟩ := hwithin
  obtain ⟨name, hname⟩ : ∃ name, name = (Utf8.encode header.name).toList := ⟨_, rfl⟩
  obtain ⟨numbers, hnumbers⟩ : ∃ numbers, numbers =
    before ++ ofLittleEndian 4 header.offset ++ ofLittleEndian 4 header.size := ⟨_, rfl⟩
  obtain ⟨zeros, hzeros⟩ : ∃ zeros, zeros =
    List.replicate (padding 4 (numbers ++ name ++ [0]).length) (0 : UInt8) := ⟨_, rfl⟩
  -- All in front of the name is aligned, so padding the name pads the data as well.
  have hpadding : padding 4 (name ++ [0]).length = padding 4 (numbers ++ name ++ [0]).length := by
    simp only [padding, hnumbers, List.length_append, Bytes.ofLittleEndian_length]
    omega
  have hbytes : header.bytes = ofLittleEndian 4 header.offset ++
      (ofLittleEndian 4 header.size ++ (name ++ 0 :: zeros)) := by
    rw [hzeros, ← hpadding, hname]
    simp only [StreamHeader.bytes, padded, List.append_assoc, List.cons_append, List.nil_append]
  have hdata : before ++ header.bytes ++ after = numbers ++ name ++ 0 :: (zeros ++ after) := by
    simp only [hbytes, hnumbers, List.append_assoc, List.cons_append]
  rw [hdata] at hroom hinside
  have hterminated := TextField.run_terminated hplain numbers (zeros ++ after)
  rw [← hname] at hterminated
  have hnext := run_align (numbers ++ name ++ [0]) after
  rw [← hzeros] at hnext
  have hwords : UInt32.size = Nat.pow 256 4 := rfl
  have hoffset : header.offset < Nat.pow 256 4 := by omega
  have hsize : header.size < Nat.pow 256 4 := by omega
  have hend : (Cursor.between (numbers ++ name ++ [0] ++ zeros) after).data.size =
      (numbers ++ name ++ 0 :: (zeros ++ after)).length := by
    simp only [Cursor.between, List.size_toArray, List.append_assoc, List.cons_append,
      List.nil_append]
  rw [hbytes]
  simp only [List.append_assoc, List.cons_append]
  unfold streamDecoder
  rw [run_bind (reads_unsigned hoffset _ _), run_bind (reads_unsigned hsize _ _), ← hnumbers,
    run_bind (hterminated hroom), run_bind hnext, run_get, if_neg (Nat.not_le.mpr hword),
    if_neg (by omega), hnumbers]
  simp only [List.append_assoc, List.cons_append, List.nil_append]
  rfl

/-- The headers of a list are read one after another. -/
theorem run_headers {headers : List StreamHeader} (before after : List UInt8)
    (haligned : before.length % 4 = 0)
    (hplain : ∀ header ∈ headers, '\x00' ∉ header.name.toList)
    (hroom : (before ++ headers.flatMap StreamHeader.bytes ++ after).length < Bounded.positions)
    (hwithin : ∀ header ∈ headers,
      header.Within (before ++ headers.flatMap StreamHeader.bytes ++ after).length) :
    (repeated streamDecoder headers.length).run
        (.between before (headers.flatMap StreamHeader.bytes ++ after)) =
      .ok headers (.between (before ++ headers.flatMap StreamHeader.bytes) after) := by
  induction headers generalizing before with
  | nil => rw [List.flatMap_nil, List.append_nil]; rfl
  | cons header rest ih =>
      have hdata : before ++ (header :: rest).flatMap StreamHeader.bytes ++ after =
          before ++ header.bytes ++ (rest.flatMap StreamHeader.bytes ++ after) := by
        simp only [List.flatMap_cons, List.append_assoc]
      have hassoc : before ++ header.bytes ++ (rest.flatMap StreamHeader.bytes ++ after) =
          before ++ header.bytes ++ rest.flatMap StreamHeader.bytes ++ after := by
        simp only [List.append_assoc]
      rw [List.forall_mem_cons] at hplain hwithin
      rw [hdata] at hroom hwithin
      have hfirst := run_streamDecoder haligned hplain.1 hroom hwithin.1
      have hmod := header.bytes_length_mod
      rw [hassoc] at hroom hwithin
      have hrest := ih (before ++ header.bytes) (by rw [List.length_append]; omega) hplain.2 hroom
        hwithin.2
      rw [List.flatMap_cons, List.append_assoc, List.length_cons, repeated, run_bind hfirst,
        run_bind hrest, ← List.append_assoc]
      rfl

theorem trimPadding_zeros (text : String) (count : Nat) :
    trimPadding (text ++ String.ofList (List.replicate count '\x00')) = trimPadding text := by
  unfold trimPadding
  rw [String.toList_append, String.toList_ofList, List.reverse_append, List.reverse_replicate,
    List.dropWhile_append_of_pos fun c hc => by simp [List.eq_of_mem_replicate hc]]

theorem version_trimmed (text : String) (count : Nat) :
    trimPadding (Utf8.decodeLossy
      ((Utf8.encode text).toList ++ List.replicate count 0).toArray) = trimPadding text := by
  have hzeros : (List.replicate count '\x00').flatMap String.utf8EncodeChar =
      List.replicate count 0 := by
    induction count with
    | zero => rfl
    | succ count ih =>
        rw [List.replicate_succ, List.flatMap_cons, ih, List.replicate_succ]
        rfl
  have hbytes : ((Utf8.encode text).toList ++ List.replicate count 0).toArray =
      Utf8.encode (text ++ String.ofList (List.replicate count '\x00')) := by
    rw [← Array.toList_inj, Utf8.toList_encode, Utf8.toList_encode, String.toList_append,
      String.toList_ofList, List.flatMap_append, hzeros]
  rw [hbytes, Utf8.decodeLossy, Utf8.decodeLossyFrom, Utf8.decode_encode]
  exact trimPadding_zeros text count

end MetadataRoot

namespace RootDraft

open Decoder MetadataRoot

variable {draft : RootDraft}

theorem headBytes_length_mod : draft.headBytes.length % 4 = 0 := by
  have hversion : draft.versionBytes.length % 4 = 0 := padded_length_mod _
  simp only [headBytes, List.length_append, Bytes.ofLittleEndian_length]
  omega

/-- What was written is read, with the version without the zeros behind it. -/
theorem decode_bytes (hfits : draft.Fits) :
    MetadataRoot.decode draft.bytes.toArray = .ok draft.root := by
  have hheaders := run_headers draft.headBytes draft.rest headBytes_length_mod hfits.plain
    hfits.room hfits.within
  have hsome : ¬ draft.streams.length = 0 := fun hzero =>
    hfits.ne_nil (List.eq_nil_of_length_eq_zero hzero)
  have hmajor : draft.majorVersion.toNat < Nat.pow 256 2 := draft.majorVersion.toNat_lt
  have hminor : draft.minorVersion.toNat < Nat.pow 256 2 := draft.minorVersion.toNat_lt
  have hreserved : draft.reserved.toNat < Nat.pow 256 4 := draft.reserved.toNat_lt
  have hflags : draft.flags.toNat < Nat.pow 256 2 := draft.flags.toNat_lt
  have htake : Reads (take draft.versionBytes.length) draft.versionBytes
      draft.versionBytes.toArray := reads_take draft.versionBytes
  have hversion : trimPadding (Utf8.decodeLossy draft.versionBytes.toArray) =
      trimPadding draft.version := by
    unfold versionBytes padded
    rw [List.append_assoc, List.replicate_append_replicate]
    exact version_trimmed draft.version _
  have hbytes : draft.bytes = ofLittleEndian 4 signature ++
      (ofLittleEndian 2 draft.majorVersion.toNat ++ (ofLittleEndian 2 draft.minorVersion.toNat ++
        (ofLittleEndian 4 draft.reserved.toNat ++ (ofLittleEndian 4 draft.versionBytes.length ++
          (draft.versionBytes ++ (ofLittleEndian 2 draft.flags.toNat ++
            (ofLittleEndian 2 draft.streams.length ++
              (draft.streams.flatMap StreamHeader.bytes ++ draft.rest)))))))) := by
    simp only [bytes, headBytes, List.append_assoc]
  refine parse_of_run
    ⟨.between (draft.headBytes ++ draft.streams.flatMap StreamHeader.bytes) draft.rest, ?_⟩
  rw [hbytes]
  unfold decoder
  rw [run_bind (reads_unsigned (show signature < Nat.pow 256 4 by decide) _ _), if_neg (by simp),
    run_bind (reads_unsigned hmajor _ _), run_bind (reads_unsigned hminor _ _),
    run_bind (reads_unsigned hreserved _ _), run_bind (reads_unsigned hfits.version_lt _ _),
    run_bind (htake _ _), run_bind (reads_unsigned hflags _ _),
    run_bind (reads_unsigned hfits.count_lt _ _), if_neg hsome, hversion]
  exact run_bind hheaders

end RootDraft

/-!
## Accepted directories
-/

namespace Decoder

variable {α : Type} {data : Bytes}

/-- What a decoder gets out of these data has a property, and it leaves the data as they are. -/
def Yields (data : Bytes) (P : α → Prop) (decoder : Decoder α) : Prop :=
  Keeps (fun cursor => cursor.data = data) (fun _ => True) P decoder

theorem yields_ofExcept (outcome : Except Error α) :
    Yields data (fun _ => True) (ofExcept outcome) := by
  cases outcome with
  | ok value => exact keeps_pure trivial
  | error error => exact keeps_throw trivial

theorem yields_take (length : Nat) : Yields data (fun _ => True) (take length) := by
  refine keeps_bind keeps_get fun cursor hcursor => ?_
  refine keeps_bind (yields_ofExcept _) fun bytes _ => ?_
  exact keeps_bind (keeps_set hcursor) fun _ _ => keeps_pure trivial

theorem yields_unsigned (width : Nat) : Yields data (fun _ => True) (unsigned width) :=
  keeps_bind (yields_take width) fun _ _ => keeps_pure trivial

theorem yields_align (alignment : Nat) : Yields data (fun _ => True) (align alignment) := by
  refine keeps_bind keeps_get fun cursor _ => ?_
  refine keeps_bind (yields_ofExcept _) fun past _ => ?_
  refine keeps_bind (yields_ofExcept _) fun missing _ => ?_
  refine keeps_bind (yields_ofExcept _) fun count _ => ?_
  refine keeps_bind keeps_get fun place _ => keeps_bind keeps_get fun cursor hcursor => ?_
  exact keeps_ite (fun _ => keeps_set hcursor) fun _ => keeps_throw trivial

end Decoder

theorem TextField.yields_terminated {data : Bytes} :
    Decoder.Yields data (fun _ => True) terminated := by
  open Decoder in
  refine keeps_bind keeps_get fun cursor hcursor => ?_
  refine keeps_bind (yields_ofExcept _) fun stop _ => ?_
  refine keeps_bind (yields_ofExcept _) fun next _ => ?_
  refine keeps_bind (keeps_set hcursor) fun _ _ => ?_
  refine keeps_bind (yields_ofExcept _) fun bytes _ => ?_
  split
  · exact keeps_pure trivial
  · exact keeps_throw trivial

namespace MetadataRoot

open Decoder

theorem yields_streamDecoder {data : Bytes} :
    Yields data (fun header => header.Within data.size) streamDecoder := by
  refine keeps_bind (yields_unsigned 4) fun offset _ => ?_
  refine keeps_bind (yields_unsigned 4) fun size _ => ?_
  refine keeps_bind TextField.yields_terminated fun name _ => ?_
  refine keeps_bind (yields_align 4) fun _ _ => ?_
  refine keeps_bind keeps_get fun cursor hcursor => ?_
  refine keeps_ite (fun _ => keeps_throw trivial) fun hword => ?_
  refine keeps_ite (fun _ => keeps_throw trivial) fun hinside => keeps_pure ?_
  rw [hcursor] at hinside
  exact ⟨Nat.not_lt.mp hinside, Nat.not_le.mp hword⟩

theorem yields_decoder {data : Bytes} :
    Yields data (fun root => ∀ header ∈ root.streams, header.Within data.size) decoder := by
  refine keeps_bind (yields_unsigned 4) fun found _ => keeps_check trivial fun _ => ?_
  refine keeps_bind (yields_unsigned 2) fun majorVersion _ => ?_
  refine keeps_bind (yields_unsigned 2) fun minorVersion _ => ?_
  refine keeps_bind (yields_unsigned 4) fun reserved _ => ?_
  refine keeps_bind (yields_unsigned 4) fun versionLength _ => ?_
  refine keeps_bind (yields_take versionLength) fun versionBytes _ => ?_
  refine keeps_bind (yields_unsigned 2) fun flags _ => ?_
  refine keeps_bind (yields_unsigned 2) fun count _ => keeps_check trivial fun _ => ?_
  refine keeps_bind (keeps_repeated yields_streamDecoder count) fun streams hstreams => ?_
  exact keeps_pure hstreams

/-- Whatever is accepted as a root, the ranges that it lists lie inside the data. -/
theorem within_of_decode {data : Bytes} {root : MetadataRoot} (h : decode data = .ok root) :
    ∀ header ∈ root.streams, header.Within data.size := by
  unfold decode parse at h
  cases hrun : decoder.run { data := data } with
  | ok value after =>
      rw [hrun] at h
      cases h
      exact (yields_decoder.of_ok rfl hrun).1
  | error error after =>
      rw [hrun] at h
      cases h

/-- Of streams inside the data, the first one of a name is found. -/
theorem stream?_eq {root : MetadataRoot} {data : Bytes}
    (h : ∀ header ∈ root.streams, header.Within data.size) (name : String) :
    root.stream? data name =
      .ok ((root.streams.find? (·.name == name)).map (StreamHeader.cut · data)) := by
  unfold stream?
  cases hfind : root.streams.find? (·.name == name) with
  | none => rfl
  | some header =>
      obtain ⟨hinside, hword⟩ := h header (List.mem_of_find?_eq_some hfind)
      dsimp only
      rw [Bounded.add_eq_ok hword, Outcome.ok_bind, Bytes.between?,
        if_pos ⟨Nat.le_add_right _ _, hinside⟩]
      rfl

/-- Directories that are written are read back: the headers in their order, and by each name the
bytes of the first stream of that name. Whatever is accepted as a root, the ranges of all streams
lie inside the data and end where a word can say, so that to look for a stream never fails, and
finds one for each name that is listed. -/
theorem streams_found_by_name :
    (∀ draft : RootDraft, draft.Fits →
      decode draft.bytes.toArray = .ok draft.root ∧
        ∀ name, draft.root.stream? draft.bytes.toArray name =
          .ok ((draft.streams.find? (·.name == name)).map
            (StreamHeader.cut · draft.bytes.toArray))) ∧
    ∀ (data : Bytes) (root : MetadataRoot), decode data = .ok root →
      (∀ header ∈ root.streams, header.Within data.size) ∧
      (∀ name, root.stream? data name =
        .ok ((root.streams.find? (·.name == name)).map (StreamHeader.cut · data))) ∧
      ∀ header ∈ root.streams, ∃ stream, root.stream? data header.name = .ok (some stream) := by
  refine ⟨fun draft hfits => ?_, fun data root hroot => ?_⟩
  · exact ⟨RootDraft.decode_bytes hfits, @stream?_eq draft.root _ hfits.within⟩
  · have hwithin := within_of_decode hroot
    refine ⟨hwithin, stream?_eq hwithin, fun header hheader => ?_⟩
    obtain ⟨first, hfirst⟩ : ∃ first, root.streams.find? (·.name == header.name) = some first :=
      Option.isSome_iff_exists.mp (List.find?_isSome.mpr ⟨header, hheader, beq_self_eq_true _⟩)
    exact ⟨first.cut data, by rw [stream?_eq hwithin, hfirst, Option.map_some]⟩

/-- Two streams of one name, the second of which is all of the metadata, and an empty one at the end
whose name has letters of two bytes; no zero byte ends the version. -/
def awkwardRoot : RootDraft where
  majorVersion := 1
  minorVersion := 1
  reserved := 0
  version := "v2.0"
  versionZeros := 0
  flags := 0
  streams := [⟨64, 4, "#~"⟩, ⟨0, 68, "#~"⟩, ⟨68, 0, "#été"⟩]
  rest := [1, 2, 3, 4]

theorem fits_awkwardRoot : awkwardRoot.Fits where
  ne_nil := by decide
  count_lt := by decide
  version_lt := by decide +kernel
  plain := by decide +kernel
  within := by
    have hlength : awkwardRoot.bytes.length = 68 := by decide +kernel
    rw [hlength]
    intro header hheader
    simp only [awkwardRoot, List.mem_cons, List.not_mem_nil, or_false] at hheader
    rcases hheader with rfl | rfl | rfl <;> exact StreamHeader.within_of_le (by decide) (by decide)
  room := by decide +kernel

theorem streams_found_by_name_awkward :
    awkwardRoot.Fits ∧ decode awkwardRoot.bytes.toArray = .ok awkwardRoot.root ∧
      awkwardRoot.root.stream? awkwardRoot.bytes.toArray "#~" = .ok (some #[1, 2, 3, 4]) ∧
      (∀ header ∈ awkwardRoot.streams, header.Within awkwardRoot.bytes.toArray.size) ∧
      ∃ stream, awkwardRoot.root.stream? awkwardRoot.bytes.toArray "#été" = .ok (some stream) := by
  obtain ⟨hdecode, hstream⟩ := streams_found_by_name.1 awkwardRoot fits_awkwardRoot
  obtain ⟨hwithin, -, hlisted⟩ := streams_found_by_name.2 _ _ hdecode
  have hfirst : (awkwardRoot.streams.find? (·.name == "#~")).map
      (StreamHeader.cut · awkwardRoot.bytes.toArray) = some #[1, 2, 3, 4] := by decide +kernel
  refine ⟨fits_awkwardRoot, hdecode, ?_, hwithin,
    hlisted ⟨68, 0, "#été"⟩ ?_⟩
  · rw [hstream, hfirst]
  · simp [RootDraft.root, awkwardRoot]

end MetadataRoot
end AssemblyBrowser
