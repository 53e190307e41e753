import Mathlib.Algebra.Ring.Nat
import AssemblyBrowser.Container.Zip
import AssemblyBrowser.Proofs.Codec.Reads
import AssemblyBrowser.Proofs.Outcomes

/-!
# Records of zip archives

The reader takes the last place of an archive where an end record can begin, and
asks of it nothing but the signature. What the end record says of the central
directory is read whatever comment follows, and so is every header whose numbers
stand for no wider ones.
-/

namespace AssemblyBrowser
namespace Zip

open Bytes (ofLittleEndian)

/-!
## Where an end record can begin
-/

/-- An end record can begin at a place: its signature does, and there is room for the rest. -/
structure EndRecordAt (data : Bytes) (place : Nat) : Prop where
  signature : data.uintAt? place 4 = some endSignature
  room : place + endRecordSize ≤ data.size

/-- No end record can begin behind the one at a place. -/
structure LastEndRecordAt (data : Bytes) (place : Nat) : Prop extends EndRecordAt data place where
  last : ∀ other, EndRecordAt data other → other ≤ place

/-- The search finds the last place at which an end record begins. -/
theorem lastEndRecord?_eq_some_iff {data : Bytes} {first count place : Nat} :
    lastEndRecord? data first count = some place ↔
      (first ≤ place ∧ place < first + count) ∧ data.uintAt? place 4 = some endSignature ∧
        ∀ other, place < other → other < first + count →
          data.uintAt? other 4 ≠ some endSignature := by
  induction count with
  | zero =>
      rw [lastEndRecord?]
      constructor
      · intro h
        cases h
      · rintro ⟨⟨hfirst, hlast⟩, _⟩
        omega
  | succ count ih =>
      rw [lastEndRecord?]
      split
      case isTrue hfound =>
        constructor
        · intro h
          obtain rfl := Option.some.inj h
          refine ⟨by omega, hfound, fun other hbehind hlast => ?_⟩
          omega
        · rintro ⟨hplace, _, hlater⟩
          have hlast : ¬ place < first + count :=
            fun hbefore => hlater (first + count) hbefore (by omega) hfound
          rw [show place = first + count by omega]
      case isFalse hnone =>
        rw [ih]
        constructor
        · rintro ⟨hplace, hsignature, hlater⟩
          refine ⟨by omega, hsignature, fun other hbehind hlast => ?_⟩
          by_cases hother : other = first + count
          · rw [hother]
            exact hnone
          · exact hlater other hbehind (by omega)
        · rintro ⟨hplace, hsignature, hlater⟩
          have hne : place ≠ first + count := fun heq => hnone (heq ▸ hsignature)
          exact ⟨by omega, hsignature, fun other hbehind _ => hlater other hbehind (by omega)⟩

/-- The end record is taken from the last place where one can begin, if no longer comment than
there may be follows it. -/
theorem findEndRecord_eq_ok {data : Bytes} {place : Nat} :
    findEndRecord data = .ok place ↔
      LastEndRecordAt data place ∧ data.size ≤ place + endRecordSize + maxComment := by
  unfold findEndRecord
  split
  case isTrue hsmall =>
    constructor
    · intro h
      cases h
    · rintro ⟨hrecord, _⟩
      have hroom := hrecord.room
      omega
  case isFalse hlarge =>
    dsimp only
    have hlast : lastEndRecord? data (data.size - endRecordSize - maxComment)
        (data.size - endRecordSize - (data.size - endRecordSize - maxComment) + 1) =
          some place ↔
        LastEndRecordAt data place ∧ data.size ≤ place + endRecordSize + maxComment := by
      rw [lastEndRecord?_eq_some_iff]
      constructor
      · rintro ⟨⟨hfirst, hlast⟩, hsignature, hlater⟩
        refine ⟨⟨⟨hsignature, by omega⟩, fun other hother => ?_⟩, by omega⟩
        have hroom := hother.room
        by_contra hbehind
        exact hlater other (by omega) (by omega) hother.signature
      · rintro ⟨hrecord, hcomment⟩
        have hroom := hrecord.room
        refine ⟨by omega, hrecord.signature, fun other hbehind hother hsignature => ?_⟩
        have hle := hrecord.last other ⟨hsignature, by omega⟩
        omega
    rw [← hlast]
    split
    case h_1 offset hfound =>
      rw [hfound]
      exact ⟨fun h => congrArg some (Except.ok.inj h), fun h => congrArg _ (Option.some.inj h)⟩
    case h_2 hnone =>
      rw [hnone]
      exact ⟨fun h => (by cases h), fun h => (by cases h)⟩

/-!
## Headers of the central directory
-/

/-- None of the numbers stands for a wider one. -/
structure Extent.Plain (extent : Extent) : Prop where
  length : extent.length ≠ saturated 4
  compressedLength : extent.compressedLength ≠ saturated 4
  offset : extent.offset ≠ saturated 4

/-- What a header of the central directory holds, with bytes of which the reader makes nothing. -/
structure CentralHeader where
  /-- The versions and the flags. -/
  versions : List UInt8
  method : Nat
  /-- The time, the date and the checksum. -/
  stamp : List UInt8
  compressedLength : Nat
  length : Nat
  /-- The number of the disk and the attributes. -/
  attributes : List UInt8
  offset : Nat
  name : List UInt8
  extra : List UInt8
  remark : List UInt8

namespace CentralHeader

variable (header : CentralHeader)

def bytes : List UInt8 :=
  ofLittleEndian 4 centralHeaderSignature ++ header.versions ++ ofLittleEndian 2 header.method ++
    header.stamp ++ ofLittleEndian 4 header.compressedLength ++ ofLittleEndian 4 header.length ++
    ofLittleEndian 2 header.name.length ++ ofLittleEndian 2 header.extra.length ++
    ofLittleEndian 2 header.remark.length ++ header.attributes ++
    ofLittleEndian 4 header.offset ++ header.name ++ header.extra ++ header.remark

def extent : Extent where
  length := header.length
  compressedLength := header.compressedLength
  offset := header.offset

/-- The parts of a header have room in it, and wider numbers are not asked for or not there. -/
structure Fits : Prop where
  versions : header.versions.length = 6
  method : header.method < 65536
  stamp : header.stamp.length = 8
  compressedLength : header.compressedLength < 2 ^ 32
  length : header.length < 2 ^ 32
  attributes : header.attributes.length = 8
  offset : header.offset < 2 ^ 32
  name : header.name.length < 65536
  extra : header.extra.length < 65536
  remark : header.remark.length < 65536
  plain : header.extra = [] ∨ header.extent.Plain

def path : String := ContainerEntry.slashed (Utf8.decodeLossy header.name.toArray)

/-- The parts of a header have room in it. -/
structure HasRoom : Prop where
  versions : header.versions.length = 6
  method : header.method < 65536
  stamp : header.stamp.length = 8
  compressedLength : header.compressedLength < 2 ^ 32
  length : header.length < 2 ^ 32
  attributes : header.attributes.length = 8
  offset : header.offset < 2 ^ 32
  name : header.name.length < 65536
  extra : header.extra.length < 65536
  remark : header.remark.length < 65536

instance : Decidable header.HasRoom :=
  decidable_of_iff
    (header.versions.length = 6 ∧ header.method < 65536 ∧ header.stamp.length = 8 ∧
      header.compressedLength < 2 ^ 32 ∧ header.length < 2 ^ 32 ∧
      header.attributes.length = 8 ∧ header.offset < 2 ^ 32 ∧ header.name.length < 65536 ∧
      header.extra.length < 65536 ∧ header.remark.length < 65536)
    ⟨fun ⟨versions, method, stamp, compressedLength, length, attributes, offset, name, extra,
        remark⟩ => ⟨versions, method, stamp, compressedLength, length, attributes, offset, name,
          extra, remark⟩,
      fun ⟨versions, method, stamp, compressedLength, length, attributes, offset, name, extra,
        remark⟩ => ⟨versions, method, stamp, compressedLength, length, attributes, offset, name,
          extra, remark⟩⟩

/-- What is listed for a header with an extent: nothing for that of a directory. -/
def listedAs (extent : Extent) : Option ContainerEntry :=
  if header.path.endsWith "/" then none
  else some {
    name := Path.lastSegment header.path
    path := header.path
    length := some extent.length
    compressedLength := extent.compressedLength
    offset := extent.offset
    compression := compressionOf header.method
    kind := .ofName header.path }

/-- What is listed for a header: nothing for that of a directory. -/
def listed : Option ContainerEntry :=
  if header.path.endsWith "/" then none
  else some {
    name := Path.lastSegment header.path
    path := header.path
    length := some header.length
    compressedLength := header.compressedLength
    offset := header.offset
    compression := compressionOf header.method
    kind := .ofName header.path }

end CentralHeader

/-!
## Extra fields that nothing is taken from
-/

theorem Extent.Plain.widen {extent : Extent} (h : extent.Plain) (field : Bytes) :
    (widenExtent extent).parse field = .ok extent := by
  unfold widenExtent
  simp only [Zip.widen, if_neg h.length, if_neg h.compressedLength, if_neg h.offset]
  rfl

/-- Any bytes of the right number are read as a number. -/
theorem reads_unsigned_of_length {bytes : List UInt8} {width : Nat} (h : bytes.length = width) :
    Decoder.Reads (Decoder.unsigned width) bytes (Bytes.littleEndian bytes) := by
  have hread := Decoder.reads_map (fun taken : Bytes => Bytes.littleEndian taken.toList)
    (Decoder.reads_take_of_length h)
  exact hread

/-- Whatever the extra fields are, plain numbers stay as they are. -/
theorem Extent.Plain.applyExtra {extent : Extent} (h : extent.Plain) (fuel : Nat)
    (before after : List UInt8) :
    ∃ cursor, (Zip.applyExtra extent fuel).run (.between before after) = .ok extent cursor := by
  induction fuel generalizing before after with
  | zero => exact ⟨_, rfl⟩
  | succ fuel ih =>
      rw [Zip.applyExtra]
      rw [Decoder.run_bind (Decoder.run_remaining before after)]
      split
      case isTrue => exact ⟨_, rfl⟩
      case isFalse hmore =>
        obtain ⟨tag, size, rest, rfl, htag, hsize⟩ : ∃ tag size rest,
            after = tag ++ (size ++ rest) ∧ tag.length = 2 ∧ size.length = 2 := by
          refine ⟨after.take 2, (after.drop 2).take 2, (after.drop 2).drop 2, ?_, ?_, ?_⟩
          · rw [List.take_append_drop, List.take_append_drop]
          · rw [List.length_take]
            omega
          · rw [List.length_take, List.length_drop]
            omega
        rw [Decoder.run_bind (reads_unsigned_of_length htag before (size ++ rest))]
        rw [Decoder.run_bind (reads_unsigned_of_length hsize _ rest)]
        rw [Decoder.run_bind (Decoder.run_remaining _ rest)]
        -- The field is cut off where the bytes end.
        obtain ⟨field, others, hrest, hfield⟩ : ∃ field others, rest = field ++ others ∧
            field.length = min (Bytes.littleEndian size) rest.length := by
          refine ⟨rest.take (min (Bytes.littleEndian size) rest.length), rest.drop _,
            (List.take_append_drop _ _).symm, ?_⟩
          rw [List.length_take]
          omega
        have htake := Decoder.reads_take_of_length hfield (before ++ tag ++ size) others
        rw [← hrest] at htake
        rw [Decoder.run_bind htake]
        split
        case isTrue =>
          rw [h.widen]
          exact ⟨_, rfl⟩
        case isFalse => exact ih _ others

namespace CentralHeader

variable {header : CentralHeader}

theorem Fits.parse_extra (h : header.Fits) :
    (applyExtra header.extent header.extra.toArray.size).parse header.extra.toArray =
      .ok header.extent := by
  rcases h.plain with hempty | hplain
  · rw [hempty]
    rfl
  · exact Decoder.parse_of_run (hplain.applyExtra _ [] header.extra)

theorem Fits.hasRoom (h : header.Fits) : header.HasRoom :=
  { h with }

/-- A header is read with the extent that its extra fields make of its numbers. -/
theorem HasRoom.reads {extent : Extent} (h : header.HasRoom)
    (hextra : (applyExtra header.extent header.extra.toArray.size).parse header.extra.toArray =
      .ok extent) : Decoder.Reads entry header.bytes (header.listedAs extent) := by
  unfold bytes entry
  simp only [List.append_assoc]
  refine Decoder.reads_bind (Decoder.reads_unsigned (by decide)) ?_
  rw [if_neg (by simp)]
  refine Decoder.reads_bind (Decoder.reads_advance_of_length h.versions) ?_
  refine Decoder.reads_bind (Decoder.reads_unsigned h.method) ?_
  refine Decoder.reads_bind (Decoder.reads_advance_of_length h.stamp) ?_
  refine Decoder.reads_bind (Decoder.reads_unsigned h.compressedLength) ?_
  refine Decoder.reads_bind (Decoder.reads_unsigned h.length) ?_
  refine Decoder.reads_bind (Decoder.reads_unsigned h.name) ?_
  refine Decoder.reads_bind (Decoder.reads_unsigned h.extra) ?_
  refine Decoder.reads_bind (Decoder.reads_unsigned h.remark) ?_
  refine Decoder.reads_bind (Decoder.reads_advance_of_length h.attributes) ?_
  refine Decoder.reads_bind (Decoder.reads_unsigned h.offset) ?_
  refine Decoder.reads_bind (Decoder.reads_take header.name) ?_
  refine Decoder.reads_bind (Decoder.reads_take header.extra) ?_
  refine Decoder.reads_bind_last (Decoder.reads_advance header.remark) ?_
  unfold CentralHeader.extent at hextra
  rw [hextra]
  refine Decoder.reads_bind_last (Decoder.reads_pure _) ?_
  unfold listedAs path
  split
  case isTrue => exact Decoder.reads_pure none
  case isFalse => exact Decoder.reads_pure _

theorem listedAs_extent (header : CentralHeader) :
    header.listedAs header.extent = header.listed := by
  unfold listedAs listed extent
  rfl

theorem Fits.reads (h : header.Fits) : Decoder.Reads entry header.bytes header.listed := by
  rw [← listedAs_extent]
  exact h.hasRoom.reads h.parse_extra

/-- Headers of a directory are read one after another. -/
theorem reads_repeated {α : Type} {items : List α} {header : α → CentralHeader}
    {found : α → Option ContainerEntry}
    (h : ∀ item ∈ items, Decoder.Reads entry (header item).bytes (found item)) :
    Decoder.Reads (Decoder.repeated entry items.length)
      (items.flatMap fun item => (header item).bytes) (items.map found) := by
  have hforms : List.Forall₂ (fun value bytes => Decoder.Reads entry bytes value)
      (items.map found) (items.map fun item => (header item).bytes) := by
    rw [List.forall₂_map_left_iff, List.forall₂_map_right_iff, List.forall₂_same]
    exact h
  have hrepeated := Decoder.reads_repeated hforms fun _ _ _ h => h
  rwa [List.length_map, ← List.flatMap_def] at hrepeated

end CentralHeader

/-!
## End records
-/

/-- The record at the end of an archive, with its comment. -/
def commentedEndRecord (count size offset : Nat) (comment : List UInt8) : List UInt8 :=
  ofLittleEndian 4 endSignature ++ List.replicate 4 0 ++ ofLittleEndian 2 count ++
    ofLittleEndian 2 count ++ ofLittleEndian 4 size ++ ofLittleEndian 4 offset ++
    ofLittleEndian 2 comment.length ++ comment

section EndRecord

variable (before comment : List UInt8) {count size offset : Nat}

theorem size_append_endRecord :
    (before ++ commentedEndRecord count size offset comment).toArray.size =
      before.length + endRecordSize + comment.length := by
  simp only [commentedEndRecord, List.size_toArray, List.length_append,
    Bytes.ofLittleEndian_length, List.length_replicate, endRecordSize]
  omega

theorem endRecordAt_append :
    EndRecordAt (before ++ commentedEndRecord count size offset comment).toArray
      before.length where
  signature := by
    have hread := Bytes.uintAt?_middle before (List.replicate 4 0 ++ (ofLittleEndian 2 count ++
      (ofLittleEndian 2 count ++ (ofLittleEndian 4 size ++ (ofLittleEndian 4 offset ++
        (ofLittleEndian 2 comment.length ++ comment)))))) 4
      (show endSignature < Nat.pow 256 4 by decide)
    simp only [commentedEndRecord, List.append_assoc] at hread ⊢
    exact hread
  room := by
    rw [size_append_endRecord]
    exact Nat.le_add_right _ _

/-- An end record is found exactly if its comment makes no other one begin behind it. -/
theorem findEndRecord_append_iff (hcomment : comment.length ≤ maxComment) :
    findEndRecord (before ++ commentedEndRecord count size offset comment).toArray =
        .ok before.length ↔
      ∀ place, EndRecordAt (before ++ commentedEndRecord count size offset comment).toArray place →
        place ≤ before.length := by
  rw [findEndRecord_eq_ok, size_append_endRecord]
  constructor
  · rintro ⟨hrecord, _⟩
    exact hrecord.last
  · intro hlast
    exact ⟨⟨endRecordAt_append before comment, hlast⟩, by omega⟩

/-- Behind an end record without a comment there is no room for another one. -/
theorem findEndRecord_append :
    findEndRecord (before ++ commentedEndRecord count size offset []).toArray =
      .ok before.length := by
  rw [findEndRecord_append_iff before [] (Nat.zero_le _)]
  intro place hplace
  have hroom := hplace.room
  rw [size_append_endRecord, List.length_nil] at hroom
  omega

/-- An end record says how many headers there are and where they begin, whatever its comment. -/
theorem parse_directory (hcount : count < 65535) (hoffset : offset < 2 ^ 32 - 1) :
    (directory before.length).parse
        (before ++ commentedEndRecord count size offset comment).toArray =
      .ok { count, offset } := by
  have hreads : Decoder.Reads
      (do
        let count ← Decoder.unsigned 2
        Decoder.advance 4
        let offset ← Decoder.unsigned 4
        if count = saturated 2 ∨ offset = saturated 4 then wideDirectory before.length
        else return { count, offset })
      (ofLittleEndian 2 count ++ (ofLittleEndian 4 size ++ (ofLittleEndian 4 offset ++ [])))
      ({ count, offset } : Directory) := by
    refine Decoder.reads_bind (Decoder.reads_unsigned (by simp only [Nat.pow_eq]; omega)) ?_
    refine Decoder.reads_bind
      (Decoder.reads_advance_of_length (Bytes.ofLittleEndian_length 4 size)) ?_
    refine Decoder.reads_bind (Decoder.reads_unsigned (by simp only [Nat.pow_eq]; omega)) ?_
    rw [if_neg (by simp only [saturated, Nat.pow_eq]; omega)]
    exact Decoder.reads_pure _
  have hplace : before.length + 10 = (before ++ (ofLittleEndian 4 endSignature ++
      List.replicate 4 0 ++ ofLittleEndian 2 count)).length := by
    simp only [List.length_append, Bytes.ofLittleEndian_length, List.length_replicate]
  have hparse := Decoder.parse_seek _ (ofLittleEndian 2 comment.length ++ comment) hplace hreads
  unfold directory commentedEndRecord
  simp only [List.append_assoc, List.append_nil] at hparse ⊢
  exact hparse

end EndRecord

/-!
## Directories
-/

/-- What the end record at a place says is in the archive. -/
def entriesBy (data : Bytes) (endRecord : Nat) : Except Error (List ContainerEntry) := do
  let directory ← (directory endRecord).parse data
  let reader : Decoder (List (Option ContainerEntry)) := do
    Decoder.seek directory.offset
    Decoder.repeated entry directory.count
  return (← reader.parse data).filterMap id

theorem entries_of_findEndRecord {data : Bytes} {place : Nat}
    (h : findEndRecord data = .ok place) : entries data = entriesBy data place := by
  unfold entries
  rw [h]
  rfl

/-- What is listed is what the central directory holds where the end record points. -/
theorem entriesBy_eq {data : Bytes} {place : Nat} {location : Directory}
    {found : List (Option ContainerEntry)}
    (hdirectory : (directory place).parse data = .ok location)
    (hentries : (do
      Decoder.seek location.offset
      Decoder.repeated entry location.count).parse data = .ok found) :
    entriesBy data place = .ok (found.filterMap id) := by
  unfold entriesBy
  rw [hdirectory, Outcome.ok_bind]
  dsimp only
  rw [hentries, Outcome.ok_bind]
  rfl

end Zip
end AssemblyBrowser
