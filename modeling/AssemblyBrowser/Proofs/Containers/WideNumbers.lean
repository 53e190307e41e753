import AssemblyBrowser.Proofs.Containers.ArchiveComments

/-!
# Wide numbers of zip archives

A number that is too large for its place in a header, or in the end record, is
saturated there and stands in a wider form elsewhere: the numbers of a header in one
of its extra fields, and those of the end record in a wide record, which a locator in
front of the end record finds. An archive may write any of its numbers so, also those
that have room, and lists the same. Only a number that has room but is saturated of
itself cannot stay in its place, since the reader would look for the wide one.
-/

namespace AssemblyBrowser
namespace Zip

open Bytes (ofLittleEndian)

/-!
## Extra fields
-/

/-- A field of the extra bytes of a header. -/
structure ExtraField where
  tag : Nat
  content : List UInt8

namespace ExtraField

variable (field : ExtraField)

def bytes : List UInt8 :=
  ofLittleEndian 2 field.tag ++ ofLittleEndian 2 field.content.length ++ field.content

/-- The field has room, and is not the one with wide numbers. -/
structure IsOther : Prop where
  tag : field.tag < 65536
  other : field.tag ≠ wideFieldTag
  content : field.content.length < 65536

theorem four_le_length : 4 ≤ field.bytes.length := by
  simp only [bytes, List.length_append, Bytes.ofLittleEndian_length]
  omega

end ExtraField

instance (field : ExtraField) : Decidable field.IsOther :=
  decidable_of_iff
    (field.tag < 65536 ∧ field.tag ≠ wideFieldTag ∧ field.content.length < 65536)
    ⟨fun ⟨tag, other, content⟩ => ⟨tag, other, content⟩,
      fun ⟨tag, other, content⟩ => ⟨tag, other, content⟩⟩

/-- In front of a field, the reader looks at its tag. -/
theorem run_applyExtra_field (extent : Extent) (fuel : Nat) {field : ExtraField}
    (htag : field.tag < 65536) (hcontent : field.content.length < 65536)
    (before after : List UInt8) :
    (applyExtra extent (fuel + 1)).run (.between before (field.bytes ++ after)) =
      (if field.tag = wideFieldTag then
        match (widenExtent extent).parse field.content.toArray with
        | .ok extent => pure extent
        | .error error => throw error
      else applyExtra extent fuel : Decoder Extent).run
        (.between (before ++ field.bytes) after) := by
  have hmore : ¬ (field.bytes ++ after).length < 4 := by
    have hfour := field.four_le_length
    rw [List.length_append]
    omega
  have hsize : min field.content.length (field.content ++ after).length =
      field.content.length := by
    rw [List.length_append]
    omega
  rw [applyExtra, Decoder.run_bind (Decoder.run_remaining _ _), if_neg hmore]
  have hahead : field.bytes ++ after = ofLittleEndian 2 field.tag ++
      (ofLittleEndian 2 field.content.length ++ (field.content ++ after)) := by
    simp only [ExtraField.bytes, List.append_assoc]
  have hbehind : before ++ field.bytes = before ++ ofLittleEndian 2 field.tag ++
      ofLittleEndian 2 field.content.length ++ field.content := by
    simp only [ExtraField.bytes, List.append_assoc]
  rw [hahead, hbehind, Decoder.run_bind (Decoder.reads_unsigned htag _ _),
    Decoder.run_bind (Decoder.reads_unsigned hcontent _ _),
    Decoder.run_bind (Decoder.run_remaining _ _), hsize]
  exact Decoder.run_bind (Decoder.reads_take field.content _ _)

/-- Other fields are passed over. -/
theorem run_applyExtra_others (extent : Extent) {others : List ExtraField}
    (hothers : ∀ field ∈ others, field.IsOther) (fuel : Nat) (before after : List UInt8) :
    (applyExtra extent (others.length + fuel)).run
        (.between before (others.flatMap ExtraField.bytes ++ after)) =
      (applyExtra extent fuel).run
        (.between (before ++ others.flatMap ExtraField.bytes) after) := by
  induction others generalizing before with
  | nil => simp
  | cons field rest ih =>
      have hfield := hothers field List.mem_cons_self
      have hrest := ih (fun other hmem => hothers other (List.mem_cons_of_mem _ hmem))
        (before ++ field.bytes)
      rw [List.length_cons, Nat.succ_add_eq_add_succ, Nat.add_succ, List.flatMap_cons,
        List.append_assoc, run_applyExtra_field extent _ hfield.tag hfield.content,
        if_neg hfield.other, hrest, List.append_assoc]

/-- Behind the last field there are no wide numbers. -/
theorem run_applyExtra_end (extent : Extent) (fuel : Nat) (before : List UInt8) :
    (applyExtra extent fuel).run (.between before []) = .ok extent (.between before []) := by
  cases fuel with
  | zero => rfl
  | succ fuel =>
      rw [applyExtra, Decoder.run_bind (Decoder.run_remaining _ _)]
      rfl

/-!
## Headers with wide numbers
-/

/-- What stands in the place of a number that may have been moved. -/
def marked (moved : Bool) (number : Nat) : Nat := if moved then saturated 4 else number

/-- What is written of the number elsewhere. -/
def wideForm (moved : Bool) (number : Nat) : List UInt8 :=
  if moved then ofLittleEndian 8 number else []

/-- A number is read back from where it stands, if it is not saturated of itself. -/
theorem reads_widen {moved : Bool} {number : Nat} (hroom : number < 2 ^ 32)
    (hkept : moved = false → number ≠ saturated 4) :
    Decoder.Reads (widen (marked moved number)) (wideForm moved number) number := by
  unfold widen marked wideForm
  cases moved with
  | false =>
      rw [if_neg Bool.false_ne_true, if_neg Bool.false_ne_true, if_neg (hkept rfl)]
      exact Decoder.reads_pure number
  | true =>
      rw [if_pos rfl, if_pos rfl, if_pos rfl]
      exact Decoder.reads_unsigned (by simp only [Nat.pow_eq]; omega)

/-- A header with numbers of which any may be moved, and its extra fields but for that of the moved
numbers. -/
structure WideHeader where
  /-- The header with its numbers in their places. -/
  header : CentralHeader
  others : List ExtraField
  movesLength : Bool
  movesCompressedLength : Bool
  movesOffset : Bool

namespace WideHeader

variable (item : WideHeader)

def plain : CentralHeader := { item.header with extra := item.others.flatMap ExtraField.bytes }

/-- Some number is moved. -/
def Moves : Prop :=
  item.movesLength = true ∨ item.movesCompressedLength = true ∨ item.movesOffset = true

instance : Decidable item.Moves := inferInstanceAs (Decidable (_ ∨ _ ∨ _))

def wideField : ExtraField where
  tag := wideFieldTag
  content := wideForm item.movesLength item.header.length ++
    (wideForm item.movesCompressedLength item.header.compressedLength ++
      wideForm item.movesOffset item.header.offset)

def wide : CentralHeader where
  versions := item.header.versions
  method := item.header.method
  stamp := item.header.stamp
  compressedLength := marked item.movesCompressedLength item.header.compressedLength
  length := marked item.movesLength item.header.length
  attributes := item.header.attributes
  offset := marked item.movesOffset item.header.offset
  name := item.header.name
  extra := item.others.flatMap ExtraField.bytes ++
    if item.Moves then item.wideField.bytes else []
  remark := item.header.remark

/-- The parts of the header have room in both forms, and where a number is moved none of those that
stay is saturated of itself. -/
structure Fits : Prop where
  plain : item.plain.HasRoom
  others : ∀ field ∈ item.others, field.IsOther
  extra : item.wide.extra.length < 65536
  length : item.Moves → item.movesLength = false → item.header.length ≠ saturated 4
  compressedLength : item.Moves → item.movesCompressedLength = false →
    item.header.compressedLength ≠ saturated 4
  offset : item.Moves → item.movesOffset = false → item.header.offset ≠ saturated 4

instance : Decidable item.Fits :=
  decidable_of_iff
    (item.plain.HasRoom ∧ (∀ field ∈ item.others, field.IsOther) ∧
      item.wide.extra.length < 65536 ∧
      (item.Moves → item.movesLength = false → item.header.length ≠ saturated 4) ∧
      (item.Moves → item.movesCompressedLength = false →
        item.header.compressedLength ≠ saturated 4) ∧
      (item.Moves → item.movesOffset = false → item.header.offset ≠ saturated 4))
    ⟨fun ⟨plain, others, extra, length, compressedLength, offset⟩ =>
        ⟨plain, others, extra, length, compressedLength, offset⟩,
      fun ⟨plain, others, extra, length, compressedLength, offset⟩ =>
        ⟨plain, others, extra, length, compressedLength, offset⟩⟩

variable {item}

theorem marked_lt {moved : Bool} {number : Nat} (h : number < 2 ^ 32) :
    marked moved number < 2 ^ 32 := by
  unfold marked
  split
  · decide
  · exact h

theorem Fits.wide (h : item.Fits) : item.wide.HasRoom where
  versions := h.plain.versions
  method := h.plain.method
  stamp := h.plain.stamp
  compressedLength := marked_lt h.plain.compressedLength
  length := marked_lt h.plain.length
  attributes := h.plain.attributes
  offset := marked_lt h.plain.offset
  name := h.plain.name
  extra := h.extra
  remark := h.plain.remark

theorem length_others_le (others : List ExtraField) :
    others.length ≤ (others.flatMap ExtraField.bytes).length := by
  induction others with
  | nil => exact Nat.le_refl 0
  | cons field rest ih =>
      have hfour := field.four_le_length
      rw [List.flatMap_cons, List.length_append, List.length_cons]
      omega

/-- Without wide numbers the extra fields change nothing. -/
theorem Fits.parse_plain (h : item.Fits) :
    (applyExtra item.plain.extent item.plain.extra.toArray.size).parse item.plain.extra.toArray =
      .ok item.plain.extent := by
  have hle := length_others_le item.others
  obtain ⟨fuel, hfuel⟩ := Nat.exists_eq_add_of_le hle
  have hrun := run_applyExtra_others item.plain.extent h.others fuel [] []
  rw [List.append_nil, run_applyExtra_end, ← hfuel] at hrun
  exact Decoder.parse_of_run ⟨_, hrun⟩

theorem Fits.reads_widenExtent (h : item.Fits) (hmoves : item.Moves) :
    Decoder.Reads (widenExtent item.wide.extent) item.wideField.content item.plain.extent := by
  refine Decoder.reads_bind (reads_widen h.plain.length (h.length hmoves)) ?_
  refine Decoder.reads_bind
    (reads_widen h.plain.compressedLength (h.compressedLength hmoves)) ?_
  exact Decoder.reads_map _ (reads_widen h.plain.offset (h.offset hmoves))

theorem wide_eq_plain (h : ¬ item.Moves) : item.wide = item.plain := by
  have hfalse : item.movesLength = false ∧ item.movesCompressedLength = false ∧
      item.movesOffset = false := by
    simpa only [Moves, not_or, Bool.not_eq_true] using h
  unfold wide
  rw [if_neg h, hfalse.1, hfalse.2.1, hfalse.2.2, List.append_nil]
  rfl

/-- The wide numbers behind the other fields are the numbers of the plain header. -/
theorem Fits.parse_wide (h : item.Fits) :
    (applyExtra item.wide.extent item.wide.extra.toArray.size).parse item.wide.extra.toArray =
      .ok item.plain.extent := by
  by_cases hmoves : item.Moves
  · have hextra : item.wide.extra = item.others.flatMap ExtraField.bytes ++
        (item.wideField.bytes ++ []) := by
      rw [List.append_nil]
      exact congrArg (item.others.flatMap ExtraField.bytes ++ ·) (if_pos hmoves)
    obtain ⟨fuel, hfuel⟩ : ∃ fuel, item.wide.extra.length = item.others.length + (fuel + 1) := by
      have hle := length_others_le item.others
      have hfour := item.wideField.four_le_length
      refine ⟨item.wide.extra.length - item.others.length - 1, ?_⟩
      rw [hextra]
      simp only [List.length_append, List.length_nil]
      omega
    have hcontent : item.wideField.content.length < 65536 := by
      have hlt := h.extra
      rw [hextra] at hlt
      simp only [ExtraField.bytes, List.length_append] at hlt
      omega
    have hnumbers := Decoder.parse_of_reads (h.reads_widenExtent hmoves) []
    rw [List.append_nil] at hnumbers
    have hrun := run_applyExtra_others item.wide.extent h.others (fuel + 1) []
      (item.wideField.bytes ++ [])
    have htag : item.wideField.tag = wideFieldTag := rfl
    rw [← hfuel, ← hextra, run_applyExtra_field _ _ (htag ▸ by decide) hcontent, if_pos htag,
      hnumbers] at hrun
    exact Decoder.parse_of_run ⟨_, hrun⟩
  · rw [wide_eq_plain hmoves]
    exact h.parse_plain

theorem Fits.reads_plain (h : item.Fits) :
    Decoder.Reads entry item.plain.bytes item.plain.listed := by
  rw [← CentralHeader.listedAs_extent]
  exact h.plain.reads h.parse_plain

/-- With its numbers moved a header is read as the plain one. -/
theorem Fits.reads_wide (h : item.Fits) :
    Decoder.Reads entry item.wide.bytes item.plain.listed := by
  rw [← CentralHeader.listedAs_extent]
  exact h.wide.reads h.parse_wide

end WideHeader

/-!
## Archives with wide numbers
-/

/-- What stands between the signature of a wide end record and the number of headers: its own size,
versions and disks, and the number of headers on this disk. -/
def wideHead (count : Nat) (extension : List UInt8) : List UInt8 :=
  ofLittleEndian 8 (44 + extension.length) ++ ofLittleEndian 2 45 ++ ofLittleEndian 2 45 ++
    List.replicate 8 0 ++ ofLittleEndian 8 count

def wideEndRecord (count size offset : Nat) (extension : List UInt8) : List UInt8 :=
  ofLittleEndian 4 wideEndSignature ++ wideHead count extension ++ ofLittleEndian 8 count ++
    ofLittleEndian 8 size ++ ofLittleEndian 8 offset ++ extension

/-- What stands in front of the end record and says where the wide one begins. -/
def wideLocator (place : Nat) : List UInt8 :=
  ofLittleEndian 4 wideLocatorSignature ++ List.replicate 4 0 ++ ofLittleEndian 8 place ++
    ofLittleEndian 4 1

/-- An archive with wide numbers. -/
structure WideArchive where
  front : List UInt8
  items : List WideHeader
  closing : List UInt8
  extension : List UInt8
  /-- The numbers of the end record itself. -/
  count : Nat
  size : Nat
  offset : Nat
  comment : List UInt8

namespace WideArchive

variable (archive : WideArchive)

/-- The archive with its numbers in their places. -/
def plain : DirectoryArchive where
  front := archive.front
  headers := archive.items.map WideHeader.plain
  closing := archive.closing

def directoryBytes : List UInt8 :=
  archive.items.flatMap (fun item => item.wide.bytes) ++ archive.closing

/-- Where the wide end record begins. -/
def widePlace : Nat := (archive.front ++ archive.directoryBytes).length

/-- All that stands in front of the end record. -/
def body : List UInt8 :=
  archive.front ++ archive.directoryBytes ++
    wideEndRecord archive.items.length archive.directoryBytes.length archive.front.length
      archive.extension ++ wideLocator archive.widePlace

def bytes : List UInt8 :=
  archive.body ++
    commentedEndRecord archive.count archive.size archive.offset archive.comment

/-- The numbers of an archive have room in its wide records, and the end record asks for them. -/
structure Fits : Prop where
  items : ∀ item ∈ archive.items, item.Fits
  asks : archive.count = saturated 2 ∨ archive.offset = saturated 4
  count : archive.count < 65536
  offset : archive.offset < 2 ^ 32
  wideCount : archive.items.length < 2 ^ 64
  widePlace : archive.widePlace < 2 ^ 64

end WideArchive

theorem length_wideLocator (place : Nat) : (wideLocator place).length = wideLocatorSize := by
  simp only [wideLocator, List.length_append, Bytes.ofLittleEndian_length, List.length_replicate,
    wideLocatorSize]

/-- A cursor moves from any place between two parts of the data to any other. -/
theorem run_seek_between {front back after : List UInt8} {place : Nat} (before : List UInt8)
    (hdata : front ++ back = before ++ after) (hplace : place = before.length) :
    (Decoder.seek place).run (.between front back) = .ok () (.between before after) :=
  Decoder.run_seek hdata hplace

/-- The wide record is found through its locator, wherever the cursor is. -/
theorem run_wideDirectory {before extension front back after : List UInt8}
    {count size offset place : Nat}
    (hdata : front ++ back = before ++ wideEndRecord count size offset extension ++
      (wideLocator before.length ++ after))
    (hplace : place =
      (before ++ wideEndRecord count size offset extension).length + wideLocatorSize)
    (hcount : count < 2 ^ 64) (hoffset : offset < 2 ^ 64) (hbefore : before.length < 2 ^ 64) :
    ∃ cursor, (wideDirectory place).run (.between front back) = .ok { count, offset } cursor := by
  have hlocator : place - wideLocatorSize =
      (before ++ wideEndRecord count size offset extension).length := by
    rw [hplace, Nat.add_sub_cancel]
  have hroom : ¬ place < wideLocatorSize := by
    rw [hplace]
    exact Nat.not_lt.mpr (Nat.le_add_left _ _)
  unfold wideDirectory
  rw [if_neg hroom, Decoder.run_bind (run_seek_between _ hdata hlocator)]
  unfold wideLocator
  simp only [List.append_assoc]
  rw [Decoder.run_bind (Decoder.reads_unsigned (by decide) _ _), if_neg (by simp),
    Decoder.run_bind (Decoder.reads_advance_of_length List.length_replicate _ _),
    Decoder.run_bind (Decoder.reads_unsigned hbefore _ _)]
  simp only [List.append_assoc]
  rw [Decoder.run_bind (run_seek_between before (List.append_assoc ..) rfl)]
  unfold wideEndRecord
  simp only [List.append_assoc]
  have hhead : (wideHead count extension).length = 28 := by
    simp only [wideHead, List.length_append, Bytes.ofLittleEndian_length, List.length_replicate]
  rw [Decoder.run_bind (Decoder.reads_unsigned (by decide) _ _), if_neg (by simp),
    Decoder.run_bind (Decoder.reads_advance_of_length hhead _ _),
    Decoder.run_bind (Decoder.reads_unsigned hcount _ _),
    Decoder.run_bind (Decoder.reads_advance_of_length (Bytes.ofLittleEndian_length 8 size) _ _),
    Decoder.run_bind (Decoder.reads_unsigned hoffset _ _)]
  exact ⟨_, rfl⟩

/-- An end record whose number of headers, or whose offset, is saturated leaves both to the wide
one. -/
theorem run_directory_asks (before comment : List UInt8) (size : Nat) {count offset : Nat}
    (hcount : count < 65536) (hoffset : offset < 2 ^ 32)
    (hasks : count = saturated 2 ∨ offset = saturated 4) :
    ∃ front back, front ++ back = before ++ commentedEndRecord count size offset comment ∧
      (directory before.length).run
          (.between [] (before ++ commentedEndRecord count size offset comment)) =
        (wideDirectory before.length).run (.between front back) := by
  let head := ofLittleEndian 4 endSignature ++ (List.replicate 4 0 ++ ofLittleEndian 2 count)
  let numbers := ofLittleEndian 2 count ++ (ofLittleEndian 4 size ++ ofLittleEndian 4 offset)
  let rest := ofLittleEndian 2 comment.length ++ comment
  have hdata : before ++ commentedEndRecord count size offset comment =
      (before ++ head) ++ (numbers ++ rest) := by
    simp only [commentedEndRecord, head, numbers, rest, List.append_assoc]
  have hplace : before.length + 10 = (before ++ head).length := by
    simp only [head, List.length_append, Bytes.ofLittleEndian_length, List.length_replicate]
  refine ⟨before ++ head ++ numbers, rest, ?_, ?_⟩
  · rw [hdata, List.append_assoc (before ++ head)]
  · have hseek : (Decoder.seek (before.length + 10)).run
        (.between [] (before ++ commentedEndRecord count size offset comment)) =
          .ok () (.between (before ++ head) (numbers ++ rest)) :=
      run_seek_between _ hdata hplace
    unfold directory
    rw [Decoder.run_bind hseek]
    simp only [numbers, List.append_assoc]
    rw [Decoder.run_bind (Decoder.reads_unsigned hcount _ _),
      Decoder.run_bind (Decoder.reads_advance_of_length (Bytes.ofLittleEndian_length 4 size) _ _),
      Decoder.run_bind (Decoder.reads_unsigned hoffset _ _), if_pos hasks]
    simp only [List.append_assoc]

namespace WideArchive

variable {archive : WideArchive}

/-- The wide end record tells how many headers there are and where they begin. -/
theorem parse_directory_bytes (hfits : archive.Fits) :
    (directory archive.body.length).parse archive.bytes.toArray =
      .ok { count := archive.items.length, offset := archive.front.length } := by
  obtain ⟨front, back, hdata, hrun⟩ := run_directory_asks archive.body archive.comment
    archive.size hfits.count hfits.offset hfits.asks
  have hfront : archive.front.length < 2 ^ 64 := by
    have hplace := hfits.widePlace
    simp only [widePlace, List.length_append] at hplace
    omega
  have hbody : archive.body.length = (archive.front ++ archive.directoryBytes ++
      wideEndRecord archive.items.length archive.directoryBytes.length archive.front.length
        archive.extension).length + wideLocatorSize := by
    rw [body, List.length_append, length_wideLocator]
  have hparts : front ++ back = archive.front ++ archive.directoryBytes ++
      wideEndRecord archive.items.length archive.directoryBytes.length archive.front.length
        archive.extension ++ (wideLocator archive.widePlace ++
          commentedEndRecord archive.count archive.size archive.offset archive.comment) := by
    rw [hdata, body, List.append_assoc]
  obtain ⟨cursor, hwide⟩ :=
    run_wideDirectory hparts hbody hfits.wideCount hfront hfits.widePlace
  exact Decoder.parse_of_run ⟨cursor, hrun.trans hwide⟩

/-- By its own end record an archive lists what its headers stand for with the numbers in their
places. -/
theorem entriesBy_body (hfits : archive.Fits) :
    entriesBy archive.bytes.toArray archive.body.length = .ok archive.plain.listing := by
  have hbytes : archive.bytes = archive.front ++
      archive.items.flatMap (fun item => item.wide.bytes) ++ (archive.closing ++
        (wideEndRecord archive.items.length archive.directoryBytes.length archive.front.length
          archive.extension ++ (wideLocator archive.widePlace ++
            commentedEndRecord archive.count archive.size archive.offset archive.comment))) := by
    simp only [bytes, body, directoryBytes, List.append_assoc]
  have hheaders := Decoder.parse_seek archive.front (archive.closing ++
    (wideEndRecord archive.items.length archive.directoryBytes.length archive.front.length
      archive.extension ++ (wideLocator archive.widePlace ++
        commentedEndRecord archive.count archive.size archive.offset archive.comment))) rfl
    (CentralHeader.reads_repeated fun item hmem => (hfits.items item hmem).reads_wide)
  rw [← hbytes] at hheaders
  have hfound := entriesBy_eq (parse_directory_bytes hfits) hheaders
  rw [hfound]
  unfold DirectoryArchive.listing plain
  rw [List.filterMap_map, List.filterMap_map, Function.id_comp, Function.comp_def]

/-- The archive's own end record is the last one. -/
def EndsItself (archive : WideArchive) : Prop :=
  ∀ place, EndRecordAt archive.bytes.toArray place → place ≤ archive.body.length

theorem entries_bytes (hfits : archive.Fits) (hcomment : archive.comment.length ≤ maxComment)
    (hends : archive.EndsItself) :
    entries archive.bytes.toArray = .ok archive.plain.listing := by
  have hfind : findEndRecord archive.bytes.toArray = .ok archive.body.length :=
    (findEndRecord_append_iff _ _ hcomment).mpr hends
  rw [entries_of_findEndRecord hfind]
  exact entriesBy_body hfits

theorem endsItself_of_comment_nil (h : archive.comment = []) : archive.EndsItself := by
  have hfind : findEndRecord (archive.body ++
      commentedEndRecord archive.count archive.size archive.offset []).toArray =
        .ok archive.body.length := findEndRecord_append archive.body
  unfold EndsItself bytes
  rw [h]
  exact (findEndRecord_append_iff _ _ (Nat.zero_le _)).mp hfind

/-- Moving numbers changes nothing. An archive whose headers have any of their numbers in a field of
their own behind the other extra fields, and whose end record leaves the number of headers and the
place of the directory to a wide one, lists the same as the archive with all of these numbers in
their places, if they have room there. -/
theorem wide_numbers_change_nothing (archive : WideArchive) (hfits : archive.Fits)
    (hcount : archive.items.length < 65535) (hfront : archive.front.length < 2 ^ 32 - 1)
    (hcomment : archive.comment.length ≤ maxComment) (hends : archive.EndsItself)
    (hplain : ¬ archive.plain.Hides archive.comment) :
    entries archive.bytes.toArray = entries (archive.plain.bytes archive.comment).toArray ∧
      entries archive.bytes.toArray = .ok archive.plain.listing := by
  have hwide := entries_bytes hfits hcomment hends
  have hheaders : ∀ header ∈ archive.plain.headers,
      Decoder.Reads entry header.bytes header.listed := by
    intro header hmem
    obtain ⟨item, hitem, rfl⟩ := List.mem_map.mp hmem
    exact (hfits.items item hitem).reads_plain
  have hplainCount : archive.plain.headers.length < 65535 := by
    rw [plain, List.length_map]
    exact hcount
  have hlisting := DirectoryArchive.entriesBy_endPlace_of_reads hheaders hplainCount hfront
    archive.comment
  have hfind := (DirectoryArchive.findEndRecord_bytes_iff hcomment).mpr hplain
  rw [hwide, entries_of_findEndRecord hfind, hlisting]
  exact ⟨rfl, rfl⟩

/-- A file with its length and its offset moved behind another extra field, and a directory. -/
def letterWide : WideArchive where
  front := localRecord id ⟨"a.txt", #[0x61], false⟩
  items := [
    ⟨centralHeader id ⟨"a.txt", #[0x61], false⟩ 0, [⟨0x5455, [1, 2, 3]⟩], true, false, true⟩,
    ⟨centralHeader id ⟨"lib/", #[], false⟩ 0, [], false, false, false⟩]
  closing := []
  extension := [0x2A]
  count := 0xFFFF
  size := 0
  offset := 7
  comment := [0x50, 0x4B, 0x05]

theorem fits_letterWide : letterWide.Fits where
  items := by decide +kernel
  asks := .inl rfl
  count := by decide
  offset := by decide
  wideCount := by decide
  widePlace := by decide +kernel

theorem wide_numbers_change_nothing_letter :
    letterWide.Fits ∧ letterWide.items.length < 65535 ∧ letterWide.front.length < 2 ^ 32 - 1 ∧
      letterWide.comment.length ≤ maxComment ∧ letterWide.EndsItself ∧
      ¬ letterWide.plain.Hides letterWide.comment ∧
      letterWide.bytes ≠ letterWide.plain.bytes letterWide.comment ∧
      (entries letterWide.bytes.toArray).map (·.map ContainerEntry.path) = .ok ["a.txt"] ∧
      entries letterWide.bytes.toArray =
        entries (letterWide.plain.bytes letterWide.comment).toArray := by
  have hcount : letterWide.items.length < 65535 := by decide
  have hfront : letterWide.front.length < 2 ^ 32 - 1 := by decide +kernel
  have hcomment : letterWide.comment.length ≤ maxComment := by decide
  have hends : letterWide.EndsItself :=
    (findEndRecord_append_iff _ _ hcomment).mp (by decide +kernel)
  have hplain : ¬ letterWide.plain.Hides letterWide.comment :=
    (DirectoryArchive.findEndRecord_bytes_iff hcomment).mp (by decide +kernel)
  exact ⟨fits_letterWide, hcount, hfront, hcomment, hends, hplain, by decide +kernel,
    by decide +kernel, (wide_numbers_change_nothing letterWide fits_letterWide hcount hfront
      hcomment hends hplain).1⟩

/-!
## Numbers that are saturated of themselves
-/

/-- Where an end record asks for a wide one, what stands in front of it has to be a locator. -/
theorem entries_without_locator {before front word rest : List UInt8} {count size offset : Nat}
    (hcount : count < 65536) (hoffset : offset < 2 ^ 32)
    (hasks : count = saturated 2 ∨ offset = saturated 4)
    (hbefore : before = front ++ (word ++ rest)) (hword : word.length = 4)
    (hrest : rest.length = 16) (hnone : Bytes.littleEndian word ≠ wideLocatorSignature) :
    entries (before ++ commentedEndRecord count size offset []).toArray =
      .error (.malformed .zip64WithoutLocator) := by
  obtain ⟨ahead, back, hdata, hrun⟩ := run_directory_asks before [] size hcount hoffset hasks
  have hlength : before.length = front.length + wideLocatorSize := by
    rw [hbefore, List.length_append, List.length_append, hword, hrest]
    rfl
  have hroom : ¬ before.length < wideLocatorSize := by
    rw [hlength]
    exact Nat.not_lt.mpr (Nat.le_add_left _ _)
  have hplace : before.length - wideLocatorSize = front.length := by
    rw [hlength, Nat.add_sub_cancel]
  have hwide : ∃ cursor, (wideDirectory before.length).run (.between ahead back) =
      .error (.malformed .zip64WithoutLocator) cursor := by
    have hsplit : ahead ++ back =
        front ++ (word ++ (rest ++ commentedEndRecord count size offset [])) := by
      rw [hdata, hbefore]
      simp only [List.append_assoc]
    unfold wideDirectory
    rw [if_neg hroom, Decoder.run_bind (run_seek_between front hsplit hplace),
      Decoder.run_bind (reads_unsigned_of_length hword _ _), if_pos hnone]
    exact ⟨_, rfl⟩
  obtain ⟨cursor, hwide⟩ := hwide
  have hdirectory : (directory before.length).parse
      (before ++ commentedEndRecord count size offset []).toArray =
        .error (.malformed .zip64WithoutLocator) :=
    Decoder.parse_of_run_error ⟨cursor, hrun.trans hwide⟩
  rw [entries_of_findEndRecord (findEndRecord_append before)]
  unfold entriesBy
  rw [hdirectory]
  rfl

/-- A directory, of which an archive may hold many. -/
def folderItem : WideHeader := ⟨centralHeader id ⟨"/", #[], false⟩ 0, [], false, false, false⟩

/-- An archive of directories. -/
def folderArchive (count : Nat) : WideArchive where
  front := []
  items := List.replicate count folderItem
  closing := []
  extension := []
  count := 65535
  size := 0
  offset := 0
  comment := []

theorem fits_folderArchive {count : Nat} (h : count < 2 ^ 32) : (folderArchive count).Fits where
  items := by
    intro item hitem
    rw [List.eq_of_mem_replicate hitem]
    decide +kernel
  asks := .inl rfl
  count := by show (65535 : Nat) < 65536; decide
  offset := by show (0 : Nat) < 2 ^ 32; decide
  wideCount := by
    rw [folderArchive, List.length_replicate]
    omega
  widePlace := by
    have hitem : folderItem.wide.bytes.length = 47 := by decide +kernel
    simp only [widePlace, directoryBytes, folderArchive, List.length_append, List.length_flatMap,
      List.map_replicate, List.sum_replicate_nat, List.length_nil, hitem]
    omega

/-- Directories are not listed. -/
theorem entries_folderArchive {count : Nat} (h : count < 2 ^ 32) :
    entries (folderArchive count).bytes.toArray = .ok [] := by
  rw [entries_bytes (fits_folderArchive h) (Nat.zero_le _) (endsItself_of_comment_nil rfl)]
  unfold DirectoryArchive.listing plain folderArchive
  rw [List.map_replicate]
  refine congrArg Except.ok (List.filterMap_eq_nil_iff.mpr fun header hmem => ?_)
  rw [List.eq_of_mem_replicate hmem]
  decide +kernel

/-- As many directories as an end record can count stand for a wide number in the plain archive. -/
theorem entries_plain_folderArchive {count : Nat} (h : count = saturated 2) :
    entries ((folderArchive count).plain.bytes []).toArray =
      .error (.malformed .zip64WithoutLocator) := by
  obtain ⟨fewer, hfewer⟩ : ∃ fewer, count = fewer + 1 := ⟨count - 1, by rw [h]; decide⟩
  let header := folderItem.plain.bytes
  let front := (List.replicate fewer folderItem.plain).flatMap CentralHeader.bytes
  have hheader : header = header.take 27 ++ ((header.drop 27).take 4 ++ header.drop 31) := by
    decide +kernel
  have hbefore : (folderArchive count).plain.front ++ (folderArchive count).plain.directoryBytes =
      (front ++ header.take 27) ++ ((header.drop 27).take 4 ++ header.drop 31) := by
    rw [List.append_assoc, ← hheader]
    unfold DirectoryArchive.directoryBytes plain folderArchive
    simp only [hfewer, List.replicate_succ', List.map_append, List.map_replicate, List.map_cons,
      List.map_nil, List.flatMap_append, List.flatMap_cons, List.flatMap_nil, List.append_nil,
      List.nil_append, front, header]
  have hheaders : (folderArchive count).plain.headers.length = saturated 2 := by
    rw [plain, folderArchive, List.length_map, List.length_replicate, h]
  have hword : Bytes.littleEndian ((header.drop 27).take 4) ≠ wideLocatorSignature := by
    decide +kernel
  unfold DirectoryArchive.bytes
  rw [hheaders]
  exact entries_without_locator (by decide) (Nat.two_pow_pos 32) (.inl rfl) hbefore
    (by decide +kernel) (by decide +kernel) hword

/-- A file of which the length is moved, and the compressed length is saturated of itself. -/
def keptArchive : WideArchive where
  front := localRecord id ⟨"a.txt", #[0x61], false⟩
  items := [⟨{ centralHeader id ⟨"a.txt", #[0x61], false⟩ 0 with compressedLength := 0xFFFFFFFF },
    [], true, false, false⟩]
  closing := []
  extension := []
  count := 65535
  size := 0
  offset := 0
  comment := []

/-- The reader looks for a wide number wherever one is saturated, also of itself: the plain archive
of 65535 directories is damaged, and so is the archive in which one number of a file is moved and
another one is saturated in its place. -/
theorem saturated_numbers_ask :
    (entries ((folderArchive 65535).plain.bytes []).toArray =
        .error (.malformed .zip64WithoutLocator) ∧
      entries (folderArchive 65535).bytes.toArray = .ok []) ∧
    (entries (keptArchive.plain.bytes []).toArray).map (·.map ContainerEntry.path) =
        .ok ["a.txt"] ∧
      entries keptArchive.bytes.toArray = .error .outOfBounds :=
  ⟨⟨entries_plain_folderArchive (by decide), entries_folderArchive (by decide)⟩,
    by decide +kernel, by decide +kernel⟩

end WideArchive
end Zip
end AssemblyBrowser
