import Mathlib.Data.Nat.Find
import AssemblyBrowser.Proofs.Containers.ZipArchives

/-!
# Comments of zip archives

The end record of an archive may carry a comment, and the reader looks for the
record backwards through it, with an eye on the signature only: not on whether the
comment of the record that it finds reaches to the end. So a comment changes
nothing as long as it makes no other end record begin behind the archive's own.
Otherwise the last such record decides what is listed, and for every archive there
is a comment with which nothing is.
-/

namespace AssemblyBrowser
namespace Zip

open Bytes (ofLittleEndian)

/-- An archive but for the comment of its end record. -/
structure DirectoryArchive where
  /-- The bytes in front of the central directory: the files and whatever stands between them. -/
  front : List UInt8
  headers : List CentralHeader
  /-- What the central directory ends with behind its headers, such as a signature. -/
  closing : List UInt8

namespace DirectoryArchive

variable (archive : DirectoryArchive)

def directoryBytes : List UInt8 := archive.headers.flatMap CentralHeader.bytes ++ archive.closing

/-- Where the end record begins. -/
def endPlace : Nat := (archive.front ++ archive.directoryBytes).length

def bytes (comment : List UInt8) : List UInt8 :=
  archive.front ++ archive.directoryBytes ++
    commentedEndRecord archive.headers.length archive.directoryBytes.length archive.front.length
      comment

/-- The numbers of an archive have room in its records, and no wider ones are asked for. -/
structure Fits : Prop where
  headers : ∀ header ∈ archive.headers, header.Fits
  count : archive.headers.length < 65535
  front : archive.front.length < 2 ^ 32 - 1

/-- The entries that the headers stand for, in their order. -/
def listing : List ContainerEntry := archive.headers.filterMap CentralHeader.listed

/-- With the comment, another end record can begin behind the beginning of the archive's own. -/
def Hides (comment : List UInt8) : Prop :=
  ∃ place, archive.endPlace < place ∧ EndRecordAt (archive.bytes comment).toArray place

variable {archive}

/-!
## What an archive lists by itself
-/

/-- By its own end record an archive lists its entries, whatever the comment, if its headers are
read as they stand. -/
theorem entriesBy_endPlace_of_reads
    (hreads : ∀ header ∈ archive.headers, Decoder.Reads entry header.bytes header.listed)
    (hcount : archive.headers.length < 65535) (hfront : archive.front.length < 2 ^ 32 - 1)
    (comment : List UInt8) :
    entriesBy (archive.bytes comment).toArray archive.endPlace = .ok archive.listing := by
  have hbytes : archive.bytes comment = archive.front ++
      archive.headers.flatMap CentralHeader.bytes ++ (archive.closing ++
        commentedEndRecord archive.headers.length archive.directoryBytes.length
          archive.front.length comment) := by
    simp only [bytes, directoryBytes, List.append_assoc]
  have hheaders := Decoder.parse_seek archive.front (archive.closing ++
    commentedEndRecord archive.headers.length archive.directoryBytes.length archive.front.length
      comment) rfl (CentralHeader.reads_repeated hreads)
  rw [← hbytes] at hheaders
  have hfound := entriesBy_eq (parse_directory _ comment hcount hfront) hheaders
  rwa [List.filterMap_map, Function.id_comp] at hfound

theorem entriesBy_endPlace (hfits : archive.Fits) (comment : List UInt8) :
    entriesBy (archive.bytes comment).toArray archive.endPlace = .ok archive.listing :=
  entriesBy_endPlace_of_reads (fun header hmem => (hfits.headers header hmem).reads) hfits.count
    hfits.front comment

theorem findEndRecord_bytes_iff {comment : List UInt8} (hcomment : comment.length ≤ maxComment) :
    findEndRecord (archive.bytes comment).toArray = .ok archive.endPlace ↔
      ¬ archive.Hides comment := by
  unfold bytes endPlace
  rw [findEndRecord_append_iff _ _ hcomment]
  constructor
  · rintro hlast ⟨place, hbehind, hrecord⟩
    exact absurd (hlast place hrecord) (Nat.not_le.mpr hbehind)
  · intro hnone place hrecord
    by_contra hbehind
    exact hnone ⟨place, Nat.not_le.mp hbehind, hrecord⟩

/-- A comment that makes no other end record begin leaves the listing as it is. -/
theorem entries_of_not_hides (hfits : archive.Fits) {comment : List UInt8}
    (hcomment : comment.length ≤ maxComment) (h : ¬ archive.Hides comment) :
    entries (archive.bytes comment).toArray = .ok archive.listing := by
  rw [entries_of_findEndRecord ((findEndRecord_bytes_iff hcomment).mpr h)]
  exact entriesBy_endPlace hfits comment

theorem not_hides_nil : ¬ archive.Hides [] :=
  (findEndRecord_bytes_iff (Nat.zero_le _)).mp (findEndRecord_append _)

/-!
## Comments that hold an end record
-/

/-- What is listed is what the last end record says, also if it stands in a comment. -/
theorem entries_of_last {comment : List UInt8} (hcomment : comment.length ≤ maxComment)
    {place : Nat} (hplace : archive.endPlace < place)
    (hlast : LastEndRecordAt (archive.bytes comment).toArray place) :
    entries (archive.bytes comment).toArray = entriesBy (archive.bytes comment).toArray place := by
  refine entries_of_findEndRecord (findEndRecord_eq_ok.mpr ⟨hlast, ?_⟩)
  unfold bytes endPlace at *
  rw [size_append_endRecord]
  omega

/-- If there is an end record behind the archive's own, there is a last one. -/
theorem Hides.exists_last {comment : List UInt8} (h : archive.Hides comment) :
    ∃ place, archive.endPlace < place ∧
      LastEndRecordAt (archive.bytes comment).toArray place := by
  rcases h with ⟨first, hfirst, hrecord⟩
  obtain ⟨place, hplace, hmax⟩ :
      ∃ place, EndRecordAt (archive.bytes comment).toArray place ∧
        ∀ other, EndRecordAt (archive.bytes comment).toArray other → other ≤ place := by
    classical
    have hbound : ∀ other, EndRecordAt (archive.bytes comment).toArray other →
        other ≤ (archive.bytes comment).toArray.size := by
      intro other hother
      have hroom := hother.room
      omega
    exact ⟨Nat.findGreatest (EndRecordAt (archive.bytes comment).toArray)
        (archive.bytes comment).toArray.size,
      Nat.findGreatest_spec (hbound first hrecord) hrecord,
      fun other hother => Nat.le_findGreatest (hbound other hother) hother⟩
  exact ⟨place, Nat.lt_of_lt_of_le hfirst (hmax first hrecord), hplace, hmax⟩

/-- The comment that is the end record of an empty archive. -/
def emptyEnd : List UInt8 := commentedEndRecord 0 0 0 []

/-- With such a comment nothing is listed, whatever is in the archive. -/
theorem entries_emptyEnd : entries (archive.bytes emptyEnd).toArray = .ok [] := by
  obtain ⟨before, hbytes⟩ : ∃ before, archive.bytes emptyEnd = before ++ emptyEnd := by
    obtain ⟨record, hrecord⟩ : ∃ record, commentedEndRecord archive.headers.length
        archive.directoryBytes.length archive.front.length emptyEnd = record ++ emptyEnd := ⟨_, rfl⟩
    refine ⟨archive.front ++ archive.directoryBytes ++ record, ?_⟩
    rw [bytes, hrecord, List.append_assoc _ record]
  have hnothing : (do
      Decoder.seek 0
      Decoder.repeated entry 0).parse (before ++ emptyEnd).toArray = .ok [] :=
    Decoder.parse_seek [] (before ++ emptyEnd) rfl (Decoder.reads_pure [])
  rw [hbytes]
  unfold emptyEnd at hnothing ⊢
  rw [entries_of_findEndRecord (findEndRecord_append before)]
  exact entriesBy_eq (parse_directory before [] (by decide) (by decide)) hnothing

/-!
## Listings with and without a comment
-/

/-- When a comment leaves the listing of an archive as it is: exactly if the last end record that it
makes begin behind the archive's own, if there is any, lists the same. Two comments that make none
begin give the same listing, and with the end record of an empty archive for a comment nothing is
listed. -/
theorem comment_keeps_listing_iff (archive : DirectoryArchive) (hfits : archive.Fits) :
    entries (archive.bytes []).toArray = .ok archive.listing ∧
      (∀ comment, comment.length ≤ maxComment →
        (entries (archive.bytes comment).toArray = entries (archive.bytes []).toArray ↔
          ∀ place, archive.endPlace < place →
            LastEndRecordAt (archive.bytes comment).toArray place →
              entriesBy (archive.bytes comment).toArray place = .ok archive.listing)) ∧
      (∀ first second, first.length ≤ maxComment → second.length ≤ maxComment →
        ¬ archive.Hides first → ¬ archive.Hides second →
          entries (archive.bytes first).toArray = entries (archive.bytes second).toArray) ∧
      entries (archive.bytes emptyEnd).toArray = .ok [] := by
  have hown : entries (archive.bytes []).toArray = .ok archive.listing :=
    entries_of_not_hides hfits (Nat.zero_le _) not_hides_nil
  refine ⟨hown, ?_, ?_, entries_emptyEnd⟩
  · intro comment hcomment
    rw [hown]
    constructor
    · intro hsame place hbehind hlast
      rw [← entries_of_last hcomment hbehind hlast]
      exact hsame
    · intro hlast
      by_cases hhides : archive.Hides comment
      · rcases hhides.exists_last with ⟨place, hbehind, hplace⟩
        rw [entries_of_last hcomment hbehind hplace]
        exact hlast place hbehind hplace
      · exact entries_of_not_hides hfits hcomment hhides
  · intro first second hfirst hsecond hno hnone
    rw [entries_of_not_hides hfits hfirst hno, entries_of_not_hides hfits hsecond hnone]

/-- An archive of one stored file. -/
def letterArchive : DirectoryArchive where
  front := localRecord id ⟨"a.txt", #[0x61], false⟩
  headers := [centralHeader id ⟨"a.txt", #[0x61], false⟩ 0]
  closing := []

theorem fits_letterArchive : letterArchive.Fits where
  headers := by
    intro header hheader
    rw [List.mem_singleton.mp hheader]
    constructor <;> first | decide +kernel | exact .inl rfl
  count := by decide +kernel
  front := by decide +kernel

theorem comment_keeps_listing_iff_letter :
    letterArchive.Fits ∧ ¬ letterArchive.Hides [0x50, 0x4B, 0x05] ∧
      entries (letterArchive.bytes [0x50, 0x4B, 0x05]).toArray =
        entries (letterArchive.bytes []).toArray := by
  have hshort : ¬ letterArchive.Hides [0x50, 0x4B, 0x05] :=
    (findEndRecord_bytes_iff (by decide)).mp (by decide +kernel)
  exact ⟨fits_letterArchive, hshort, (comment_keeps_listing_iff letterArchive
    fits_letterArchive).2.2.1 _ _ (by decide) (by decide) hshort not_hides_nil⟩

/-- With the end record of an empty archive for a comment the file is not listed any more. -/
theorem comment_hides_file :
    letterArchive.Fits ∧ emptyEnd.length ≤ maxComment ∧
      (entries (letterArchive.bytes []).toArray).map (·.map ContainerEntry.path) = .ok ["a.txt"] ∧
      entries (letterArchive.bytes emptyEnd).toArray = .ok [] ∧
      entries (letterArchive.bytes emptyEnd).toArray ≠
        entries (letterArchive.bytes []).toArray := by
  refine ⟨fits_letterArchive, by decide, by decide +kernel, entries_emptyEnd, ?_⟩
  rw [entries_emptyEnd]
  decide +kernel

end DirectoryArchive
end Zip
end AssemblyBrowser
