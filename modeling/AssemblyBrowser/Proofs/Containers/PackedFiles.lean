import AssemblyBrowser.Container.Zip
import AssemblyBrowser.Proofs.Codec.Reads
import AssemblyBrowser.Proofs.Files.PathTexts

/-!
# Files as they are packed

What a container stores for a file, and the entry that a reader lists for it.
A compressor is any function; all that is asked of it is that inflation brings
the contents of the files back.
-/

namespace AssemblyBrowser

/-- A name is what follows the last slash of a path, or all of a path without a slash. -/
def Path.IsLastSegment (path name : String) : Prop :=
  '/' ∉ name.toList ∧ (path = name ∨ ∃ above, path = above ++ "/" ++ name)

theorem Path.lastSegment_spec (path : String) : IsLastSegment path (lastSegment path) := by
  have hplain {chars : List Char} (h : '/' ∉ chars) : ∀ c ∈ chars, (c == '/') = false :=
    fun c hc => beq_eq_false_iff_ne.mpr fun heq => h (heq ▸ hc)
  unfold lastSegment split
  by_cases hslash : '/' ∈ path.toList
  · -- The last slash is the first one of the reversed path.
    rcases List.eq_append_cons_of_mem (List.mem_reverse.mpr hslash) with
      ⟨name, above, hreverse, hname⟩
    have hsplit : path.toList = above.reverse ++ '/' :: name.reverse := by
      rw [← List.reverse_reverse path.toList, hreverse]
      simp
    have hlast : '/' ∉ name.reverse := by rwa [List.mem_reverse]
    rw [hsplit, splitChars_append (by rfl), splitChars_of_forall (hplain hlast), List.map_append,
      List.map_singleton, List.getLast?_concat, Option.getD_some]
    refine ⟨by rwa [String.toList_ofList], .inr ⟨String.ofList above.reverse, ?_⟩⟩
    rw [← String.toList_inj, hsplit]
    simp
  · rw [splitChars_of_forall (hplain hslash), List.map_singleton, List.getLast?_singleton,
      Option.getD_some, String.ofList_toList]
    exact ⟨hslash, .inl rfl⟩

/-- A file as it is handed to a writer of containers. -/
structure PackedFile where
  path : String
  contents : Bytes
  /-- Whether the contents are compressed. -/
  deflated : Bool

namespace PackedFile

variable (deflate : Bytes → Bytes)

/-- The bytes of the path as the file is named by. -/
def nameBytes (file : PackedFile) : List UInt8 := (Utf8.encode file.path).toList

/-- What is stored for the contents. -/
def stored (file : PackedFile) : Bytes :=
  if file.deflated then deflate file.contents else file.contents

def compression (file : PackedFile) : Compression := if file.deflated then .deflate else .stored

/-- Inflation undoes the compression of the file. -/
def IsRestored (file : PackedFile) : Prop :=
  file.deflated = true → Deflate.inflate? (deflate file.contents) = some file.contents

/-- The entry of a file that is stored at an offset. -/
structure ShowsAs (file : PackedFile) (offset : Nat) (kind : EntryKind)
    (entry : ContainerEntry) : Prop where
  path : entry.path = ContainerEntry.slashed file.path
  name : Path.IsLastSegment entry.path entry.name
  length : entry.length = some file.contents.size
  compressedLength : entry.compressedLength = (file.stored deflate).size
  offset : entry.offset = offset
  compression : entry.compression = file.compression
  kind : entry.kind = kind

/-- The entry of a file, with its parts written out. -/
def entryAt (file : PackedFile) (offset : Nat) (kind : EntryKind) : ContainerEntry where
  name := Path.lastSegment (ContainerEntry.slashed file.path)
  path := ContainerEntry.slashed file.path
  length := some file.contents.size
  compressedLength := (file.stored deflate).size
  offset := offset
  compression := file.compression
  kind := kind

variable {deflate}

theorem showsAs_entryAt (file : PackedFile) (offset : Nat) (kind : EntryKind) :
    file.ShowsAs deflate offset kind (file.entryAt deflate offset kind) := by
  constructor
  case name =>
    dsimp only [entryAt]
    exact Path.lastSegment_spec _
  all_goals rfl

/-- What is stored for a file gives its contents again. -/
theorem decompress_stored {file : PackedFile} (h : file.IsRestored deflate) :
    Zip.decompress file.compression (file.stored deflate) = .ok file.contents := by
  unfold compression stored
  cases hdeflated : file.deflated with
  | false => rfl
  | true =>
      simp only [if_true, Zip.decompress]
      rw [h hdeflated]

theorem decodeLossy_nameBytes (file : PackedFile) :
    Utf8.decodeLossy file.nameBytes.toArray = file.path := by
  unfold Utf8.decodeLossy nameBytes
  rw [Array.toArray_toList, Utf8.decodeLossyFrom, Utf8.decode_encode]

/-- A compressor that is right about twelve letters, which it stores in five bytes. -/
def deflateLetters (_ : Bytes) : Bytes := #[0x4B, 0x4C, 0x44, 0x00, 0x00]

end PackedFile
end AssemblyBrowser
