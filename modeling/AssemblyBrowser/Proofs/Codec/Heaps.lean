import Mathlib.Algebra.Ring.Nat
import AssemblyBrowser.Bytes.TextField
import AssemblyBrowser.Metadata.Heap
import AssemblyBrowser.Proofs.Codec.Numbers
import AssemblyBrowser.Proofs.Codec.SevenBitNumbers
import AssemblyBrowser.Proofs.Outcomes

/-!
# Heaps are read back

A text stands behind its length or in front of a zero byte. A text in front of a
zero byte must not have one itself, which only the zero character has.

A writer puts texts and blobs into a heap one after another and keeps the index
at which each begins. A text ends in a zero byte, so it must not hold one; a
blob stands behind its length. What is put behind them later does not matter.
-/

namespace AssemblyBrowser

open Decoder

/-!
## Texts without zero bytes
-/

namespace Utf8

theorem toList_encode (text : String) :
    (encode text).toList = text.toList.flatMap String.utf8EncodeChar := by
  unfold encode String.toUTF8
  rw [← String.utf8Encode_toList, List.utf8Encode, List.toList_data_toByteArray]

theorem zero_not_mem_utf8EncodeChar {c : Char} (h : c ≠ '\x00') :
    0 ∉ String.utf8EncodeChar c := by
  have hpositive : c.val.toNat ≠ 0 := fun hzero => h (Char.ext (UInt32.toNat_inj.mp hzero))
  unfold String.utf8EncodeChar
  dsimp only
  split_ifs <;>
    simp only [List.mem_cons, List.not_mem_nil, or_false, not_or, ← UInt8.toNat_inj,
      UInt8.toNat_ofNat', UInt8.toNat_zero] <;>
    omega

theorem zero_not_mem_encode {text : String} (h : '\x00' ∉ text.toList) :
    0 ∉ (encode text).toList := by
  rw [toList_encode]
  intro hmem
  obtain ⟨c, hc, hzero⟩ := List.mem_flatMap.mp hmem
  exact zero_not_mem_utf8EncodeChar (fun heq => h (heq ▸ hc)) hzero

end Utf8

/-- The first zero byte is the one behind bytes that are not zero. -/
theorem Bytes.findIdx?_zero {bytes : List UInt8} (h : 0 ∉ bytes) (after : List UInt8) :
    (bytes ++ 0 :: after).toArray.findIdx? (· == 0) = some bytes.length := by
  have hnone : bytes.findIdx? (· == 0) = none := by
    refine List.findIdx?_eq_none_iff.mpr fun byte hmem => beq_eq_false_iff_ne.mpr ?_
    rintro rfl
    exact h hmem
  rw [List.findIdx?_toArray, List.findIdx?_append, hnone, List.findIdx?_cons,
    if_pos (beq_self_eq_true (0 : UInt8)), Option.map_some, Option.none_or, Nat.zero_add]

/-!
## Texts behind their lengths
-/

namespace TextField

/-- A text is read back behind its length. -/
theorem reads_sevenBitPrefixed {text : String} (h : (Utf8.encode text).size < UInt32.size) :
    Reads sevenBitPrefixed (encodeSevenBitPrefixed text) text := by
  unfold sevenBitPrefixed encodeSevenBitPrefixed
  refine reads_bind (SevenBitNumber.reads_encode h) ?_
  refine reads_position_bind fun start => ?_
  refine reads_bind_last (reads_take_of_length Array.length_toList) ?_
  rw [Array.toArray_toList, Utf8.decode_encode]
  exact reads_pure text

/-- A text is read up to a zero byte, and the cursor goes behind it. -/
theorem run_terminated {text : String} (hplain : '\x00' ∉ text.toList) (before after : List UInt8)
    (hroom : (before ++ (Utf8.encode text).toList ++ 0 :: after).length < Bounded.positions) :
    terminated.run (.between before ((Utf8.encode text).toList ++ 0 :: after)) =
      .ok text (.between (before ++ (Utf8.encode text).toList ++ [0]) after) := by
  have hlength : before.length + (Utf8.encode text).toList.length + 1 < Bounded.positions := by
    simp only [List.length_append, List.length_cons] at hroom
    omega
  have hstop : endOfText (.between before ((Utf8.encode text).toList ++ 0 :: after)) =
      .ok (before.length + (Utf8.encode text).toList.length) := by
    unfold endOfText
    rw [Cursor.between, Bounded.range_rest, Outcome.ok_bind,
      Bytes.findIdx?_zero (Utf8.zero_not_mem_encode hplain)]
    exact Bounded.add_eq_ok (Nat.lt_of_succ_lt hlength)
  have htext := Bounded.range_middle before (Utf8.encode text).toList (0 :: after)
  rw [Array.toArray_toList] at htext
  unfold terminated
  rw [run_get, run_bind (run_ofExcept hstop _),
    run_bind (run_ofExcept (Bounded.add_eq_ok hlength) _), run_set, Cursor.between_append,
    run_bind (run_ofExcept htext _), Utf8.decode_encode]
  have hmin : min (before.length + (Utf8.encode text).toList.length + 1)
      (before ++ (Utf8.encode text).toList ++ 0 :: after).toArray.size =
        (before ++ (Utf8.encode text).toList ++ [0]).length := by
    simp only [List.size_toArray, List.length_append, List.length_cons, List.length_nil]
    omega
  dsimp only
  rw [hmin, Cursor.between, List.append_assoc (before ++ (Utf8.encode text).toList) [0] after]
  rfl

end TextField
end AssemblyBrowser

/-!
## Items of heaps
-/

namespace AssemblyBrowser

namespace Heap

/-- A text stands at an index of a heap of texts. -/
def TextAt (heap : List UInt8) (index : Nat) (text : String) : Prop :=
  ∃ before after, heap = before ++ (Utf8.encode text).toList ++ 0 :: after ∧
    before.length = index

/-- A blob stands behind its length at an index of a heap of blobs. -/
def BlobAt (heap : List UInt8) (index : Nat) (blob : List UInt8) : Prop :=
  blob.length < 0x20000000 ∧
    ∃ before after, heap = before ++ (CompressedNumber.encode blob.length ++ blob) ++ after ∧
      before.length = index

variable {heap : List UInt8} {index : Nat}

theorem TextAt.append {text : String} (h : TextAt heap index text) (rest : List UInt8) :
    TextAt (heap ++ rest) index text := by
  obtain ⟨before, after, rfl, hindex⟩ := h
  exact ⟨before, after ++ rest, by simp only [List.append_assoc, List.cons_append], hindex⟩

theorem BlobAt.append {blob : List UInt8} (h : BlobAt heap index blob) (rest : List UInt8) :
    BlobAt (heap ++ rest) index blob := by
  obtain ⟨hlength, before, after, rfl, hindex⟩ := h
  exact ⟨hlength, before, after ++ rest, by simp only [List.append_assoc], hindex⟩

/-- Bytes stand at an index if what is left of the heap there begins with them. -/
theorem exists_around_iff {part : List UInt8} :
    (∃ before after, heap = before ++ part ++ after ∧ before.length = index) ↔
      index ≤ heap.length ∧ part <+: heap.drop index := by
  constructor
  · rintro ⟨before, after, rfl, rfl⟩
    rw [List.append_assoc, List.drop_left, List.length_append]
    exact ⟨Nat.le_add_right _ _, List.prefix_append _ _⟩
  · rintro ⟨hle, after, hafter⟩
    refine ⟨heap.take index, after, ?_, List.length_take_of_le hle⟩
    rw [List.append_assoc, hafter, List.take_append_drop]

theorem textAt_iff {text : String} : TextAt heap index text ↔
    index ≤ heap.length ∧ (Utf8.encode text).toList ++ [0] <+: heap.drop index := by
  rw [← exists_around_iff]
  simp only [TextAt, List.append_assoc, List.singleton_append]

theorem blobAt_iff {blob : List UInt8} : BlobAt heap index blob ↔
    blob.length < 0x20000000 ∧ index ≤ heap.length ∧
      CompressedNumber.encode blob.length ++ blob <+: heap.drop index :=
  and_congr_right fun _ => exists_around_iff

instance (heap : List UInt8) (index : Nat) (text : String) : Decidable (TextAt heap index text) :=
  decidable_of_iff' _ textAt_iff

instance (heap : List UInt8) (index : Nat) (blob : List UInt8) :
    Decidable (BlobAt heap index blob) :=
  decidable_of_iff' _ blobAt_iff

theorem not_empty_of_lt {heap : Bytes} (h : index < heap.size) :
    ¬ (index = 0 ∧ heap.isEmpty = true) := by
  rintro ⟨_, hempty⟩
  rw [Array.isEmpty_iff_size_eq_zero.mp hempty] at h
  exact Nat.not_lt_zero _ h

theorem string_of_textAt {text : String} (h : TextAt heap index text)
    (hplain : '\x00' ∉ text.toList) : string heap.toArray index = .ok text := by
  obtain ⟨before, after, rfl, rfl⟩ := h
  rw [List.append_assoc]
  have hinside : before.length <
      (before ++ ((Utf8.encode text).toList ++ 0 :: after)).toArray.size := by
    simp only [List.size_toArray, List.length_append, List.length_cons]
    omega
  have htext := Bytes.extract_middle [] (Utf8.encode text).toList (0 :: after)
  rw [List.nil_append, List.length_nil, Nat.zero_add, Array.toArray_toList] at htext
  unfold string
  rw [if_neg (not_empty_of_lt hinside), if_neg (Nat.not_le.mpr hinside), Bounded.range_rest,
    Outcome.ok_bind, Bytes.findIdx?_zero (Utf8.zero_not_mem_encode hplain)]
  dsimp only
  rw [htext, Utf8.decode_encode]

theorem blob_of_blobAt {bytes : List UInt8} (h : BlobAt heap index bytes) :
    blob heap.toArray index = .ok bytes.toArray := by
  obtain ⟨hlength, before, after, rfl, rfl⟩ := h
  rw [List.append_assoc]
  have hhead : 0 < (CompressedNumber.encode bytes.length).length := by
    unfold CompressedNumber.encode
    split_ifs <;> exact Nat.succ_pos _
  have hinside : before.length <
      (before ++ (CompressedNumber.encode bytes.length ++ bytes ++ after)).toArray.size := by
    simp only [List.size_toArray, List.length_append]
    omega
  have hread : Decoder.Reads (do Decoder.take (← CompressedNumber.decode))
      (CompressedNumber.encode bytes.length ++ bytes) bytes.toArray :=
    Decoder.reads_bind (CompressedNumber.reads_encode hlength) (Decoder.reads_take bytes)
  unfold blob
  rw [if_neg (not_empty_of_lt hinside), if_neg (Nat.not_le.mpr hinside), Bounded.range_rest,
    Outcome.ok_bind]
  exact Decoder.parse_of_reads hread after

end Heap
end AssemblyBrowser
