import AssemblyBrowser.Bytes.CompressedNumber

/-!
# Metadata heaps

Tables refer to names, signatures and identifiers by their index in one of three
heaps. A heap that a module lacks is an empty byte string; its index 0 still
names the empty entry.
-/

namespace AssemblyBrowser

/-- A 16-byte identifier. -/
structure Guid where
  bytes : Bytes
  deriving DecidableEq

/-- The usual grouping, with the first three groups in little-endian order. -/
def Guid.text (guid : Guid) : String :=
  let byte := fun (i : Nat) => Hex.padded 2 (guid.bytes.getD i 0).toNat
  let group := fun (places : List Nat) => String.join (places.map byte)
  String.intercalate "-" [group [3, 2, 1, 0], group [5, 4], group [7, 6], group [8, 9],
    group [10, 11, 12, 13, 14, 15]]

namespace Heap

/-- The zero-terminated text at an index of the string heap. -/
def string (heap : Bytes) (index : Nat) : Except Error String :=
  if index = 0 ∧ heap.isEmpty then .ok ""
  else if heap.size ≤ index then .error .outOfBounds
  else do
    let rest ← Bounded.range heap index heap.size
    match rest.findIdx? (· == 0) with
    | none => .error (.malformed (.unterminatedString index))
    | some length =>
        match Utf8.decode (rest.extract 0 length) with
        | .ok text => .ok text
        | .error _ => .error (.malformed (.stringNotUtf8 index))

/-- The length-prefixed bytes at an index of the blob heap. -/
def blob (heap : Bytes) (index : Nat) : Except Error Bytes :=
  if index = 0 ∧ heap.isEmpty then .ok #[]
  else if heap.size ≤ index then .error .outOfBounds
  else do
    let rest ← Bounded.range heap index heap.size
    Decoder.parse (do Decoder.take (← CompressedNumber.decode)) rest

/-- The identifier with a number of the identifier heap, counted from 1. -/
def guid (heap : Bytes) (index : Nat) : Except Error (Option Guid) :=
  if index = 0 then .ok none
  else do
    let start ← Bounded.multiply Bounded.positions (← Bounded.subtract index 1) 16
    let stop ← Bounded.add Bounded.positions start 16
    match heap.between? start stop with
    | some bytes => .ok (some ⟨bytes⟩)
    | none => .error .outOfBounds

end Heap
end AssemblyBrowser
