import AssemblyBrowser.Bytes.Basic
import AssemblyBrowser.Error

/-!
# Arithmetic and indexing within bounds

Numbers, positions and lengths are machine words, and arrays are indexed without
a check of one's own. Each operation here answers what the exact operation on
numbers and lists would, or panics where that has no room.
-/

namespace AssemblyBrowser
namespace Bounded

def positions : Nat := UInt64.size

def add (limit a b : Nat) : Except Error Nat :=
  if a + b < limit then .ok (a + b) else .error (.panic (.overflow .add))

/-- The difference of two numbers, none of which is negative. -/
def subtract (a b : Nat) : Except Error Nat :=
  if b ≤ a then .ok (a - b) else .error (.panic (.overflow .subtract))

/-- The product, where numbers are below `limit`. -/
def multiply (limit a b : Nat) : Except Error Nat :=
  if a * b < limit then .ok (a * b) else .error (.panic (.overflow .multiply))

def remainder (a b : Nat) : Except Error Nat :=
  if b = 0 then .error (.panic .zeroDivisor) else .ok (a % b)

def item {α : Type} (items : Array α) (index : Nat) : Except Error α :=
  match items[index]? with
  | some item => .ok item
  | none => .error (.panic (.index index items.size))

def replace {α : Type} (items : Array α) (index : Nat) (item : α) : Except Error (Array α) :=
  if h : index < items.size then .ok (items.set index item)
  else .error (.panic (.index index items.size))

def range (data : Bytes) (start stop : Nat) : Except Error Bytes :=
  if start ≤ stop ∧ stop ≤ data.size then .ok (data.extract start stop)
  else .error (.panic (.range start stop data.size))

/-- The `length` bytes from `start` on; data that ends before them is an error. -/
def slice (data : Bytes) (start length : Nat) : Except Error Bytes :=
  if data.size < start + length then .error .outOfBounds
  else range data start (start + length)

/-- The little-endian number of `width` bytes at `start`. -/
def unsignedAt (data : Bytes) (start width : Nat) : Except Error Nat := do
  let bytes ← slice data start width
  return Bytes.littleEndian bytes.toList

variable {α : Type}

theorem add_eq_ok {limit a b : Nat} (h : a + b < limit) : add limit a b = .ok (a + b) := by
  rw [add, if_pos h]

theorem subtract_eq_ok {a b : Nat} (h : b ≤ a) : subtract a b = .ok (a - b) := by
  rw [subtract, if_pos h]

theorem subtract_eq_iff {a b c : Nat} : subtract a b = .ok c ↔ b ≤ a ∧ a - b = c := by
  unfold subtract
  split
  case isTrue h => simp [h]
  case isFalse h => simp [h]

theorem multiply_eq_ok {limit a b : Nat} (h : a * b < limit) :
    multiply limit a b = .ok (a * b) := by
  rw [multiply, if_pos h]

theorem remainder_eq_ok {a b : Nat} (h : 0 < b) : remainder a b = .ok (a % b) := by
  rw [remainder, if_neg (Nat.pos_iff_ne_zero.mp h)]

theorem item_eq_ok {items : Array α} {index : Nat} (h : index < items.size) :
    item items index = .ok items[index] := by
  rw [item, Array.getElem?_eq_getElem h]

theorem item_eq_iff {items : Array α} {index : Nat} {value : α} :
    item items index = .ok value ↔ items[index]? = some value := by
  unfold item
  cases items[index]? with
  | some found => simp
  | none => simp

theorem replace_eq_ok {items : Array α} {index : Nat} (h : index < items.size) (value : α) :
    replace items index value = .ok (items.set index value h) := by
  rw [replace, dif_pos h]

theorem range_eq_ok {data : Bytes} {start stop : Nat} (hstart : start ≤ stop)
    (hstop : stop ≤ data.size) : range data start stop = .ok (data.extract start stop) := by
  rw [range, if_pos ⟨hstart, hstop⟩]

theorem slice_eq (data : Bytes) (start length : Nat) :
    slice data start length =
      if start + length ≤ data.size then .ok (data.extract start (start + length))
      else .error .outOfBounds := by
  unfold slice
  split
  case isTrue h => rw [if_neg (Nat.not_le.mpr h)]
  case isFalse h =>
    have hstop : start + length ≤ data.size := Nat.not_lt.mp h
    rw [if_pos hstop, range_eq_ok (Nat.le_add_right start length) hstop]

end Bounded
end AssemblyBrowser
