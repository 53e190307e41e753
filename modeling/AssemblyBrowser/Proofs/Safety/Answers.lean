import Mathlib.Tactic.Common
import AssemblyBrowser.Bytes.Bounded
import AssemblyBrowser.Bytes.Decoder

/-!
# Computations that answer

A computation answers if it gives a value with a certain property or an error
that is no crash. Steps that answer answer one after another, and each operation
within bounds answers where it has room.
-/

namespace AssemblyBrowser

/-- The value of a computation has a property, or its error is no crash. -/
def Answers {α : Type} (P : α → Prop) : Except Error α → Prop
  | .ok value => P value
  | .error error => error.isCrash = false

namespace Answers

variable {α β : Type} {P : α → Prop} {Q : β → Prop}

theorem pure {value : α} (h : P value) : Answers P (Pure.pure value) := h

theorem bind {x : Except Error α} {f : α → Except Error β} (hx : Answers P x)
    (hf : ∀ value, P value → Answers Q (f value)) : Answers Q (x >>= f) := by
  cases x with
  | ok value => exact hf value hx
  | error error => exact hx

theorem mono {R : α → Prop} {x : Except Error α} (hx : Answers P x)
    (h : ∀ value, P value → R value) : Answers R x := by
  cases x with
  | ok value => exact h value hx
  | error error => exact hx

/-- Two ways to get a value, and what follows. -/
theorem join {c : Prop} [Decidable c] {first second : Except Error α}
    {next : α → Except Error β} (hfirst : c → Answers P first) (hsecond : ¬ c → Answers P second)
    (hnext : ∀ value, P value → Answers Q (next value)) :
    Answers Q (if c then first >>= next else second >>= next) := by
  split
  case isTrue h => exact (hfirst h).bind hnext
  case isFalse h => exact (hsecond h).bind hnext

/-- What an attempt gives is the value. -/
theorem eq_ok_of_attempt {x : Except Error α} {value : α}
    (h : Error.attempt x = .ok (some value)) : x = .ok value := by
  cases x with
  | ok other =>
      cases h
      rfl
  | error error =>
      cases hcrash : error.isCrash <;> simp [Error.attempt, hcrash] at h

/-- An attempt at what answers gives a value, or says that there is none. -/
theorem exists_attempt {x : Except Error α} (hx : Answers P x) :
    ∃ value?, Error.attempt x = .ok value? := by
  cases x with
  | ok value => exact ⟨some value, rfl⟩
  | error error =>
      have hanswer : error.isCrash = false := hx
      exact ⟨none, by rw [Error.attempt, hanswer]; rfl⟩

/-- An error may take the place of a value. -/
theorem attempt {x : Except Error α} (hx : Answers P x) :
    Answers (fun value? => ∀ value ∈ value?, P value) (Error.attempt x) := by
  cases x with
  | ok value =>
      intro other hother
      rw [← Option.some.inj hother]
      exact hx
  | error error =>
      have hanswer : error.isCrash = false := hx
      rw [Error.attempt, hanswer]
      intro other hother
      cases hother

/-- One value for each item. -/
theorem mapM {f : α → Except Error β} {items : List α}
    (hf : ∀ item ∈ items, Answers Q (f item)) :
    Answers (fun values => values.length = items.length ∧ ∀ value ∈ values, Q value)
      (items.mapM f) := by
  induction items with
  | nil =>
      rw [List.mapM_nil]
      exact pure ⟨rfl, by simp⟩
  | cons item rest ih =>
      rw [List.mapM_cons]
      refine bind (hf item List.mem_cons_self) ?_
      intro value hvalue
      refine bind (ih fun other hother => hf other (List.mem_cons_of_mem _ hother)) ?_
      intro others hothers
      refine pure ⟨by simp [hothers.1], ?_⟩
      intro other hmem
      rcases List.mem_cons.mp hmem with heq | hrest
      · rw [heq]
        exact hvalue
      · exact hothers.2 other hrest

/-- What every step keeps holds at the end. -/
theorem foldlM {f : β → α → Except Error β} {items : List α} {start : β} (hstart : Q start)
    (hf : ∀ item ∈ items, ∀ state, Q state → Answers Q (f state item)) :
    Answers Q (items.foldlM f start) := by
  induction items generalizing start with
  | nil => exact pure hstart
  | cons item rest ih =>
      rw [List.foldlM_cons]
      refine bind (hf item List.mem_cons_self start hstart) ?_
      intro state hstate
      exact ih hstate fun other hother => hf other (List.mem_cons_of_mem _ hother)

/-- A computation that answers does not crash. -/
theorem not_crash {x : Except Error α} (hx : Answers P x) {error : Error}
    (h : x = .error error) : error.isCrash = false := by
  rw [h] at hx
  exact hx

end Answers

/-!
## Operations within bounds
-/

namespace Bounded

variable {α : Type} {limit a b : Nat}

theorem answers_add (h : a + b < limit) : Answers (· = a + b) (add limit a b) := by
  rw [add_eq_ok h]
  exact rfl

theorem answers_subtract (h : b ≤ a) : Answers (· = a - b) (subtract a b) := by
  rw [subtract_eq_ok h]
  exact rfl

theorem answers_multiply (h : a * b < limit) : Answers (· = a * b) (multiply limit a b) := by
  rw [multiply_eq_ok h]
  exact rfl

theorem answers_remainder (h : 0 < b) : Answers (· = a % b) (remainder a b) := by
  rw [remainder_eq_ok h]
  exact rfl

theorem answers_item {items : Array α} {index : Nat} (h : index < items.size) :
    Answers (· ∈ items) (item items index) := by
  rw [item_eq_ok h]
  exact Array.getElem_mem h

theorem answers_replace {items : Array α} {index : Nat} (h : index < items.size) (value : α) :
    Answers (fun changed => changed.size = items.size) (replace items index value) := by
  rw [replace_eq_ok h]
  exact Array.size_set h

theorem answers_range {data : Bytes} {start stop : Nat} (hstart : start ≤ stop)
    (hstop : stop ≤ data.size) :
    Answers (fun bytes => bytes.size = stop - start) (range data start stop) := by
  rw [range_eq_ok hstart hstop]
  change (data.extract start stop).size = stop - start
  rw [Array.size_extract, Nat.min_eq_left hstop]

/-- A slice needs no room: data that ends too early is an error. -/
theorem answers_slice (data : Bytes) (start length : Nat) :
    Answers (fun bytes => bytes.size = length ∧ start + length ≤ data.size)
      (slice data start length) := by
  rw [slice_eq]
  split
  case isTrue h =>
    change (data.extract start (start + length)).size = length ∧ start + length ≤ data.size
    rw [Array.size_extract, Nat.min_eq_left h, Nat.add_sub_cancel_left]
    exact ⟨rfl, h⟩
  case isFalse => exact rfl

end Bounded

namespace Bytes

theorem littleEndian_lt (bytes : List UInt8) : littleEndian bytes < Nat.pow 256 bytes.length := by
  induction bytes with
  | nil => exact Nat.one_pos
  | cons byte rest ih =>
      have hbyte : byte.toNat < 256 := byte.toNat_lt
      have hpow : Nat.pow 256 (rest.length + 1) = Nat.pow 256 rest.length * 256 := rfl
      rw [littleEndian, List.length_cons, hpow]
      omega

end Bytes

theorem Bounded.answers_unsignedAt (data : Bytes) (start width : Nat) :
    Answers (· < Nat.pow 256 width) (Bounded.unsignedAt data start width) := by
  refine (Bounded.answers_slice data start width).bind ?_
  intro bytes hbytes
  refine Answers.pure ?_
  have hlt := Bytes.littleEndian_lt bytes.toList
  rw [Array.length_toList, hbytes.1] at hlt
  exact hlt

end AssemblyBrowser
