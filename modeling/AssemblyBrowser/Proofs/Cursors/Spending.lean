import AssemblyBrowser.Bytes.TextField
import AssemblyBrowser.Proofs.Codec.Numbers
import AssemblyBrowser.Proofs.Safety.Answers

/-!
# What decoders spend

A decoder that begins inside its data spends a number of bytes on its value, and is
inside the data behind them; or it fails, inside the data as well. What it spends may
say something about the value, so the bytes that are there bound what is made of
them. What is made of decoders spends what these spend together.
-/

namespace AssemblyBrowser

/-- The data are damaged, or end before a value does. -/
inductive Error.FromData : Error → Prop where
  | outOfBounds : FromData .outOfBounds
  | malformed (cause : Malformation) : FromData (.malformed cause)

theorem Error.FromData.not_crash {error : Error} (h : error.FromData) : error.isCrash = false := by
  cases h with
  | outOfBounds => rfl
  | malformed cause => rfl

namespace Cursor

/-- The position is not past the end of the data. -/
def Inside (cursor : Cursor) : Prop := cursor.pos ≤ cursor.data.size

/-- The cursor so many bytes further on. -/
def moved (cursor : Cursor) (count : Nat) : Cursor := { cursor with pos := cursor.pos + count }

@[simp] theorem moved_data (cursor : Cursor) (count : Nat) :
    (cursor.moved count).data = cursor.data := rfl

@[simp] theorem moved_pos (cursor : Cursor) (count : Nat) :
    (cursor.moved count).pos = cursor.pos + count := rfl

@[simp] theorem moved_zero (cursor : Cursor) : cursor.moved 0 = cursor := rfl

theorem moved_moved (cursor : Cursor) (first second : Nat) :
    (cursor.moved first).moved second = cursor.moved (first + second) := by
  unfold moved
  rw [Nat.add_assoc]

theorem inside_between (before after : List UInt8) : (between before after).Inside := by
  simp [Inside, between]

/-- A cursor inside its data stands between two parts of them. -/
theorem Inside.exists_between {cursor : Cursor} (h : cursor.Inside) :
    ∃ before after, cursor = between before after := by
  have hle : cursor.pos ≤ cursor.data.toList.length := h
  refine ⟨cursor.data.toList.take cursor.pos, cursor.data.toList.drop cursor.pos, ?_⟩
  rw [between, List.take_append_drop, List.length_take, Nat.min_eq_left hle]

theorem Inside.remaining_moved {cursor : Cursor} {count : Nat} (h : (cursor.moved count).Inside) :
    (cursor.moved count).remaining + count = cursor.remaining := by
  have hle : cursor.pos + count ≤ cursor.data.size := h
  unfold remaining moved
  dsimp only
  omega

end Cursor

namespace Decoder

variable {α β : Type}

/-!
## Single steps
-/

theorem run_seek_eq (pos : Nat) (cursor : Cursor) :
    (seek pos).run cursor =
      if pos ≤ cursor.data.size then .ok () { cursor with pos := pos }
      else .error .outOfBounds cursor := by
  unfold seek
  rw [run_get]
  split
  · rfl
  · rfl

theorem run_advance_eq (count : Nat) (cursor : Cursor) :
    (advance count).run cursor =
      if cursor.pos + count ≤ cursor.data.size then .ok () (cursor.moved count)
      else .error .outOfBounds cursor := by
  unfold advance
  rw [run_get, run_seek_eq]
  rfl

theorem run_peek_eq (cursor : Cursor) :
    peek.run cursor =
      match cursor.data[cursor.pos]? with
      | some byte => .ok byte cursor
      | none => .error .outOfBounds cursor := by
  unfold peek
  rw [run_get]
  cases cursor.data[cursor.pos]? with
  | some byte => rfl
  | none => rfl

theorem run_take_eq (length : Nat) (cursor : Cursor) :
    (take length).run cursor =
      if cursor.pos + length ≤ cursor.data.size then
        .ok (cursor.data.extract cursor.pos (cursor.pos + length)) (cursor.moved length)
      else .error .outOfBounds cursor := by
  unfold take
  rw [run_get, Bounded.slice_eq]
  split
  · rfl
  · rfl

/-- A number without a remainder is reached by what is missing to the next multiple. -/
theorem roundUp_eq (place : Nat) {alignment : Nat} (h : 0 < alignment) :
    (place + alignment - 1) / alignment * alignment =
      place + (alignment - place % alignment) % alignment := by
  have hplace := Nat.div_add_mod place alignment
  have hlt := Nat.mod_lt place h
  have hround : place + alignment - 1 =
      place % alignment + alignment - 1 + alignment * (place / alignment) := by omega
  rw [hround, Nat.add_mul_div_left _ _ h, Nat.add_mul, Nat.mul_comm (place / alignment)]
  by_cases hzero : place % alignment = 0
  · rw [hzero, Nat.zero_add, Nat.div_eq_of_lt (Nat.sub_lt h Nat.one_pos), Nat.sub_zero,
      Nat.mod_self]
    omega
  · have hone : (place % alignment + alignment - 1) / alignment = 1 :=
      Nat.div_eq_of_lt_le (by omega) (by omega)
    rw [hone, Nat.mod_eq_of_lt (Nat.sub_lt h (Nat.pos_of_ne_zero hzero))]
    omega

theorem run_align_eq {alignment : Nat} (h : 0 < alignment) (cursor : Cursor) :
    (align alignment).run cursor =
      (advance ((alignment - cursor.pos % alignment) % alignment)).run cursor := by
  unfold align
  rw [run_get, Bounded.remainder_eq_ok h]
  show (do
    let missing ← ofExcept (Bounded.subtract alignment (cursor.pos % alignment))
    advance (← ofExcept (Bounded.remainder missing alignment))).run cursor = _
  rw [Bounded.subtract_eq_ok (Nat.le_of_lt (Nat.mod_lt _ h))]
  show (do
    advance (← ofExcept (Bounded.remainder (alignment - cursor.pos % alignment) alignment))).run
      cursor = _
  rw [Bounded.remainder_eq_ok h]
  rfl

/-!
## Putting decoders together
-/

/-- Where a decoder begins inside its data, it gets a value, for a number of bytes that stands in a
relation to it, and is inside the data behind these bytes; or it fails inside the data, with an
error of a kind. -/
def Spends (kind : Error → Prop) (P : Nat → α → Prop) (decoder : Decoder α) : Prop :=
  ∀ cursor : Cursor, cursor.Inside →
    match decoder.run cursor with
    | .ok value after => ∃ spent, after = cursor.moved spent ∧ after.Inside ∧ P spent value
    | .error error after => after.data = cursor.data ∧ after.Inside ∧ kind error

section Combining

variable {kind : Error → Prop} {P : Nat → α → Prop} {Q : Nat → β → Prop} {decoder : Decoder α}

theorem Spends.of_ok (h : Spends kind P decoder) {cursor after : Cursor} {value : α}
    (hinside : cursor.Inside) (hrun : decoder.run cursor = .ok value after) :
    ∃ spent, after = cursor.moved spent ∧ after.Inside ∧ P spent value := by
  have hspends := h cursor hinside
  rw [hrun] at hspends
  exact hspends

theorem Spends.inside (h : Spends kind P decoder) {cursor after : Cursor} {value : α}
    (hinside : cursor.Inside) (hrun : decoder.run cursor = .ok value after) : after.Inside := by
  rcases h.of_ok hinside hrun with ⟨_, _, hafter, _⟩
  exact hafter

theorem Spends.of_error (h : Spends kind P decoder) {cursor after : Cursor} {error : Error}
    (hinside : cursor.Inside) (hrun : decoder.run cursor = .error error after) :
    after.data = cursor.data ∧ after.Inside ∧ kind error := by
  have hspends := h cursor hinside
  rw [hrun] at hspends
  exact hspends

/-- From the start of the data, no more is spent than there is. -/
theorem Spends.parse (h : Spends kind P decoder) (data : Bytes) :
    match decoder.parse data with
    | .ok value => ∃ spent ≤ data.size, P spent value
    | .error error => kind error := by
  have hstart : Cursor.Inside { data := data } := Nat.zero_le data.size
  unfold Decoder.parse
  cases hrun : decoder.run { data := data } with
  | ok value after =>
      rcases h.of_ok hstart hrun with ⟨spent, rfl, hafter, hvalue⟩
      have hspent : 0 + spent ≤ data.size := hafter
      exact ⟨spent, by omega, hvalue⟩
  | error error after => exact (h.of_error hstart hrun).2.2

theorem spends_pure {value : α} (h : P 0 value) : Spends kind P (pure value) :=
  fun cursor hinside => ⟨0, cursor.moved_zero.symm, hinside, h⟩

theorem spends_throw {error : Error} (h : kind error) : Spends kind P (throw error : Decoder α) :=
  fun _ hinside => ⟨rfl, hinside, h⟩

theorem spends_bind {next : α → Decoder β} (hdecoder : Spends kind P decoder)
    (hnext : ∀ spent value, P spent value →
      Spends kind (fun more result => Q (spent + more) result) (next value)) :
    Spends kind Q (decoder >>= next) := by
  intro cursor hinside
  cases hrun : decoder.run cursor with
  | ok value middle =>
      rw [run_bind hrun]
      rcases hdecoder.of_ok hinside hrun with ⟨spent, rfl, hmiddle, hvalue⟩
      have hrest := hnext spent value hvalue _ hmiddle
      cases hlast : (next value).run (cursor.moved spent) with
      | ok result after =>
          rw [hlast] at hrest
          rcases hrest with ⟨more, rfl, hafter, hresult⟩
          exact ⟨spent + more, cursor.moved_moved spent more, hafter, hresult⟩
      | error error after =>
          rw [hlast] at hrest
          exact hrest
  | error error middle =>
      rw [run_bind_error hrun]
      exact hdecoder.of_error hinside hrun

theorem spends_mono {wider : Error → Prop} {R : Nat → α → Prop} (h : Spends kind P decoder)
    (hkind : ∀ error, kind error → wider error)
    (hvalue : ∀ spent value, P spent value → R spent value) : Spends wider R decoder := by
  intro cursor hinside
  cases hrun : decoder.run cursor with
  | ok value after =>
      rcases h.of_ok hinside hrun with ⟨spent, hafter, hin, hP⟩
      exact ⟨spent, hafter, hin, hvalue spent value hP⟩
  | error error after =>
      rcases h.of_error hinside hrun with ⟨hdata, hin, herror⟩
      exact ⟨hdata, hin, hkind error herror⟩

theorem spends_ite {c : Prop} [Decidable c] {first second : Decoder α}
    (hfirst : c → Spends kind P first) (hsecond : ¬ c → Spends kind P second) :
    Spends kind P (if c then first else second) := by
  split
  case isTrue h => exact hfirst h
  case isFalse h => exact hsecond h

/-- As many values as are asked for: what is spent on them is the sum, and what holds of each
holds of all. -/
theorem spends_repeated {weight : α → Nat} {R : α → Prop}
    (h : Spends kind (fun spent value => weight value ≤ spent ∧ R value) decoder) (count : Nat) :
    Spends kind (fun spent values => values.length = count ∧ (values.map weight).sum ≤ spent ∧
      ∀ value ∈ values, R value) (repeated decoder count) := by
  induction count with
  | zero => exact spends_pure ⟨rfl, Nat.le_refl 0, fun _ hmem => absurd hmem List.not_mem_nil⟩
  | succ count ih =>
      refine spends_bind h fun spent value hvalue => ?_
      refine spends_bind ih fun more rest hrest => spends_pure ⟨?_, ?_, ?_⟩
      · rw [List.length_cons, hrest.1]
      · rw [List.map_cons, List.sum_cons]
        exact Nat.add_le_add hvalue.1 hrest.2.1
      · exact List.forall_mem_cons.mpr ⟨hvalue.2, hrest.2.2⟩

/-- Values that each spend a byte: a count above the number of bytes that are left makes no
difference, since the last of them is not there. -/
theorem exists_error_of_remaining_lt (h : Spends kind P decoder)
    (hspent : ∀ spent value, P spent value → 1 ≤ spent) {cursor : Cursor}
    (hinside : cursor.Inside) :
    ∃ error place, ∀ count, cursor.remaining < count →
      (repeated decoder count).run cursor = .error error place := by
  induction hleft : cursor.remaining using Nat.strong_induction_on generalizing cursor with
  | h left ih =>
    cases hrun : decoder.run cursor with
    | ok value after =>
        rcases h.of_ok hinside hrun with ⟨spent, rfl, hafter, hvalue⟩
        have hone := hspent spent value hvalue
        have hless := hafter.remaining_moved
        obtain ⟨error, place, hrest⟩ :=
          ih (cursor.moved spent).remaining (by omega) hafter rfl
        refine ⟨error, place, fun count hcount => ?_⟩
        cases count with
        | zero => exact absurd hcount (Nat.not_lt_zero _)
        | succ count =>
            exact (run_bind hrun).trans (run_bind_error (hrest count (by omega)))
    | error error place =>
        refine ⟨error, place, fun count hcount => ?_⟩
        cases count with
        | zero => exact absurd hcount (Nat.not_lt_zero _)
        | succ count => exact run_bind_error hrun

end Combining

/-!
## Bytes and numbers
-/

theorem spends_take (length : Nat) :
    Spends Error.FromData (fun spent bytes => spent = length ∧ bytes.size = length)
      (take length) := by
  intro cursor hinside
  rw [run_take_eq]
  by_cases hroom : cursor.pos + length ≤ cursor.data.size
  · rw [if_pos hroom]
    refine ⟨length, rfl, hroom, rfl, ?_⟩
    rw [Array.size_extract, Nat.min_eq_left hroom, Nat.add_sub_cancel_left]
  · rw [if_neg hroom]
    exact ⟨rfl, hinside, .outOfBounds⟩

theorem spends_advance (count : Nat) :
    Spends Error.FromData (fun spent _ => spent = count) (advance count) := by
  intro cursor hinside
  rw [run_advance_eq]
  by_cases hroom : cursor.pos + count ≤ cursor.data.size
  · rw [if_pos hroom]
    exact ⟨count, rfl, hroom, rfl⟩
  · rw [if_neg hroom]
    exact ⟨rfl, hinside, .outOfBounds⟩

theorem spends_peek : Spends Error.FromData (fun spent _ => spent = 0) peek := by
  intro cursor hinside
  rw [run_peek_eq]
  cases cursor.data[cursor.pos]? with
  | some byte => exact ⟨0, rfl, hinside, rfl⟩
  | none => exact ⟨rfl, hinside, .outOfBounds⟩

theorem spends_remaining : Spends Error.FromData (fun spent _ => spent = 0) remaining :=
  fun _ hinside => ⟨0, rfl, hinside, rfl⟩

theorem spends_position : Spends Error.FromData (fun spent _ => spent = 0) position :=
  fun _ hinside => ⟨0, rfl, hinside, rfl⟩

theorem spends_malformed {P : Nat → α → Prop} (cause : Malformation) :
    Spends Error.FromData P (malformed cause : Decoder α) :=
  spends_throw (.malformed cause)

theorem spends_unsigned (width : Nat) :
    Spends Error.FromData (fun spent n => spent = width ∧ n < Nat.pow 256 width)
      (unsigned width) := by
  refine spends_bind (spends_take width) fun spent bytes hbytes => spends_pure ⟨hbytes.1, ?_⟩
  have hlt := Bytes.littleEndian_lt bytes.toList
  rwa [Array.length_toList, hbytes.2] at hlt

theorem spends_byte : Spends Error.FromData (fun spent n => spent = 1 ∧ n < 256) byte :=
  spends_unsigned 1

end Decoder

namespace CompressedNumber

open Decoder

theorem spends_decode :
    Spends Error.FromData (fun spent n => 1 ≤ spent ∧ n < 0x20000000) decode := by
  refine spends_bind spends_byte fun spent first hfirst => ?_
  refine spends_ite (fun h => spends_pure ⟨by omega, by omega⟩) fun _ => ?_
  refine spends_ite (fun _ => ?_) fun _ => spends_ite (fun _ => ?_) fun _ => spends_malformed _
  · refine spends_bind spends_byte fun more second hsecond => spends_pure ⟨by omega, ?_⟩
    omega
  · refine spends_bind spends_byte fun _ b1 hb1 => ?_
    refine spends_bind spends_byte fun _ b2 hb2 => ?_
    refine spends_bind spends_byte fun _ b3 hb3 => spends_pure ⟨by omega, ?_⟩
    omega

theorem spends_decodeToken :
    Spends Error.FromData (fun spent _ => 1 ≤ spent) decodeToken := by
  refine spends_bind spends_decode fun spent n hn => ?_
  split
  case h_1 table htable =>
    have hlt := (tokenTable?_lt htable).2
    have hroom : table * 0x1000000 + n / 4 < UInt32.size := by
      change table * 0x1000000 + n / 4 < 4294967296
      omega
    rw [Bounded.add_eq_ok hroom]
    exact spends_pure hn.1
  case h_2 => exact spends_malformed _

end CompressedNumber

namespace SevenBitNumber

open Decoder

theorem spends_decodeGroups (groups shift value : Nat) :
    Spends Error.FromData (fun _ _ => True) (decodeGroups groups shift value) := by
  induction groups generalizing shift value with
  | zero => exact spends_malformed _
  | succ groups ih =>
      refine spends_bind spends_byte fun _ b _ => ?_
      exact spends_ite (fun _ => spends_pure trivial) fun _ => ih _ _

theorem spends_decode : Spends Error.FromData (fun _ _ => True) decode :=
  spends_decodeGroups 5 0 0

end SevenBitNumber

/-!
## Texts behind their length
-/

namespace TextField

open Decoder

theorem spends_sevenBitPrefixed :
    Spends Error.FromData (fun _ _ => True) sevenBitPrefixed := by
  refine spends_bind SevenBitNumber.spends_decode fun _ length _ => ?_
  refine spends_bind spends_position fun _ start _ => ?_
  refine spends_bind (spends_take length) fun _ bytes _ => ?_
  split
  · exact spends_pure trivial
  · exact spends_malformed _

theorem spends_compressedPrefixed :
    Spends Error.FromData (fun _ _ => True) compressedPrefixed := by
  refine spends_bind CompressedNumber.spends_decode fun _ length _ => ?_
  refine spends_bind spends_position fun _ start _ => ?_
  refine spends_bind (spends_take length) fun _ bytes _ => ?_
  split
  · exact spends_pure trivial
  · exact spends_malformed _

end TextField
end AssemblyBrowser
