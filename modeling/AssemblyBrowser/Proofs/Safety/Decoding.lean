import AssemblyBrowser.Proofs.Codec.SignatureSizes
import AssemblyBrowser.Proofs.Cursors.Programs

/-!
# Decoders that answer

A decoder is safe if, wherever it begins inside its data, it ends inside its
data with a value of a certain property, or fails with an error that is no
crash. What is made of safe decoders is safe, and so is what spends bytes and fails
because of the data.
-/

namespace AssemblyBrowser

/-- A cursor that is inside its data, which is as long as a stream can be. -/
structure Cursor.InBounds (cursor : Cursor) : Prop where
  pos_le : cursor.pos ≤ cursor.data.size
  size_lt : cursor.data.size < UInt32.size

namespace Decoder

/-- A decoder does not crash, and its values have a property. -/
def Safe {α : Type} (P : α → Prop) (decoder : Decoder α) : Prop :=
  ∀ cursor : Cursor, cursor.InBounds →
    match decoder.run cursor with
    | .ok value after => P value ∧ after.InBounds
    | .error error _ => error.isCrash = false

variable {α β : Type} {P : α → Prop} {Q : β → Prop}

/-!
## Putting decoders together
-/

theorem safe_pure {value : α} (h : P value) : Safe P (pure value) :=
  fun _ hcursor => ⟨h, hcursor⟩

theorem safe_throw {error : Error} (h : error.isCrash = false) :
    Safe P (throw error : Decoder α) := fun _ _ => h

theorem safe_bind {decoder : Decoder α} {next : α → Decoder β} (hdecoder : Safe P decoder)
    (hnext : ∀ value, P value → Safe Q (next value)) : Safe Q (decoder >>= next) :=
  keeps_bind hdecoder hnext

theorem safe_mono {R : α → Prop} {decoder : Decoder α} (hdecoder : Safe P decoder)
    (h : ∀ value, P value → R value) : Safe R decoder := by
  intro cursor hcursor
  have hrun := hdecoder cursor hcursor
  cases houtcome : decoder.run cursor with
  | ok value after =>
      rw [houtcome] at hrun
      exact ⟨h value hrun.1, hrun.2⟩
  | error error after =>
      rw [houtcome] at hrun
      exact hrun

theorem safe_get : Safe Cursor.InBounds (get : Decoder Cursor) :=
  fun _ hcursor => ⟨hcursor, hcursor⟩

theorem safe_set {cursor : Cursor} (h : cursor.InBounds) :
    Safe (fun _ => True) (set cursor : Decoder PUnit) := fun _ _ => ⟨trivial, h⟩

theorem safe_ofExcept {x : Except Error α} (h : Answers P x) : Safe P (ofExcept x) := by
  intro cursor hcursor
  cases x with
  | ok value => exact ⟨h, hcursor⟩
  | error error => exact h

theorem safe_malformed (cause : Malformation) : Safe P (malformed cause : Decoder α) :=
  safe_throw rfl

theorem safe_ite {c : Prop} [Decidable c] {first second : Decoder α} (hfirst : c → Safe P first)
    (hsecond : ¬ c → Safe P second) : Safe P (if c then first else second) :=
  keeps_ite hfirst hsecond

/-- Two ways to get a value, and what follows. -/
theorem safe_join {c : Prop} [Decidable c] {first second : Decoder α} {next : α → Decoder β}
    (hfirst : c → Safe P first) (hsecond : ¬ c → Safe P second)
    (hnext : ∀ value, P value → Safe Q (next value)) :
    Safe Q (if c then first >>= next else second >>= next) :=
  safe_ite (fun h => safe_bind (hfirst h) hnext) (fun h => safe_bind (hsecond h) hnext)

/-- What follows a check that may fail. -/
theorem safe_check {c : Prop} [Decidable c] {error : Error} {next : PUnit → Decoder β}
    (herror : error.isCrash = false) (hnext : ¬ c → Safe Q (next ⟨⟩)) :
    Safe Q (if c then (throw error : Decoder PUnit) >>= next else next ⟨⟩) :=
  keeps_check herror hnext

theorem safe_repeated {decoder : Decoder α} (h : Safe P decoder) (count : Nat) :
    Safe (fun values => ∀ value ∈ values, P value) (repeated decoder count) :=
  keeps_repeated h count

/-- A safe decoder answers on data that is not too long. -/
theorem answers_parse {decoder : Decoder α} (h : Safe P decoder) {data : Bytes}
    (hsize : data.size < UInt32.size) : Answers P (decoder.parse data) := by
  have hrun := h { data := data } ⟨Nat.zero_le _, hsize⟩
  unfold parse
  cases houtcome : decoder.run { data := data } with
  | ok value after =>
      rw [houtcome] at hrun
      exact hrun.1
  | error error after =>
      rw [houtcome] at hrun
      exact hrun

/-- What spends bytes is safe, if it does not fail with a crash. -/
theorem safe_of_spends {kind : Error → Prop} {R : Nat → α → Prop} {decoder : Decoder α}
    (h : Spends kind R decoder) (hkind : ∀ error, kind error → error.isCrash = false)
    (hvalue : ∀ spent value, R spent value → P value) : Safe P decoder := by
  intro cursor hcursor
  cases hrun : decoder.run cursor with
  | ok value after =>
      rcases h.of_ok hcursor.pos_le hrun with ⟨spent, rfl, hafter, hspent⟩
      exact ⟨hvalue spent value hspent, hafter, hcursor.size_lt⟩
  | error error after => exact hkind error (h.of_error hcursor.pos_le hrun).2.2

/-- What stays inside the data is safe. -/
theorem safe_of_stays {decoder : Decoder α}
    (h : ∀ cursor : Cursor, cursor.InBounds → Stays cursor (step decoder cursor)) :
    Safe (fun _ => True) decoder := by
  intro cursor hcursor
  have hstays := h cursor hcursor
  cases hrun : decoder.run cursor with
  | ok value after =>
      rw [step_of_ok hrun] at hstays
      have hdata : after.data = cursor.data := hstays.1.data
      refine ⟨trivial, hstays.1.inside, ?_⟩
      rw [hdata]
      exact hcursor.size_lt
  | error error after =>
      rw [step_of_error hrun] at hstays
      exact hstays.2 error rfl

/-!
## Single steps
-/

theorem safe_advance (count : Nat) : Safe (fun _ => True) (advance count) :=
  safe_of_spends (spends_advance count) (fun _ h => h.not_crash) fun _ _ _ => trivial

/-- Only a multiple of zero cannot be reached. -/
theorem safe_align {alignment : Nat} (h : 0 < alignment) :
    Safe (fun _ => True) (align alignment) := by
  apply safe_bind safe_get
  intro cursor _
  apply safe_bind (safe_ofExcept (Bounded.answers_remainder h))
  intro past hpast
  have hle : past ≤ alignment := by
    rw [hpast]
    exact Nat.le_of_lt (Nat.mod_lt _ h)
  apply safe_bind (safe_ofExcept (Bounded.answers_subtract hle))
  intro missing _
  apply safe_bind (safe_ofExcept (Bounded.answers_remainder h))
  intro padding _
  exact safe_advance padding

theorem safe_take (length : Nat) :
    Safe (fun bytes => bytes.size = length ∧ bytes.size < UInt32.size) (take length) := by
  apply safe_bind safe_get
  intro cursor hcursor
  apply safe_bind (safe_ofExcept (Bounded.answers_slice cursor.data cursor.pos length))
  intro bytes hbytes
  refine safe_bind (safe_set ⟨hbytes.2, hcursor.size_lt⟩) ?_
  intro _ _
  have hfit : cursor.pos + length ≤ cursor.data.size := hbytes.2
  have hlt : cursor.data.size < UInt32.size := hcursor.size_lt
  exact safe_pure ⟨hbytes.1, by omega⟩

theorem safe_unsigned (width : Nat) : Safe (· < Nat.pow 256 width) (unsigned width) :=
  safe_of_spends (spends_unsigned width) (fun _ h => h.not_crash) fun _ _ h => h.2

end Decoder

/-!
## Numbers and texts
-/

open Decoder

theorem CompressedNumber.safe_decode : Safe (· < 0x20000000) decode :=
  safe_of_spends spends_decode (fun _ h => h.not_crash) fun _ _ h => h.2

theorem TextField.safe_terminated : Safe (fun _ => True) terminated := by
  refine safe_of_stays fun cursor hcursor => stays_terminated hcursor.pos_le ?_
  have hsize : cursor.data.size < UInt32.size := hcursor.size_lt
  have hroom : UInt32.size + 1 < Bounded.positions := by decide
  unfold Cursor.HasRoom
  omega

/-!
## Signatures
-/

namespace Signature

theorem IsFault.not_crash {error : Error} (h : IsFault error) : error.isCrash = false := by
  rcases h with h | rfl
  · exact h.not_crash
  · rfl

theorem safe_of_spendsTypes {depth : Nat} {reader : Decoder TypeSignature}
    (h : SpendsTypes depth reader) : Safe (fun _ => True) reader :=
  safe_of_spends h (fun _ h => h.not_crash) fun _ _ _ => trivial

theorem safe_type (depth : Nat) : Safe (fun _ => True) (type depth) :=
  safe_of_spendsTypes (spends_type depth)

theorem safe_field : Safe (fun _ => True) field := by
  rw [field_eq]
  exact safe_of_spendsTypes (spends_behind (spends_type maxDepth) spends_fieldStart)

theorem safe_method : Safe (fun _ => True) method :=
  safe_of_spends (spends_methodOf (spends_type maxDepth)) (fun _ h => h.not_crash)
    fun _ _ _ => trivial

theorem safe_property : Safe (fun _ => True) property := by
  rw [property_eq]
  exact safe_of_spends (spends_memberOf (spends_type maxDepth) makeProperty spends_propertyStart
    (spends_pure trivial)) (fun _ h => h.not_crash) fun _ _ _ => trivial

end Signature
end AssemblyBrowser
