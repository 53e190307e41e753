import Mathlib.Algebra.Ring.Nat
import AssemblyBrowser.Proofs.Codec.Reads

/-!
# Seven-bit numbers are read back

A number stands in groups of seven bits, the lowest first, and all groups but the
last are marked by their high bit. While they are read, the sum of the groups is
what the number has in its low bits. Five groups have room for more than 32 bits;
what is past the 32nd gets lost, and with it the number.
-/

namespace AssemblyBrowser
namespace SevenBitNumber

open Decoder

/-!
## Groups
-/

/-- The groups of one number: all but the last have the high bit. -/
inductive Complete : List UInt8 → Prop where
  | last {b : UInt8} (h : b.toNat < 0x80) : Complete [b]
  | more {b : UInt8} {rest : List UInt8} (h : 0x80 ≤ b.toNat) (hrest : Complete rest) :
      Complete (b :: rest)

/-- More groups follow each of the bytes. -/
def Continued (bytes : List UInt8) : Prop := ∀ b ∈ bytes, 0x80 ≤ b.toNat

/-- The number whose base-128 digits, least significant first, are the low bits of the bytes. -/
def digitsValue : List UInt8 → Nat
  | [] => 0
  | b :: rest => b.toNat % 0x80 + 0x80 * digitsValue rest

theorem Complete.length_pos {groups : List UInt8} (h : Complete groups) : 0 < groups.length := by
  cases h <;> exact Nat.succ_pos _

/-- What a group adds is cut to a machine word by itself; the sum is cut the same way. -/
theorem add_mod_word {shift value : Nat} (hshift : shift ≤ 32) (hvalue : value < 2 ^ shift)
    (digit : Nat) :
    value + digit * 2 ^ shift % UInt32.size = (value + digit * 2 ^ shift) % UInt32.size := by
  have hsize : UInt32.size = 2 ^ shift * 2 ^ (32 - shift) := by
    rw [← Nat.pow_add, Nat.add_sub_cancel' hshift]
  have hpos : 0 < 2 ^ shift := Nat.two_pow_pos shift
  rw [hsize, Nat.mul_comm digit, Nat.mul_mod_mul_left, Nat.mod_mul, Nat.add_mul_mod_self_left,
    Nat.mod_eq_of_lt hvalue, Nat.add_mul_div_left _ _ hpos, Nat.div_eq_of_lt hvalue, Nat.zero_add]

/-- The groups of a number are added to those that were read before. -/
theorem reads_complete {groups : List UInt8} (h : Complete groups) {count shift value : Nat}
    (hcount : groups.length ≤ count) (hbits : shift + 7 * groups.length ≤ maxBits)
    (hvalue : value < 2 ^ shift) :
    Reads (decodeGroups count shift value) groups
      ((value + digitsValue groups * 2 ^ shift) % UInt32.size) := by
  unfold maxBits at hbits
  induction h generalizing count shift value with
  | last hlast =>
      obtain ⟨count, rfl⟩ := Nat.exists_eq_succ_of_ne_zero (Nat.ne_of_gt hcount)
      rw [List.length_singleton] at hbits
      refine reads_byte_bind ?_
      simp only [Nat.pow_eq]
      rw [if_pos hlast, add_mod_word (by omega) hvalue]
      exact reads_pure _
  | @more b rest hmore hrest ih =>
      obtain ⟨count, rfl⟩ := Nat.exists_eq_succ_of_ne_zero (Nat.ne_of_gt (Nat.zero_lt_of_lt hcount))
      have hlength := hrest.length_pos
      rw [List.length_cons] at hcount hbits
      -- One more group follows, so that this one still fits a machine word.
      have hsum : value + b.toNat % 0x80 * 2 ^ shift < 2 ^ (shift + 7) := by
        have hdigit : b.toNat % 0x80 + 1 ≤ 2 ^ 7 := Nat.mod_lt _ (by decide)
        have hmul := Nat.mul_le_mul_right (2 ^ shift) hdigit
        rw [Nat.pow_add, Nat.mul_comm (2 ^ shift)]
        rw [Nat.add_mul] at hmul
        omega
      have hword : 2 ^ (shift + 7) ≤ 2 ^ 32 := Nat.pow_le_pow_right (by decide) (by omega)
      have hdigit : b.toNat % 0x80 * 2 ^ shift < 2 ^ 32 := by omega
      have hall : value + b.toNat % 0x80 * 2 ^ shift + digitsValue rest * 2 ^ (shift + 7) =
          value + digitsValue (b :: rest) * 2 ^ shift := by
        rw [digitsValue, Nat.pow_add, Nat.add_mul, Nat.add_assoc, Nat.mul_comm 0x80,
          Nat.mul_assoc, Nat.mul_comm (2 ^ shift)]
      have hread := ih (Nat.le_of_succ_le_succ hcount) (by omega) hsum
      rw [hall] at hread
      refine reads_byte_bind ?_
      simp only [Nat.pow_eq]
      rw [if_neg (Nat.not_lt.mpr hmore), Nat.mod_eq_of_lt (b := UInt32.size) hdigit]
      exact hread

/-- A number of at most five groups is read as its lowest 32 bits. -/
theorem reads_groups {groups : List UInt8} (h : Complete groups) (hlength : groups.length ≤ 5) :
    Reads decode groups (digitsValue groups % UInt32.size) := by
  have hbits : 0 + 7 * groups.length ≤ maxBits := by
    unfold maxBits
    omega
  have hnothing : 0 < 2 ^ 0 := Nat.one_pos
  have hread := reads_complete h hlength hbits hnothing
  rwa [Nat.pow_zero, Nat.mul_one, Nat.zero_add] at hread

/-!
## Written numbers
-/

/-- A number is written in its groups. -/
theorem complete_encodeGroups {fuel n : Nat} (h : n < 2 ^ (7 * (fuel + 1))) :
    Complete (encodeGroups fuel n) ∧ (encodeGroups fuel n).length ≤ fuel + 1 ∧
      digitsValue (encodeGroups fuel n) = n := by
  have hlast {n : Nat} (hn : n < 0x80) : (UInt8.ofNat n).toNat = n := by
    rw [UInt8.toNat_ofNat']
    omega
  have hdigit {n : Nat} (hn : n < 0x80) : digitsValue [UInt8.ofNat n] = n := by
    rw [digitsValue, digitsValue, hlast hn]
    omega
  induction fuel generalizing n with
  | zero =>
      have hn : n < 0x80 := h
      rw [encodeGroups, Nat.mod_eq_of_lt hn]
      exact ⟨.last ((hlast hn).symm ▸ hn), Nat.le_refl 1, hdigit hn⟩
  | succ fuel ih =>
      rw [encodeGroups]
      split
      case isTrue hn =>
        exact ⟨.last ((hlast hn).symm ▸ hn), Nat.succ_le_succ (Nat.zero_le _), hdigit hn⟩
      case isFalse hn =>
        have hfewer : n / 0x80 < 2 ^ (7 * (fuel + 1)) := by
          rw [Nat.mul_add, Nat.pow_add] at h
          omega
        obtain ⟨hcomplete, hlength, hvalue⟩ := ih hfewer
        have hgroup : (UInt8.ofNat (0x80 + n % 0x80)).toNat = 0x80 + n % 0x80 := by
          rw [UInt8.toNat_ofNat']
          omega
        refine ⟨.more (by omega) hcomplete, Nat.succ_le_succ hlength, ?_⟩
        rw [digitsValue, hvalue, hgroup]
        omega

theorem reads_encode {n : Nat} (h : n < UInt32.size) : Reads decode (encode n) n := by
  have hgroups : n < 2 ^ (7 * (4 + 1)) := Nat.lt_trans h (by decide)
  obtain ⟨hcomplete, hlength, hvalue⟩ := complete_encodeGroups hgroups
  have hread := reads_groups hcomplete hlength
  rwa [hvalue, Nat.mod_eq_of_lt h] at hread

/-!
## Which byte strings are numbers
-/

/-- What reading a number should answer at a byte string: a number of at most five groups that fits
a machine word, and an error that tells what is too large from what ends too early. -/
structure ReadsExactly (before bytes : List UInt8) : Prop where
  ok_iff (n : Nat) (after : Cursor) : decode.run (.between before bytes) = .ok n after ↔
    ∃ groups rest, bytes = groups ++ rest ∧ after = .between (before ++ groups) rest ∧
      Complete groups ∧ groups.length ≤ 5 ∧ digitsValue groups = n ∧ n < UInt32.size
  tooLarge (groups rest : List UInt8) (hbytes : bytes = groups ++ rest)
    (h : Complete groups ∧ groups.length ≤ 5 ∧ UInt32.size ≤ digitsValue groups ∨
      Continued groups ∧ groups.length = 5) :
    ∃ cause after, decode.run (.between before bytes) = .error (.malformed cause) after
  truncated (h : Continued bytes) (hlength : bytes.length < 5) :
    ∃ after, decode.run (.between before bytes) = .error .outOfBounds after

end SevenBitNumber
end AssemblyBrowser
