import Mathlib.Algebra.Ring.Int.Defs
import Mathlib.Algebra.Ring.Nat
import AssemblyBrowser.Proofs.Codec.Reads

/-!
# Compressed numbers are read back

A number is written in one, two or four bytes. Unsigned numbers take the
shortest form that has room. The first bits mark the form, so a byte string is a
number in one form at most, and it is none only if its first bits are no mark or
bytes are missing. A signed number is rotated, so that its sign stands in the
lowest bit, at the width that its size asks for; some of these forms are not the
shortest ones of the rotated number, and are read all the same.
-/

namespace AssemblyBrowser
namespace CompressedNumber

open Decoder

/-- The number of bytes of a written number. -/
inductive Form where
  | one
  | two
  | four
  deriving DecidableEq

namespace Form

/-- How many bits of a number a form has room for. -/
def bits : Form → Nat
  | one => 7
  | two => 14
  | four => 29

def encode : Form → Nat → List UInt8
  | one, n => [UInt8.ofNat n]
  | two, n => [UInt8.ofNat (0x80 + n / 0x100), UInt8.ofNat n]
  | four, n =>
      [UInt8.ofNat (0xC0 + n / 0x1000000), UInt8.ofNat (n / 0x10000), UInt8.ofNat (n / 0x100),
        UInt8.ofNat n]

end Form

/-- Every form is read as the number that it holds. -/
theorem reads_form (form : Form) {n : Nat} (h : n < 2 ^ form.bits) :
    Reads decode (form.encode n) n := by
  unfold decode
  cases form with
  | one =>
      have hn : n < 0x80 := h
      have hfirst : (UInt8.ofNat n).toNat = n := by
        rw [UInt8.toNat_ofNat']
        omega
      refine reads_byte_bind ?_
      rw [hfirst, if_pos hn]
      exact reads_pure n
  | two =>
      have hn : n < 0x4000 := h
      have hfirst : (UInt8.ofNat (0x80 + n / 0x100)).toNat = 0x80 + n / 0x100 := by
        rw [UInt8.toNat_ofNat']
        omega
      have hvalue : (0x80 + n / 0x100 - 0x80) * 0x100 + (UInt8.ofNat n).toNat = n := by
        rw [UInt8.toNat_ofNat']
        omega
      refine reads_byte_bind ?_
      rw [hfirst, if_neg (by omega), if_pos (by omega)]
      have hrest := reads_map (fun second => (0x80 + n / 0x100 - 0x80) * 0x100 + second)
        (reads_byte (UInt8.ofNat n))
      rwa [hvalue] at hrest
  | four =>
      have hn : n < 0x20000000 := h
      have hfirst : (UInt8.ofNat (0xC0 + n / 0x1000000)).toNat = 0xC0 + n / 0x1000000 := by
        rw [UInt8.toNat_ofNat']
        omega
      have hvalue : ((0xC0 + n / 0x1000000 - 0xC0) * 0x100 + (UInt8.ofNat (n / 0x10000)).toNat)
          * 0x10000 + (UInt8.ofNat (n / 0x100)).toNat * 0x100 + (UInt8.ofNat n).toNat = n := by
        simp only [UInt8.toNat_ofNat']
        omega
      refine reads_byte_bind ?_
      rw [hfirst, if_neg (by omega), if_neg (by omega), if_pos (by omega)]
      refine reads_byte_bind ?_
      refine reads_byte_bind ?_
      have hrest := reads_map
        (fun last => ((0xC0 + n / 0x1000000 - 0xC0) * 0x100 + (UInt8.ofNat (n / 0x10000)).toNat)
          * 0x10000 + (UInt8.ofNat (n / 0x100)).toNat * 0x100 + last)
        (reads_byte (UInt8.ofNat n))
      rwa [hvalue] at hrest

theorem reads_encode {n : Nat} (h : n < 0x20000000) : Reads decode (encode n) n := by
  unfold encode
  split
  case isTrue hone => exact reads_form .one hone
  case isFalse hone =>
    split
    case isTrue htwo => exact reads_form .two htwo
    case isFalse htwo => exact reads_form .four h

/-!
## Which byte strings are numbers
-/

namespace Form

/-- The number of bytes of a form. -/
def width : Form → Nat
  | one => 1
  | two => 2
  | four => 4

/-- The high bits of the first byte, which stand in front of the bits of the number. -/
def mark : Form → Nat
  | one => 0b0
  | two => 0b10
  | four => 0b110

/-- A byte has the mark of the form in its high bits. -/
def Leads : Form → UInt8 → Prop
  | one, lead => lead.toNat < 0x80
  | two, lead => 0x80 ≤ lead.toNat ∧ lead.toNat < 0xC0
  | four, lead => 0xC0 ≤ lead.toNat ∧ lead.toNat < 0xE0

/-- Bytes hold a number in a form: most significant byte first, their bits are the mark of the form
and then those of the number. -/
structure Holds (form : Form) (bytes : List UInt8) (n : Nat) : Prop where
  length : bytes.length = form.width
  room : n < 2 ^ form.bits
  value : Bytes.littleEndian bytes.reverse = form.mark * 2 ^ form.bits + n

variable {form : Form} {bytes : List UInt8} {n : Nat}

theorem holds_encode (h : n < 2 ^ form.bits) : form.Holds (form.encode n) n := by
  cases form with
  | one =>
      have hn : n < 0x80 := h
      refine ⟨rfl, h, ?_⟩
      simp only [encode, List.reverse_cons, List.reverse_nil, List.nil_append,
        Bytes.littleEndian, UInt8.toNat_ofNat', mark, bits]
      omega
  | two =>
      have hn : n < 0x4000 := h
      refine ⟨rfl, h, ?_⟩
      simp only [encode, List.reverse_cons, List.reverse_nil, List.nil_append, List.cons_append,
        Bytes.littleEndian, UInt8.toNat_ofNat', mark, bits]
      omega
  | four =>
      have hn : n < 0x20000000 := h
      refine ⟨rfl, h, ?_⟩
      simp only [encode, List.reverse_cons, List.reverse_nil, List.nil_append, List.cons_append,
        Bytes.littleEndian, UInt8.toNat_ofNat', mark, bits]
      omega

/-- Two byte strings of the same length are the same if they are the same number. -/
theorem littleEndian_injective {first second : List UInt8} (hlength : first.length = second.length)
    (h : Bytes.littleEndian first = Bytes.littleEndian second) : first = second := by
  induction first generalizing second with
  | nil => exact (List.length_eq_zero_iff.mp hlength.symm).symm
  | cons b rest ih =>
      cases second with
      | nil => cases hlength
      | cons other others =>
          have hb := b.toNat_lt
          have hother := other.toNat_lt
          rw [Bytes.littleEndian, Bytes.littleEndian] at h
          have hdigit : b = other := UInt8.toNat_inj.mp (by omega)
          have hrest : rest = others := ih (Nat.succ.inj hlength) (by omega)
          rw [hdigit, hrest]

/-- There is one way to write a number in a form. -/
theorem Holds.eq_encode (h : form.Holds bytes n) : bytes = form.encode n := by
  have hwritten := holds_encode h.room
  refine List.reverse_injective (littleEndian_injective ?_ (h.value.trans hwritten.value.symm))
  rw [List.length_reverse, List.length_reverse, h.length, hwritten.length]

/-- The first byte tells the form. -/
theorem Holds.leads (h : form.Holds bytes n) : ∀ lead ∈ bytes.head?, form.Leads lead := by
  have hroom := h.room
  rw [h.eq_encode]
  cases form with
  | one =>
      have hn : n < 0x80 := hroom
      rintro lead ⟨⟩
      simp only [Leads, UInt8.toNat_ofNat']
      omega
  | two =>
      have hn : n < 0x4000 := hroom
      rintro lead ⟨⟩
      simp only [Leads, UInt8.toNat_ofNat']
      omega
  | four =>
      have hn : n < 0x20000000 := hroom
      rintro lead ⟨⟩
      simp only [Leads, UInt8.toNat_ofNat']
      omega

end Form

/-- The first byte belongs to no form. -/
def Invalid (bytes : List UInt8) : Prop := ∃ lead rest, bytes = lead :: rest ∧ 0xE0 ≤ lead.toNat

/-- There is no first byte, or fewer bytes than the form of the first one has. -/
def Truncated (bytes : List UInt8) : Prop :=
  bytes = [] ∨ ∃ (form : Form) (lead : UInt8) (rest : List UInt8),
    bytes = lead :: rest ∧ form.Leads lead ∧ bytes.length < form.width

theorem exists_form_cases (lead : UInt8) : 0xE0 ≤ lead.toNat ∨ ∃ form : Form, form.Leads lead := by
  by_cases hone : lead.toNat < 0x80
  · exact .inr ⟨.one, hone⟩
  by_cases htwo : lead.toNat < 0xC0
  · exact .inr ⟨.two, Nat.not_lt.mp hone, htwo⟩
  by_cases hfour : lead.toNat < 0xE0
  · exact .inr ⟨.four, Nat.not_lt.mp htwo, hfour⟩
  exact .inl (Nat.not_lt.mp hfour)

/-- As many bytes as the form of the first one has hold a number. -/
theorem Form.Leads.exists_holds {form : Form} {lead : UInt8} {rest : List UInt8}
    (h : form.Leads lead) (hlength : (lead :: rest).length = form.width) :
    ∃ n, form.Holds (lead :: rest) n := by
  cases form with
  | one =>
      obtain rfl := List.length_eq_zero_iff.mp (Nat.succ.inj hlength)
      exact ⟨lead.toNat, rfl, h, by simp [Bytes.littleEndian, mark]⟩
  | two =>
      obtain ⟨second, rfl⟩ := List.length_eq_one_iff.mp (Nat.succ.inj hlength)
      obtain ⟨hlow, hhigh⟩ := h
      have hsecond := second.toNat_lt
      refine ⟨(lead.toNat - 0x80) * 0x100 + second.toNat, rfl, ?_, ?_⟩
      · simp only [bits]
        omega
      · simp only [List.reverse_cons, List.reverse_nil, List.nil_append, List.cons_append,
          Bytes.littleEndian, mark, bits]
        omega
  | four =>
      obtain ⟨b1, b2, b3, rfl⟩ := List.length_eq_three.mp (Nat.succ.inj hlength)
      obtain ⟨hlow, hhigh⟩ := h
      have h1 := b1.toNat_lt
      have h2 := b2.toNat_lt
      have h3 := b3.toNat_lt
      refine ⟨((lead.toNat - 0xC0) * 0x100 + b1.toNat) * 0x10000 + b2.toNat * 0x100 + b3.toNat,
        rfl, ?_, ?_⟩
      · simp only [bits]
        omega
      · simp only [List.reverse_cons, List.reverse_nil, List.nil_append, List.cons_append,
          Bytes.littleEndian, mark, bits]
        omega

/-- Every byte string begins with a number, or with a byte of no form, or it ends too early. -/
theorem number_cases (bytes : List UInt8) :
    (∃ (form : Form) (number rest : List UInt8) (n : Nat),
        bytes = number ++ rest ∧ form.Holds number n) ∨
      Invalid bytes ∨ Truncated bytes := by
  cases bytes with
  | nil => exact .inr (.inr (.inl rfl))
  | cons lead rest =>
      rcases exists_form_cases lead with hnone | ⟨form, hlead⟩
      · exact .inr (.inl ⟨lead, rest, rfl, hnone⟩)
      by_cases hshort : (lead :: rest).length < form.width
      · exact .inr (.inr (.inr ⟨form, lead, rest, rfl, hlead, hshort⟩))
      have hpos : 0 < form.width := by cases form <;> decide
      have htake : (lead :: rest.take (form.width - 1)).length = form.width := by
        rw [List.length_cons] at hshort ⊢
        rw [List.length_take]
        omega
      obtain ⟨n, hholds⟩ := hlead.exists_holds htake
      refine .inl ⟨form, _, rest.drop (form.width - 1), n, ?_, hholds⟩
      rw [List.cons_append, List.take_append_drop]

/-!
What is read in each of these cases.
-/

theorem run_of_holds {form : Form} {number : List UInt8} {n : Nat} (h : form.Holds number n)
    (before rest : List UInt8) : decode.run (.between before (number ++ rest)) =
      .ok n (.between (before ++ number) rest) := by
  rw [h.eq_encode]
  exact reads_form form h.room before rest

theorem run_byte_bind {α : Type} (next : Nat → Decoder α) (before : List UInt8) (b : UInt8)
    (rest : List UInt8) : (byte >>= next).run (.between before (b :: rest)) =
      (next b.toNat).run (.between (before ++ [b]) rest) :=
  run_bind (reads_byte b before rest)

theorem run_byte_bind_end {α : Type} (next : Nat → Decoder α) (before : List UInt8) :
    (byte >>= next).run (.between before []) = .error .outOfBounds (.between before []) :=
  run_bind_error (run_byte_end before)

theorem run_of_invalid {bytes : List UInt8} (h : Invalid bytes) (before : List UInt8) :
    ∃ cause after, decode.run (.between before bytes) = .error (.malformed cause) after := by
  obtain ⟨lead, rest, rfl, hlead⟩ := h
  refine ⟨.compressedNumber lead.toNat, .between (before ++ [lead]) rest, ?_⟩
  unfold decode
  rw [run_byte_bind, if_neg (by omega), if_neg (by omega), if_neg (by omega)]
  rfl

theorem run_of_truncated {bytes : List UInt8} (h : Truncated bytes) (before : List UInt8) :
    ∃ after, decode.run (.between before bytes) = .error .outOfBounds after := by
  unfold decode
  rcases h with rfl | ⟨form, lead, rest, rfl, hlead, hshort⟩
  · exact ⟨_, run_byte_bind_end _ before⟩
  rw [List.length_cons] at hshort
  rw [run_byte_bind]
  cases form with
  | one => exact absurd hshort (Nat.not_lt.mpr (Nat.succ_le_succ (Nat.zero_le _)))
  | two =>
      simp only [Form.width] at hshort
      obtain rfl : rest = [] := List.length_eq_zero_iff.mp (by omega)
      rw [if_neg (Nat.not_lt.mpr hlead.1), if_pos hlead.2]
      exact ⟨_, run_byte_bind_end _ _⟩
  | four =>
      obtain ⟨hlow, hhigh⟩ := hlead
      rw [if_neg (by omega), if_neg (by omega), if_pos hhigh]
      rcases rest with - | ⟨b1, - | ⟨b2, - | ⟨b3, others⟩⟩⟩
      · exact ⟨_, run_byte_bind_end _ _⟩
      · rw [run_byte_bind]
        exact ⟨_, run_byte_bind_end _ _⟩
      · rw [run_byte_bind, run_byte_bind]
        exact ⟨_, run_byte_bind_end _ _⟩
      · simp only [Form.width, List.length_cons] at hshort
        omega

/-- What reading a number should answer at a byte string: the number that it begins with, in the
form that its first byte tells, and an error that tells a first byte of no form from an end that
comes too early. -/
structure ReadsExactly (before bytes : List UInt8) : Prop where
  ok_iff (n : Nat) (after : Cursor) : decode.run (.between before bytes) = .ok n after ↔
    ∃ (form : Form) (number rest : List UInt8), bytes = number ++ rest ∧ form.Holds number n ∧
      (∀ lead ∈ number.head?, form.Leads lead) ∧ after = .between (before ++ number) rest
  malformed_iff : (∃ cause after,
    decode.run (.between before bytes) = .error (.malformed cause) after) ↔ Invalid bytes
  outOfBounds_iff : (∃ after, decode.run (.between before bytes) = .error .outOfBounds after) ↔
    Truncated bytes
  error_iff : (∃ error after, decode.run (.between before bytes) = .error error after) ↔
    Invalid bytes ∨ Truncated bytes

/-- The answer in each of the cases. -/
theorem run_cases (before bytes : List UInt8) :
    (∃ (form : Form) (number rest : List UInt8) (n : Nat), bytes = number ++ rest ∧
        form.Holds number n ∧
        decode.run (.between before bytes) = .ok n (.between (before ++ number) rest)) ∨
      (Invalid bytes ∧ ∃ cause after,
        decode.run (.between before bytes) = .error (.malformed cause) after) ∨
      (Truncated bytes ∧ ∃ after,
        decode.run (.between before bytes) = .error .outOfBounds after) := by
  rcases number_cases bytes with ⟨form, number, rest, n, rfl, hholds⟩ | hinvalid | htruncated
  · exact .inl ⟨form, number, rest, n, rfl, hholds, run_of_holds hholds before rest⟩
  · exact .inr (.inl ⟨hinvalid, run_of_invalid hinvalid before⟩)
  · exact .inr (.inr ⟨htruncated, run_of_truncated htruncated before⟩)

/-- The answers are different, so each tells which case it is. -/
theorem readsExactly (before bytes : List UInt8) : ReadsExactly before bytes := by
  have hcases := run_cases before bytes
  refine ⟨fun n after => ⟨fun hrun => ?_, ?_⟩, ⟨?_, fun h => run_of_invalid h before⟩,
    ⟨?_, fun h => run_of_truncated h before⟩, ⟨?_, ?_⟩⟩
  · rcases hcases with ⟨form, number, rest, other, hbytes, hholds, hnumber⟩ |
      ⟨-, cause, last, herror⟩ | ⟨-, last, herror⟩
    · cases hnumber.symm.trans hrun
      exact ⟨form, number, rest, hbytes, hholds, hholds.leads, rfl⟩
    · cases herror.symm.trans hrun
    · cases herror.symm.trans hrun
  · rintro ⟨form, number, rest, rfl, hholds, -, rfl⟩
    exact run_of_holds hholds before rest
  · rintro ⟨cause, after, hrun⟩
    rcases hcases with ⟨_, _, _, _, -, -, hnumber⟩ | ⟨hinvalid, -⟩ | ⟨-, last, herror⟩
    · cases hnumber.symm.trans hrun
    · exact hinvalid
    · cases herror.symm.trans hrun
  · rintro ⟨after, hrun⟩
    rcases hcases with ⟨_, _, _, _, -, -, hnumber⟩ | ⟨-, cause, last, herror⟩ | ⟨htruncated, -⟩
    · cases hnumber.symm.trans hrun
    · cases herror.symm.trans hrun
    · exact htruncated
  · rintro ⟨error, after, hrun⟩
    rcases hcases with ⟨_, _, _, _, -, -, hnumber⟩ | ⟨hinvalid, -⟩ | ⟨htruncated, -⟩
    · cases hnumber.symm.trans hrun
    · exact .inl hinvalid
    · exact .inr htruncated
  · rintro (hinvalid | htruncated)
    · obtain ⟨cause, after, herror⟩ := run_of_invalid hinvalid before
      exact ⟨_, after, herror⟩
    · obtain ⟨after, herror⟩ := run_of_truncated htruncated before
      exact ⟨_, after, herror⟩

/-- A number is written in the shortest form that has room for it. -/
theorem exists_shortest {n : Nat} (h : n < 2 ^ 29) : ∃ form : Form, form.Holds (encode n) n ∧
    ∀ other : Form, n < 2 ^ other.bits → form.width ≤ other.width := by
  unfold encode
  split
  case isTrue hone =>
    refine ⟨.one, Form.holds_encode hone, fun other _ => ?_⟩
    cases other <;> decide
  case isFalse hone =>
    split
    case isTrue htwo =>
      refine ⟨.two, Form.holds_encode htwo, fun other hroom => ?_⟩
      cases other with
      | one => exact absurd hroom hone
      | two => exact Nat.le_refl _
      | four => decide
    case isFalse htwo =>
      refine ⟨.four, Form.holds_encode h, fun other hroom => ?_⟩
      cases other with
      | one => exact absurd hroom hone
      | two => exact absurd hroom htwo
      | four => exact Nat.le_refl _

/-- A number of at most 29 bits is read back from its shortest form, wherever it stands. Any byte
string is read as the number that it begins with: in one, two or four bytes, as the first byte
tells, with the bits that the mark leaves, most significant first. Reading fails exactly if the
first byte is of no form or a byte is missing. -/
theorem compressed_numbers_exact (before bytes : List UInt8) :
    (∀ n < 2 ^ 29,
      (∃ form : Form, form.Holds (encode n) n ∧
        ∀ other : Form, n < 2 ^ other.bits → form.width ≤ other.width) ∧
      decode.run (.between before (encode n ++ bytes)) =
        .ok n (.between (before ++ encode n) bytes)) ∧
    ReadsExactly before bytes :=
  ⟨fun _ h => ⟨exists_shortest h, reads_encode h before bytes⟩, readsExactly before bytes⟩

/-- The last number of the longest form, and the first byte behind those of numbers. -/
theorem compressed_numbers_exact_last :
    decode.run (.between [0x03] (encode 0x1FFFFFFF ++ [0xE0])) =
        .ok 0x1FFFFFFF (.between [0x03, 0xDF, 0xFF, 0xFF, 0xFF] [0xE0]) ∧
      ∃ cause after, decode.run (.between [] [0xE0]) = .error (.malformed cause) after := by
  refine ⟨((compressed_numbers_exact [0x03] [0xE0]).1 0x1FFFFFFF (by decide)).2, ?_⟩
  exact (compressed_numbers_exact [] [0xE0]).2.malformed_iff.mpr ⟨0xE0, [], rfl, by decide⟩

/-!
## Signed numbers
-/

/-- A number of `bits` bits in two's complement, rotated by one bit to the left. -/
def rotated (bits : Nat) (n : Int) : Nat :=
  (2 * n % 2 ^ bits).toNat + if n < 0 then 1 else 0

/-- The form of a signed number: the shortest one that has room for it. -/
def signedForm (n : Int) : Form :=
  if -0x40 ≤ n ∧ n < 0x40 then .one
  else if -0x2000 ≤ n ∧ n < 0x2000 then .two
  else .four

/-- The bytes of a signed number of at most 29 bits. -/
def encodeSigned (n : Int) : List UInt8 :=
  (signedForm n).encode (rotated (signedForm n).bits n)

theorem rotated_lt {bits : Nat} (hbits : 0 < bits) (n : Int) : rotated bits n < 2 ^ bits := by
  obtain ⟨k, rfl⟩ : ∃ k, bits = k + 1 := ⟨bits - 1, by omega⟩
  have hpow : (2 : Int) ^ (k + 1) = 2 * 2 ^ k := by rw [Int.pow_succ, Int.mul_comm]
  have hnat : (2 : Nat) ^ (k + 1) = 2 * 2 ^ k := by rw [Nat.pow_succ, Nat.mul_comm]
  have hcast : ((2 ^ k : Nat) : Int) = 2 ^ k := by push_cast; rfl
  have hpos : (0 : Int) < 2 ^ k := by
    rw [← hcast]
    exact_mod_cast Nat.two_pow_pos k
  -- The remainder is even, so there is room for the sign.
  have hrest : 2 * n % (2 * 2 ^ k) = 2 * (n % 2 ^ k) := Int.mul_emod_mul_of_pos _ _ (by decide)
  have hlt := Int.emod_lt_of_pos n hpos
  have hnonneg := Int.emod_nonneg n (Int.ne_of_gt hpos)
  unfold rotated
  rw [hpow, hrest, hnat]
  split <;> omega

/-- A signed number is passed over as one number. -/
theorem reads_encodeSigned (n : Int) :
    Reads decode (encodeSigned n) (rotated (signedForm n).bits n) := by
  refine reads_form (signedForm n) (rotated_lt ?_ n)
  cases signedForm n <;> decide

/-!
## Tokens
-/

theorem tokenTable?_lt {tag table : Nat} (h : tokenTable? tag = some table) :
    tag < 3 ∧ table < 0x1C := by
  unfold tokenTable? at h
  split at h <;> cases h <;> decide

/-- A token is read from a number: the table of its tag and its row are added up. -/
theorem reads_decodeToken {bytes : List UInt8} {n table : Nat} (hread : Reads decode bytes n)
    (htable : tokenTable? (n % 4) = some table)
    (hsum : table * 0x1000000 + n / 4 < UInt32.size) :
    Reads decodeToken bytes (Token.ofNat (table * 0x1000000 + n / 4)) := by
  unfold decodeToken
  rw [← List.append_nil bytes]
  refine reads_bind hread ?_
  simp only [htable]
  exact reads_map Token.ofNat (reads_ofExcept (Bounded.add_eq_ok hsum))

/-- A token of a row that fits a token is read back. -/
theorem reads_encodeToken {tag table row : Nat} (htable : tokenTable? tag = some table)
    (hrow : row < 0x1000000) :
    Reads decodeToken (encodeToken tag row) (Token.ofParts table row) := by
  have hlt := tokenTable?_lt htable
  have htag : (row * 4 + tag) % 4 = tag := by omega
  have hquotient : (row * 4 + tag) / 4 = row := by omega
  have hsum : table * 0x1000000 + row < UInt32.size := by
    simp only [UInt32.size]
    omega
  have hparts : Token.ofNat (table * 0x1000000 + row) = Token.ofParts table row := by
    unfold Token.ofNat Token.ofParts
    rw [Nat.mod_eq_of_lt (Nat.lt_trans hlt.2 (by decide)), Nat.mod_eq_of_lt hrow]
  have hread := reads_decodeToken (reads_encode (n := row * 4 + tag) (by omega))
    (htag.symm ▸ htable) (hquotient.symm ▸ hsum)
  rwa [hquotient, hparts] at hread

end CompressedNumber
end AssemblyBrowser
