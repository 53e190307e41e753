import AssemblyBrowser.Bytes.Basic

/-!
# UTF-8 text

Names, paths and versions are stored as UTF-8. Strict decoding either gives the
text or says where and how the bytes break the encoding; lenient decoding puts
one replacement character in the place of each broken sequence.
-/

namespace AssemblyBrowser
namespace Utf8

/-- The first place at which bytes stop being UTF-8. -/
structure Fault where
  /-- The number of bytes before the broken sequence. -/
  index : Nat
  /-- The length of the broken sequence, unless the input ends inside it. -/
  length : Option Nat
  deriving DecidableEq, Repr

def Fault.message (fault : Fault) : String :=
  match fault.length with
  | some n => s!"invalid utf-8 sequence of {n} bytes from index {fault.index}"
  | none => s!"incomplete utf-8 byte sequence from index {fault.index}"

/-- The range of second bytes that may follow a lead byte, with the length of the sequence. -/
structure LeadClass where
  length : Nat
  low : UInt8
  high : UInt8

/-- What a lead byte of a sequence longer than one byte announces. -/
def leadClass (lead : UInt8) : Option LeadClass :=
  if 0xC2 ≤ lead ∧ lead ≤ 0xDF then some ⟨2, 0x80, 0xBF⟩
  else if lead = 0xE0 then some ⟨3, 0xA0, 0xBF⟩
  else if lead = 0xED then some ⟨3, 0x80, 0x9F⟩
  else if 0xE1 ≤ lead ∧ lead ≤ 0xEF then some ⟨3, 0x80, 0xBF⟩
  else if lead = 0xF0 then some ⟨4, 0x90, 0xBF⟩
  else if 0xF1 ≤ lead ∧ lead ≤ 0xF3 then some ⟨4, 0x80, 0xBF⟩
  else if lead = 0xF4 then some ⟨4, 0x80, 0x8F⟩
  else none

/-- How a sequence fares when `accepted` of its bytes have been seen and `owed` more are due. -/
inductive SequenceEnd where
  /-- All owed bytes were there. -/
  | complete
  /-- A byte that cannot continue the sequence, after so many accepted ones. -/
  | broken (accepted : Nat)
  /-- The input ended first. -/
  | unfinished
  deriving DecidableEq

/-- Consumes the continuation bytes of a sequence. -/
def continuation (accepted : Nat) : (owed : Nat) → List UInt8 → SequenceEnd
  | 0, _ => .complete
  | _ + 1, [] => .unfinished
  | owed + 1, b :: rest =>
      if 0x80 ≤ b ∧ b ≤ 0xBF then continuation (accepted + 1) owed rest else .broken accepted

/-- How the sequence that starts with `lead` ends; the length of a complete one comes first. -/
def sequence (lead : UInt8) (rest : List UInt8) : Nat × SequenceEnd :=
  if lead < 0x80 then (1, .complete)
  else
    match leadClass lead with
    | none => (1, .broken 1)
    | some { length, low, high } =>
        match rest with
        | [] => (length, .unfinished)
        | b :: rest =>
            if low ≤ b ∧ b ≤ high then (length, continuation 2 (length - 2) rest)
            else (length, .broken 1)

/-- The first fault of a byte string that starts at position `index`; `skip` bytes of the
current sequence have been checked already. -/
def firstFault (index skip : Nat) : List UInt8 → Option Fault
  | [] => none
  | b :: rest =>
      match skip with
      | skip + 1 => firstFault (index + 1) skip rest
      | 0 =>
          match sequence b rest with
          | (length, .complete) => firstFault (index + 1) (length - 1) rest
          | (_, .broken accepted) => some ⟨index, some accepted⟩
          | (_, .unfinished) => some ⟨index, none⟩

/-- The text that the bytes encode, or the first fault. -/
def decode (bytes : Bytes) : Except Fault String :=
  match String.fromUTF8? (ByteArray.mk bytes) with
  | some text => .ok text
  | none => .error ((firstFault 0 0 bytes.toList).getD ⟨0, none⟩)

def encode (text : String) : Bytes :=
  text.toUTF8.data

/-- The text of the bytes, each broken sequence replaced; `fuel` bounds the number of
replacements. -/
def decodeLossyFrom : (fuel : Nat) → Bytes → String
  | 0, _ => ""
  | fuel + 1, bytes =>
      match decode bytes with
      | .ok text => text
      | .error fault =>
          let text := ((decode (bytes.extract 0 fault.index)).toOption).getD ""
          match fault.length with
          | none => text ++ "\uFFFD"
          | some length =>
              text ++ "\uFFFD"
                ++ decodeLossyFrom fuel (bytes.extract (fault.index + length) bytes.size)

/-- The text of the bytes, with one replacement character for each broken sequence. -/
def decodeLossy (bytes : Bytes) : String :=
  decodeLossyFrom (bytes.size + 1) bytes

theorem decode_encode (text : String) : decode (encode text) = .ok text := by
  unfold decode encode String.fromUTF8?
  have h : (ByteArray.mk text.toUTF8.data).IsValidUTF8 := text.isValidUTF8
  rw [dif_pos h]
  rfl

end Utf8
end AssemblyBrowser
