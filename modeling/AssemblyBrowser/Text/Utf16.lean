import AssemblyBrowser.Bytes.Basic

/-!
# UTF-16 text

String constants are stored as little-endian UTF-16. A unit that is half of no
pair is replaced.
-/

namespace AssemblyBrowser
namespace Utf16

/-- The units of a byte string; an odd last byte is dropped. -/
def units : List UInt8 → List Nat
  | a :: b :: rest => (a.toNat + 256 * b.toNat) :: units rest
  | _ => []

def decodeUnits : List Nat → List Char
  | [] => []
  | [u] => [if 0xD800 ≤ u ∧ u < 0xE000 then '\uFFFD' else Char.ofNat u]
  | u :: v :: rest =>
      if u < 0xD800 ∨ 0xE000 ≤ u then Char.ofNat u :: decodeUnits (v :: rest)
      else if u < 0xDC00 ∧ 0xDC00 ≤ v ∧ v < 0xE000 then
        Char.ofNat (0x10000 + (u - 0xD800) * 0x400 + (v - 0xDC00)) :: decodeUnits rest
      else '\uFFFD' :: decodeUnits (v :: rest)

def decodeLossy (bytes : Bytes) : String := String.ofList (decodeUnits (units bytes.toList))

end Utf16
end AssemblyBrowser
