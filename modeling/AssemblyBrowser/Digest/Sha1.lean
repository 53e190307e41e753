import AssemblyBrowser.Bytes.Basic

/-!
# SHA-1

The digest from which the token of a public key is taken.
-/

namespace AssemblyBrowser
namespace Sha1

/-- The chaining value: five words. -/
structure State where
  a : UInt32
  b : UInt32
  c : UInt32
  d : UInt32
  e : UInt32

def initial : State := ⟨0x67452301, 0xEFCDAB89, 0x98BADCFE, 0x10325476, 0xC3D2E1F0⟩

def rotate (word : UInt32) (count : UInt32) : UInt32 :=
  (word <<< count) ||| (word >>> (32 - count))

/-- The bytes of a number, most significant first. -/
def bigEndian (width n : Nat) : List UInt8 := (Bytes.ofLittleEndian width n).reverse

/-- The message with a one bit, zero bits and its length behind it. -/
def pad (message : Bytes) : Bytes :=
  let zeros := (119 - message.size % 64) % 64
  message.push 0x80 ++ (Array.replicate zeros 0) ++ (bigEndian 8 (8 * message.size)).toArray

def wordAt (data : Bytes) (offset : Nat) : UInt32 :=
  (List.range 4).foldl (fun word i => word * 256 + (data.getD (offset + i) 0).toUInt32) 0

/-- Extends the sixteen words of a block to eighty. -/
def schedule (words : Array UInt32) : Array UInt32 :=
  (List.range' 16 64).foldl
    (fun w t =>
      w.push (rotate
        (w.getD (t - 3) 0 ^^^ w.getD (t - 8) 0 ^^^ w.getD (t - 14) 0 ^^^ w.getD (t - 16) 0) 1))
    words

def roundFunction (t : Nat) (b c d : UInt32) : UInt32 × UInt32 :=
  if t < 20 then ((b &&& c) ||| (~~~b &&& d), 0x5A827999)
  else if t < 40 then (b ^^^ c ^^^ d, 0x6ED9EBA1)
  else if t < 60 then ((b &&& c) ||| (b &&& d) ||| (c &&& d), 0x8F1BBCDC)
  else (b ^^^ c ^^^ d, 0xCA62C1D6)

def round (w : Array UInt32) (s : State) (t : Nat) : State :=
  let (f, k) := roundFunction t s.b s.c s.d
  ⟨rotate s.a 5 + f + s.e + k + w.getD t 0, s.a, rotate s.b 30, s.c, s.d⟩

def compress (data : Bytes) (s : State) (block : Nat) : State :=
  let words := ((List.range 16).map fun i => wordAt data (64 * block + 4 * i)).toArray
  let t := (List.range 80).foldl (round (schedule words)) s
  ⟨s.a + t.a, s.b + t.b, s.c + t.c, s.d + t.d, s.e + t.e⟩

def digest (message : Bytes) : List UInt8 :=
  let data := pad message
  let s := (List.range (data.size / 64)).foldl (compress data) initial
  [s.a, s.b, s.c, s.d, s.e].flatMap fun word => bigEndian 4 word.toNat

end Sha1
end AssemblyBrowser
