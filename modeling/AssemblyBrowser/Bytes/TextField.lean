import AssemblyBrowser.Bytes.CompressedNumber

/-!
# Text fields

Text inside binary data is UTF-8 that is either preceded by its length or ended
by a zero byte.
-/

namespace AssemblyBrowser
namespace TextField

def sevenBitPrefixed : Decoder String := do
  let length ← SevenBitNumber.decode
  let start ← Decoder.position
  let bytes ← Decoder.take length
  match Utf8.decode bytes with
  | .ok text => return text
  | .error fault => Decoder.malformed (.invalidText start fault)

/-- Text after its length as a compressed number. -/
def compressedPrefixed : Decoder String := do
  let length ← CompressedNumber.decode
  let start ← Decoder.position
  let bytes ← Decoder.take length
  match Utf8.decode bytes with
  | .ok text => return text
  | .error fault => Decoder.malformed (.invalidCompressedText start fault)

/-- Where the text at a cursor ends: at a zero byte, or with the data. -/
def endOfText (cursor : Cursor) : Except Error Nat := do
  let rest ← Bounded.range cursor.data cursor.pos cursor.data.size
  match rest.findIdx? (· == 0) with
  | some length => Bounded.add Bounded.positions cursor.pos length
  | none => return cursor.data.size

/-- Text up to a zero byte, which is consumed too, or up to the end of the data. -/
def terminated : Decoder String := do
  let cursor ← get
  let stop ← Decoder.ofExcept (endOfText cursor)
  let next ← Decoder.ofExcept (Bounded.add Bounded.positions stop 1)
  set { cursor with pos := min next cursor.data.size }
  let bytes ← Decoder.ofExcept (Bounded.range cursor.data cursor.pos stop)
  match Utf8.decode bytes with
  | .ok text => return text
  | .error fault => Decoder.malformed (.invalidText cursor.pos fault)

/-- The bytes of a text after its length as a seven-bit number. -/
def encodeSevenBitPrefixed (text : String) : List UInt8 :=
  let bytes := Utf8.encode text
  SevenBitNumber.encode bytes.size ++ bytes.toList

end TextField
end AssemblyBrowser
