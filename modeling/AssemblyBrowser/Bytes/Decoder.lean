import AssemblyBrowser.Bytes.Bounded

/-!
# Cursors and decoders

A cursor is a position in a byte string. A decoder moves the cursor while it
reads; when it fails, the cursor stays where the failing step left it, so that
what has been consumed is visible. Single steps that fail do not move it.
-/

namespace AssemblyBrowser

/-- A position in a byte string. -/
structure Cursor where
  data : Bytes
  pos : Nat := 0

namespace Cursor

/-- The number of bytes from the position to the end. -/
def remaining (cursor : Cursor) : Nat := cursor.data.size - cursor.pos

def hasMore (cursor : Cursor) : Bool := decide (cursor.pos < cursor.data.size)

end Cursor

/-- A step, or a sequence of steps, over a cursor. -/
abbrev Decoder (α : Type) := EStateM Error Cursor α

namespace Decoder

/-- Runs a decoder from the start of the data and keeps its answer only. -/
def parse {α : Type} (decoder : Decoder α) (data : Bytes) : Except Error α :=
  match decoder.run { data := data } with
  | .ok value _ => .ok value
  | .error error _ => .error error

/-- Runs a decoder and keeps both its answer and the cursor that it left. -/
def step {α : Type} (decoder : Decoder α) (cursor : Cursor) : Except Error α × Cursor :=
  match decoder.run cursor with
  | .ok value cursor => (.ok value, cursor)
  | .error error cursor => (.error error, cursor)

/-- A computation that leaves the cursor where it is. -/
def ofExcept {α : Type} : Except Error α → Decoder α
  | .ok value => return value
  | .error error => throw error

def position : Decoder Nat := return (← get).pos

def remaining : Decoder Nat := return (← get).remaining

/-- Moves to a position that is not past the end. -/
def seek (pos : Nat) : Decoder Unit := do
  let cursor ← get
  if pos ≤ cursor.data.size then set { cursor with pos := pos } else throw .outOfBounds

def advance (count : Nat) : Decoder Unit := do
  let cursor ← get
  seek (cursor.pos + count)

/-- Moves forward to the next multiple of `alignment`. -/
def align (alignment : Nat) : Decoder Unit := do
  let cursor ← get
  let past ← ofExcept (Bounded.remainder cursor.pos alignment)
  let missing ← ofExcept (Bounded.subtract alignment past)
  advance (← ofExcept (Bounded.remainder missing alignment))

def peek : Decoder UInt8 := do
  let cursor ← get
  match cursor.data[cursor.pos]? with
  | some byte => return byte
  | none => throw .outOfBounds

def take (length : Nat) : Decoder Bytes := do
  let cursor ← get
  let bytes ← ofExcept (Bounded.slice cursor.data cursor.pos length)
  set { cursor with pos := cursor.pos + length }
  return bytes

/-- The next `width` bytes as an unsigned little-endian number. -/
def unsigned (width : Nat) : Decoder Nat := do
  let bytes ← take width
  return Bytes.littleEndian bytes.toList

/-- The next four bytes as an unsigned machine word. -/
def word : Decoder UInt32 := return UInt32.ofNat (← unsigned 4)

/-- The next `width` bytes as a signed little-endian number. -/
def signed (width : Nat) : Decoder Int := do
  let n ← unsigned width
  return Bytes.twosComplement (8 * width) n

def byte : Decoder Nat := unsigned 1

/-- Runs a decoder and returns to where it began if it fails. -/
def transaction {α : Type} (decoder : Decoder α) : Decoder α := fun cursor =>
  match decoder.run cursor with
  | .ok value after => .ok value after
  | .error error after => .error error { after with pos := cursor.pos }

def repeated {α : Type} (decoder : Decoder α) : (count : Nat) → Decoder (List α)
  | 0 => return []
  | count + 1 => do
      let value ← decoder
      let rest ← repeated decoder count
      return value :: rest

def malformed {α : Type} (cause : Malformation) : Decoder α := throw (.malformed cause)

end Decoder
end AssemblyBrowser
