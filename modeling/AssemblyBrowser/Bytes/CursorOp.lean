import AssemblyBrowser.Bytes.TextField

/-!
# Cursor operations as data

Every way to move a cursor, as one type, so that sequences of operations and
nested transactions can be written down, run and reasoned about.
-/

namespace AssemblyBrowser

/-- An operation on a cursor that is not a transaction. -/
inductive CursorStep where
  | seek (pos : Nat)
  | advance (count : Nat)
  | align (alignment : Nat)
  | peek
  | unsigned (width : Nat)
  | signed (width : Nat)
  | compressedNumber
  | compressedToken
  | sevenBitNumber
  | sevenBitText
  | compressedText
  | terminatedText
  | take (length : Nat)
  deriving Inhabited

/-- An operation on a cursor. -/
inductive CursorOp where
  | single (step : CursorStep)
  | transaction (ops : List CursorOp)
  deriving Inhabited

/-- What an operation answers. -/
inductive CursorAnswer where
  | moved
  | number (value : Int)
  | token (value : Token)
  | text (value : String)
  | bytes (value : Bytes)
  /-- The answer of every operation that was run, with the cursor after it; the transaction
  is committed if none of them failed. -/
  | steps (answers : List (Except Error CursorAnswer × Cursor)) (committed : Bool)

def CursorStep.decoder : CursorStep → Decoder CursorAnswer
  | seek pos => do Decoder.seek pos; return .moved
  | advance count => do Decoder.advance count; return .moved
  | align alignment => do Decoder.align alignment; return .moved
  | peek => return .number (← Decoder.peek).toNat
  | unsigned width => return .number (← Decoder.unsigned width)
  | signed width => return .number (← Decoder.signed width)
  | compressedNumber => return .number (← CompressedNumber.decode)
  | compressedToken => return .token (← CompressedNumber.decodeToken)
  | sevenBitNumber => return .number (← SevenBitNumber.decode)
  | sevenBitText => return .text (← TextField.sevenBitPrefixed)
  | compressedText => return .text (← TextField.compressedPrefixed)
  | terminatedText => return .text (← TextField.terminated)
  | take length => return .bytes (← Decoder.take length)

namespace CursorOp

mutual
/-- Runs an operation; the answer comes with the cursor after it. -/
def run : CursorOp → Cursor → Except Error CursorAnswer × Cursor
  | single step, cursor => Decoder.step step.decoder cursor
  | transaction ops, cursor =>
      let (answers, after, committed) := runUntilError ops cursor
      (.ok (.steps answers committed), if committed then after else cursor)

/-- Runs operations up to and including the first that fails. -/
def runUntilError : List CursorOp → Cursor →
    List (Except Error CursorAnswer × Cursor) × Cursor × Bool
  | [], cursor => ([], cursor, true)
  | op :: ops, cursor =>
      match run op cursor with
      | (.error error, after) => ([(.error error, after)], after, false)
      | (.ok answer, after) =>
          let (answers, last, committed) := runUntilError ops after
          ((.ok answer, after) :: answers, last, committed)
end

/-- Runs operations one after another, the failing ones included. -/
def runAll : List CursorOp → Cursor → List (Except Error CursorAnswer × Cursor)
  | [], _ => []
  | op :: ops, cursor =>
      let (answer, after) := run op cursor
      (answer, after) :: runAll ops after

end CursorOp
end AssemblyBrowser
