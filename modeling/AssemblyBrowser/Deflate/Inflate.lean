import AssemblyBrowser.Bytes.Basic

/-!
# Inflation

Compressed data is a sequence of bits, taken from the lowest bit of each byte
upwards. A prefix code is given by the lengths of its words: words of one length
are consecutive numbers in the order of their symbols, and follow on from the
shorter words.

Compressed data consists of blocks. A block holds bytes as they are, or symbols
for bytes and for copies of earlier output.
-/

namespace AssemblyBrowser.Deflate

/-!
## Prefix codes
-/

def bit? (data : Bytes) (position : Nat) : Option Nat :=
  data[position / 8]?.map fun byte => byte.toNat / Nat.pow 2 (position % 8) % 2

/-- The number whose bits, lowest first, begin at a position. -/
def number? (data : Bytes) : (count position : Nat) → Option Nat
  | 0, _ => some 0
  | count + 1, position => do
      let bit ← bit? data position
      let rest ← number? data count (position + 1)
      return bit + 2 * rest

def maxLength : Nat := 15

/-- A prefix code: how many words have each length, and the symbols in the order of words. -/
structure PrefixCode where
  counts : List Nat
  symbols : Array Nat

namespace PrefixCode

def symbolsOfLength (lengths : List Nat) (length : Nat) : List Nat :=
  lengths.zipIdx.filterMap fun (l, symbol) => if l = length then some symbol else none

/-- The code with these lengths of words; symbols of length zero have none. -/
def ofLengths (lengths : List Nat) : PrefixCode :=
  let groups := (List.range' 1 maxLength).map (symbolsOfLength lengths)
  { counts := groups.map List.length, symbols := groups.flatten.toArray }

/-- The part of all infinite bit sequences that begin with a word, in units of `2 ^ -maxLength`. -/
def coverage (lengths : List Nat) : Nat :=
  (lengths.map fun l => if l = 0 then 0 else Nat.pow 2 (maxLength - l)).foldr (· + ·) 0

/-- Whether every bit sequence begins with a word and with no second one. -/
def isComplete (lengths : List Nat) : Bool := coverage lengths == Nat.pow 2 maxLength

/-- The complete code of these lengths, or one with no more than a single word. -/
def complete? (lengths : List Nat) : Option PrefixCode :=
  if isComplete lengths || (lengths.filter (· != 0)).length ≤ 1 then some (ofLengths lengths)
  else none

/-- Follows the bits from a position through the words of each length. The bits so far make up
`word`; the words of the present length begin at `first`, and their symbols at `index`. -/
def decodeFrom (code : PrefixCode) (data : Bytes) :
    (counts : List Nat) → (position word first index : Nat) → Option (Nat × Nat)
  | [], _, _, _, _ => none
  | count :: counts, position, word, first, index => do
      let word := 2 * word + (← bit? data position)
      if word < first + count then
        return (← code.symbols[index + (word - first)]?, position + 1)
      decodeFrom code data counts (position + 1) word (2 * (first + count)) (index + count)

/-- The symbol whose word begins at a position, and the position behind the word. -/
def decode? (code : PrefixCode) (data : Bytes) (position : Nat) : Option (Nat × Nat) :=
  code.decodeFrom data code.counts position 0 0 0

end PrefixCode

/-!
## Blocks
-/

/-- How far the data has been read, in bits, and what has come out. -/
structure Progress where
  position : Nat
  output : Bytes

/-- The shortest length and the number of extra bits of each symbol for a length, from 257 on. -/
def lengthCodes : Array (Nat × Nat) :=
  #[(3, 0), (4, 0), (5, 0), (6, 0), (7, 0), (8, 0), (9, 0), (10, 0), (11, 1), (13, 1), (15, 1),
    (17, 1), (19, 2), (23, 2), (27, 2), (31, 2), (35, 3), (43, 3), (51, 3), (59, 3), (67, 4),
    (83, 4), (99, 4), (115, 4), (131, 5), (163, 5), (195, 5), (227, 5), (258, 0)]

/-- The shortest distance and the number of extra bits of each symbol for a distance. -/
def distanceCodes : Array (Nat × Nat) :=
  #[(1, 0), (2, 0), (3, 0), (4, 0), (5, 1), (7, 1), (9, 2), (13, 2), (17, 3), (25, 3), (33, 4),
    (49, 4), (65, 5), (97, 5), (129, 6), (193, 6), (257, 7), (385, 7), (513, 8), (769, 8),
    (1025, 9), (1537, 9), (2049, 10), (3073, 10), (4097, 11), (6145, 11), (8193, 12), (12289, 12),
    (16385, 13), (24577, 13)]

def endOfBlock : Nat := 256

/-- The number that a table entry and its extra bits stand for. -/
def extended? (data : Bytes) (table : Array (Nat × Nat)) (index position : Nat) :
    Option (Nat × Nat) := do
  let (base, extra) ← table[index]?
  return (base + (← number? data extra position), position + extra)

/-- Repeats output from a distance back. What lies before the beginning of the output is zero. -/
def copyBack (distance : Nat) : (count : Nat) → Bytes → Bytes
  | 0, output => output
  | count + 1, output =>
      let byte := if distance ≤ output.size then output[output.size - distance]?.getD 0 else 0
      copyBack distance count (output.push byte)

/-- Reads symbols up to the end of a block; `fuel` bounds their number. -/
def symbols? (data : Bytes) (literals distances : PrefixCode) :
    (fuel : Nat) → Progress → Option Progress
  | 0, _ => none
  | fuel + 1, progress => do
      let (symbol, position) ← literals.decode? data progress.position
      if symbol < endOfBlock then
        symbols? data literals distances fuel
          { position, output := progress.output.push (UInt8.ofNat symbol) }
      else if symbol = endOfBlock then
        return { progress with position }
      else
        let (length, position) ← extended? data lengthCodes (symbol - endOfBlock - 1) position
        let (symbol, position) ← distances.decode? data position
        let (distance, position) ← extended? data distanceCodes symbol position
        symbols? data literals distances fuel
          { position, output := copyBack distance length progress.output }

/-- Copies a block of plain bytes, which begins at the next whole byte with its length and the
complement of its length. -/
def plainBlock? (data : Bytes) (progress : Progress) : Option Progress := do
  let start := (progress.position + 7) / 8
  let length ← data.uintAt? start 2
  let complement ← data.uintAt? (start + 2) 2
  if length + complement ≠ 0xFFFF then none
  let bytes ← data.slice? (start + 4) length
  return { position := 8 * (start + 4 + length), output := progress.output ++ bytes }

/-- The lengths of words in the fixed code for literals. -/
def fixedLiterals : List Nat :=
  List.replicate 144 8 ++ List.replicate 112 9 ++ List.replicate 24 7 ++ List.replicate 8 8

/-- The lengths of words in the fixed code for distances. -/
def fixedDistances : List Nat := List.replicate 32 5

/-- The order in which the lengths of the code for lengths are given. -/
def lengthOrder : List Nat := [16, 17, 18, 0, 8, 7, 9, 6, 10, 5, 11, 4, 12, 3, 13, 2, 14, 1, 15]

/-- The `count` three-bit numbers from a position. -/
def shortNumbers? (data : Bytes) : (count position : Nat) → Option (List Nat)
  | 0, _ => some []
  | count + 1, position => do
      let number ← number? data 3 position
      return number :: (← shortNumbers? data count (position + 3))

/-- Reads lengths of words until there are `total`; `known` has them in reverse. Three symbols
stand for repetitions: of the length before, and of zero. -/
def wordLengths? (data : Bytes) (code : PrefixCode) (total : Nat) :
    (fuel : Nat) → (known : List Nat) → (position : Nat) → Option (List Nat × Nat)
  | 0, _, _ => none
  | fuel + 1, known, position =>
      if known.length = total then some (known.reverse, position)
      else if total < known.length then none
      else do
        let (symbol, position) ← code.decode? data position
        if symbol < 16 then wordLengths? data code total fuel (symbol :: known) position
        else if symbol = 16 then
          let last ← known.head?
          let more ← number? data 2 position
          wordLengths? data code total fuel (List.replicate (3 + more) last ++ known) (position + 2)
        else if symbol = 17 then
          let more ← number? data 3 position
          wordLengths? data code total fuel (List.replicate (3 + more) 0 ++ known) (position + 3)
        else
          let more ← number? data 7 position
          wordLengths? data code total fuel (List.replicate (11 + more) 0 ++ known) (position + 7)

/-- Reads the codes at the head of a block: their lengths, themselves compressed. -/
def blockCodes? (data : Bytes) (position : Nat) : Option (PrefixCode × PrefixCode × Nat) := do
  let literalCount := (← number? data 5 position) + 257
  let distanceCount := (← number? data 5 (position + 5)) + 1
  let lengthCount := (← number? data 4 (position + 10)) + 4
  let given ← shortNumbers? data lengthCount (position + 14)
  if 286 < literalCount ∨ 30 < distanceCount then none
  let lengths := (List.range 19).map fun symbol =>
    (((lengthOrder.zip given).find? (·.1 == symbol)).map (·.2)).getD 0
  if !PrefixCode.isComplete lengths then none
  let total := literalCount + distanceCount
  let (all, position) ←
    wordLengths? data (.ofLengths lengths) total (total + 1) [] (position + 14 + 3 * lengthCount)
  let distances ← PrefixCode.complete? (all.drop literalCount)
  let literals ← PrefixCode.complete? (all.take literalCount)
  return (literals, distances, position)

/-- Reads blocks up to the last one; `fuel` bounds their number and that of the symbols in each. -/
def blocks? (data : Bytes) : (fuel : Nat) → Progress → Option Bytes
  | 0, _ => none
  | fuel + 1, progress => do
      let isLast ← bit? data progress.position
      let kind ← number? data 2 (progress.position + 1)
      let progress := { progress with position := progress.position + 3 }
      let progress ←
        match kind with
        | 0 => plainBlock? data progress
        | 1 =>
            symbols? data (.ofLengths fixedLiterals) (.ofLengths fixedDistances) (fuel + 1) progress
        | 2 => do
            let (literals, distances, position) ← blockCodes? data progress.position
            symbols? data literals distances (fuel + 1) { progress with position }
        | _ => none
      if isLast = 1 then return progress.output
      blocks? data fuel progress

/-- What compressed data stands for. Every block and every symbol takes at least one bit. -/
def inflate? (data : Bytes) : Option Bytes :=
  blocks? data (8 * data.size + 1) { position := 0, output := #[] }

end AssemblyBrowser.Deflate
