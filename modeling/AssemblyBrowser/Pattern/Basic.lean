import AssemblyBrowser.Text.Blank
import AssemblyBrowser.Unicode.Case
import AssemblyBrowser.Unicode.Category

/-!
# Search patterns

What a single place in a search pattern accepts.

A pattern is a regular expression. Its meaning is a function on sets of places in
a text: from the places where a match begins to the places where it may end.
-/

namespace AssemblyBrowser

/-!
## Sets of characters
-/

/-- A set of characters. -/
inductive CharSet where
  | range (first last : Char)
  | digits
  | blanks
  | words
  | categories (names : List String)
  | script (ranges : Unicode.Ranges)
  | alphabetic
  | cased
  | caseIgnorable
  | complement (set : CharSet)
  | union (first second : CharSet)
  | intersection (first second : CharSet)
  /-- The characters of a set and those that differ from them only in case. -/
  | folded (set : CharSet)
  | foldedAscii (set : CharSet)
  deriving Inhabited

namespace CharSet

def single (c : Char) : CharSet := .range c c

def none : CharSet := .range 'b' 'a'

def all : CharSet := .range (Char.ofNat 0) (Char.ofNat 0x10FFFF)

/-- The characters of the first set that are not in the second. -/
def difference (first second : CharSet) : CharSet := .intersection first (.complement second)

def symmetricDifference (first second : CharSet) : CharSet :=
  .union (difference first second) (difference second first)

def unionAll (sets : List CharSet) : CharSet := sets.foldl .union none

def complementIf (negated : Bool) (set : CharSet) : CharSet :=
  if negated then .complement set else set

def swapAscii (c : Char) : Char :=
  if c.isLower then c.toUpper else if c.isUpper then c.toLower else c

def contains : CharSet → Char → Bool
  | range first last, c => first ≤ c && c ≤ last
  | digits, c => Unicode.isDigit c
  | blanks, c => Blank.isBlank c
  | words, c => Unicode.isWord c
  | categories names, c => Unicode.hasCategory names c
  | script ranges, c => ranges.contains c.toNat
  | alphabetic, c => Unicode.isAlphabetic c
  | cased, c => Unicode.isCased c
  | caseIgnorable, c => Unicode.isCaseIgnorable c
  | complement set, c => !set.contains c
  | union first second, c => first.contains c || second.contains c
  | intersection first second, c => first.contains c && second.contains c
  | folded set, c => (Unicode.caseVariants c).any set.contains
  | foldedAscii set, c => set.contains c || set.contains (swapAscii c)

/-- Whether a set has no members beyond ASCII, as far as its form shows. -/
def isAscii : CharSet → Bool
  | range first last => last < first || last.toNat < 0x80
  | union first second => first.isAscii && second.isAscii
  | intersection first second => first.isAscii || second.isAscii
  | foldedAscii set => set.isAscii
  | _ => false

end CharSet

/-!
## Patterns
-/

/-- A condition on a place in a text. -/
inductive Boundary where
  | textStart
  | textEnd
  | lineStart
  | lineEnd
  /-- Lines that end with a line feed, a carriage return or both. -/
  | anyLineStart
  | anyLineEnd
  | wordStart (wordSet : CharSet)
  | wordEnd (wordSet : CharSet)
  /-- No word in front of the place. -/
  | wordStartHalf (wordSet : CharSet)
  /-- No word behind the place. -/
  | wordEndHalf (wordSet : CharSet)
  | wordEdge (wordSet : CharSet)
  | noWordEdge (wordSet : CharSet)
  deriving Inhabited

/-- A place in a text: the characters in front of it and behind it. -/
structure TextPlace where
  before : Option Char
  after : Option Char

namespace Boundary

def holds : Boundary → TextPlace → Bool
  | textStart, place => place.before.isNone
  | textEnd, place => place.after.isNone
  | lineStart, place => place.before.all (· == '\n')
  | lineEnd, place => place.after.all (· == '\n')
  | anyLineStart, place =>
      match place.before with
      | none => true
      | some c => c == '\n' || (c == '\r' && place.after != some '\n')
  | anyLineEnd, place =>
      match place.after with
      | none => true
      | some c => c == '\r' || (c == '\n' && place.before != some '\r')
  | wordStart wordSet, place =>
      !place.before.any wordSet.contains && place.after.any wordSet.contains
  | wordEnd wordSet, place => place.before.any wordSet.contains && !place.after.any wordSet.contains
  | wordStartHalf wordSet, place => !place.before.any wordSet.contains
  | wordEndHalf wordSet, place => !place.after.any wordSet.contains
  | wordEdge wordSet, place => place.before.any wordSet.contains != place.after.any wordSet.contains
  | noWordEdge wordSet, place =>
      place.before.any wordSet.contains == place.after.any wordSet.contains

end Boundary

/-- A regular expression. -/
inductive Pattern where
  | empty
  | one (set : CharSet)
  | boundary (condition : Boundary)
  | sequence (first second : Pattern)
  | choice (first second : Pattern)
  /-- At least `least` times, and at most `most` times if there is a limit. -/
  | repeated (pattern : Pattern) (least : Nat) (most : Option Nat)
  deriving Inhabited

/-- A set of places in a text, as one truth value for each place in order. -/
abbrev Places := List Bool

namespace Places

def union (first second : Places) : Places := List.zipWith or first second

def isEmpty (places : Places) : Bool := !places.any id

/-- The places one behind those of a set whose character is accepted. -/
def advance (accepts : Char → Bool) (text : List Char) (places : Places) : Places :=
  false :: List.zipWith (fun present c => present && accepts c) places text

/-- The places of a set at which a condition holds. -/
def restrict (holds : TextPlace → Bool) (context : List TextPlace) (places : Places) : Places :=
  List.zipWith (fun present place => present && holds place) places context

/-- Applies a step until nothing new turns up; `fuel` bounds the number of times. -/
def closure (step : Places → Places) : (fuel : Nat) → (all new : Places) → Places
  | 0, all, _ => all
  | fuel + 1, all, new =>
      let next := List.zipWith (fun present known => present && !known) (step new) all
      if next.isEmpty then all else closure step fuel (union all next) next

def iterate (step : Places → Places) : (count : Nat) → Places → Places
  | 0, places => places
  | count + 1, places => if places.isEmpty then places else iterate step count (step places)

/-- All places that up to `count` applications of a step lead to. -/
def upTo (step : Places → Places) : (count : Nat) → Places → Places
  | 0, places => places
  | count + 1, places =>
      let next := step places
      if next.isEmpty then places else union places (upTo step count next)

end Places

/-- The places of a text, from the one in front of its first character on. -/
def textPlaces (before : Option Char) : List Char → List TextPlace
  | [] => [⟨before, none⟩]
  | c :: rest => ⟨before, some c⟩ :: textPlaces (some c) rest

namespace Pattern

/-- The places where matches may end that begin at the given places. -/
def ends (text : List Char) (context : List TextPlace) : Pattern → Places → Places
  | empty, places => places
  | one set, places => places.advance set.contains text
  | boundary condition, places => places.restrict condition.holds context
  | sequence first second, places => ends text context second (ends text context first places)
  | choice first second, places =>
      Places.union (ends text context first places) (ends text context second places)
  | repeated pattern least most, places =>
      let step := ends text context pattern
      let start := Places.iterate step least places
      match most with
      | none => Places.closure step context.length start start
      | some most => Places.upTo step (most - least) start

/-- Whether a pattern matches some part of a text. -/
def occursIn (pattern : Pattern) (text : String) : Bool :=
  let chars := text.toList
  let context := textPlaces none chars
  !(ends chars context pattern (context.map fun _ => true)).isEmpty

def sequenceAll : List Pattern → Pattern
  | [] => empty
  | [pattern] => pattern
  | pattern :: rest => sequence pattern (sequenceAll rest)

def choiceAll : List Pattern → Pattern
  | [] => empty
  | [pattern] => pattern
  | pattern :: rest => choice pattern (choiceAll rest)

end Pattern
end AssemblyBrowser
