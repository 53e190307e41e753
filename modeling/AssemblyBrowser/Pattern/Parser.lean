import AssemblyBrowser.Pattern.Reader

/-!
# The notation of patterns

Alternatives, repetitions, groups, bracketed classes and flags. What is read is
the pattern with all flags already taken into account.
-/

namespace AssemblyBrowser
namespace PatternReader

/-! ## Bracketed classes -/

/-- An operator between the sets in a bracketed class. -/
inductive SetOperator where
  | intersection
  | difference
  | symmetricDifference

def SetOperator.apply : SetOperator → CharSet → CharSet → CharSet
  | intersection, first, second => .intersection first second
  | difference, first, second => .difference first second
  | symmetricDifference, first, second => .symmetricDifference first second

abbrev Pending := Option (SetOperator × CharSet)

/-- Applies the pending operator to its second operand. -/
def settle (flags : PatternFlags) (pending : Pending) (second : CharSet) : CharSet :=
  match pending with
  | none => second
  | some (operator, first) => operator.apply (foldIf flags first) (foldIf flags second)

/-- Reads an ASCII class in brackets and colons; if there is none, nothing is read. -/
def asciiClassItem? : PatternReader (Option CharSet) := do
  let saved ← get
  match saved.rest with
  | '[' :: ':' :: rest =>
      let negated := rest.head? == some '^'
      let rest := if negated then rest.tail else rest
      let name := rest.takeWhile (· != ':')
      let after := rest.drop name.length
      match asciiClass? (String.ofList name), after with
      | some set, ':' :: ']' :: after =>
          PatternReader.advance (saved.rest.length - after.length)
          return some (.complementIf negated set)
      | _, _ => return none
  | _ => return none

/-- Reads one end of a range or a class inside brackets. -/
def setItem : PatternReader Item := do
  let c ← current
  if c = '\\' then escape
  else
    advance 1
    return .literal c

def itemSet : Item → PatternReader CharSet
  | .literal c => return .single c
  | .set set => return set
  | .boundary _ => failure

/-- The character after the next one, space left out. -/
def second? : PatternReader (Option Char) := do
  let s ← get
  let rest := s.rest.tail
  return (if s.flags.ignoreSpace then dropSpace false rest else rest).head?

/-- Reads a character, a class or a range inside brackets. -/
def setRange : PatternReader CharSet := do
  let first ← setItem
  skipSpace
  let c ← current
  let next ← second?
  if c ≠ '-' ∨ next = some ']' ∨ next = some '-' then itemSet first
  else
    advanceSpace
    let _ ← current
    match first, ← setItem with
    | .literal low, .literal high => if low ≤ high then return .range low high else failure
    | _, _ => failure

/-- Reads hyphens at the beginning of a class, which stand for themselves; `fuel` bounds their
number. -/
def leadingHyphens : (fuel : Nat) → PatternReader Bool
  | 0 => return false
  | fuel + 1 => do
      if (← current) = '-' then
        advanceSpace
        let _ ← leadingHyphens fuel
        return true
      else return false

/-- Reads the head of a bracketed class: whether it is negated, and the characters that stand for
themselves there. -/
def bracketHead : PatternReader (Bool × CharSet) := do
  advanceSpace
  let negated := (← current) == '^'
  if negated then advanceSpace
  if ← leadingHyphens (← remaining).length then
    let _ ← current
    return (negated, .single '-')
  if (← current) = ']' then
    advanceSpace
    let _ ← current
    return (negated, .single ']')
  return (negated, .none)

/-- The set of a bracketed class under the flags. -/
def closeBracket (negated : Bool) (set : CharSet) : PatternReader CharSet := do
  let flags := (← get).flags
  checked flags (.complementIf negated (foldIf flags set))

/-- Reads a bracketed class behind its head. `union` is the union of the items since the pending
operator; `fuel` bounds the number of items at all depths. -/
def bracketBody (negated : Bool) :
    (fuel : Nat) → (pending : Pending) → (union : CharSet) → PatternReader CharSet
  | 0, _, _ => failure
  | fuel + 1, pending, union => do
      skipSpace
      let flags := (← get).flags
      match ← remaining with
      | [] => failure
      | ']' :: _ =>
          advance 1
          closeBracket negated (settle flags pending union)
      | '[' :: _ =>
          match ← asciiClassItem? with
          | some set => bracketBody negated fuel pending (.union union set)
          | none =>
              let (innerNegated, head) ← bracketHead
              let inner ← bracketBody innerNegated fuel none head
              bracketBody negated fuel pending (.union union inner)
      | '&' :: '&' :: _ =>
          advance 2
          bracketBody negated fuel (some (.intersection, settle flags pending union)) .none
      | '-' :: '-' :: _ =>
          advance 2
          bracketBody negated fuel (some (.difference, settle flags pending union)) .none
      | '~' :: '~' :: _ =>
          advance 2
          bracketBody negated fuel (some (.symmetricDifference, settle flags pending union)) .none
      | _ =>
          let set ← setRange
          bracketBody negated fuel pending (.union union set)

def bracket : PatternReader CharSet := do
  let fuel := (← remaining).length + 1
  let (negated, head) ← bracketHead
  bracketBody negated fuel none head

/-! ## Flags and groups -/

def switch (flags : PatternFlags) (letter : Char) (on : Bool) : PatternFlags :=
  match letter with
  | 'i' => { flags with ignoreCase := on }
  | 'm' => { flags with multiLine := on }
  | 's' => { flags with dotAll := on }
  | 'u' => { flags with unicode := on }
  | 'R' => { flags with anyLineEnd := on }
  | 'x' => { flags with ignoreSpace := on }
  | _ => flags

def flagLetters : List Char := ['i', 'm', 's', 'U', 'u', 'R', 'x']

/-- Reads flags up to a colon or a closing bracket, which is left. The letters so far are `seen`,
hyphen included; a letter stands once, and one follows the hyphen. -/
def flagItems :
    (fuel : Nat) → (seen : List Char) → PatternFlags → PatternReader (List Char × PatternFlags)
  | 0, _, _ => failure
  | fuel + 1, seen, flags => do
      let c ← current
      if c = ':' ∨ c = ')' then
        if seen.head? = some '-' then failure
        return (seen, flags)
      if seen.contains c then failure
      if c ≠ '-' ∧ !flagLetters.contains c then failure
      advance 1
      let _ ← current
      flagItems fuel (c :: seen) (switch flags c (!seen.contains '-'))

/-- Whether a character may stand in the name of a group. -/
def isNameChar (first : Bool) (c : Char) : Bool :=
  if first then c == '_' || Unicode.isAlphabetic c
  else c == '_' || c == '.' || c == '[' || c == ']' || Unicode.isAlphanumeric c

/-- Reads the name of a group up to its closing bracket. No two groups have one name. -/
def groupName : PatternReader Unit := do
  let s ← get
  let name := s.rest.takeWhile (· != '>')
  match name, s.rest.drop name.length with
  | first :: others, _ :: rest =>
      let text := String.ofList name
      if !isNameChar true first || !others.all (isNameChar false) || s.names.contains text then
        failure
      set { s with rest := rest, names := text :: s.names }
  | _, _ => failure

/-- What an opening bracket begins. -/
inductive Opening where
  /-- A group, with the flags inside it. -/
  | group (flags : PatternFlags)
  /-- Flags for what follows. -/
  | flags (flags : PatternFlags)

def opening : PatternReader Opening := do
  advance 1
  skipSpace
  let flags := (← get).flags
  for lookAround in ["?=", "?!", "?<=", "?<!"] do
    if lookAround.toList.isPrefixOf (← remaining) then failure
  if (← accept "?P<") then
    groupName
    return .group flags
  if (← accept "?<") then
    groupName
    return .group flags
  if (← accept "?") then
    let (letters, flags) ← flagItems ((← remaining).length + 1) [] flags
    let last ← current
    advance 1
    if last = ')' then
      if letters.isEmpty then failure
      return .flags flags
    return .group flags
  return .group flags

/-! ## Patterns -/

/-- A pattern with the depth of its notation. -/
structure Parsed where
  pattern : Pattern
  depth : Nat

/-- A part of a sequence; flags are no pattern and cannot be repeated. -/
inductive Part where
  | pattern (parsed : Parsed)
  | flags

def maxDepth : Nat := 250

/-- The sequence of parts, which are given in reverse. -/
def sequenceOf (parts : List Part) : Parsed :=
  let patterns := parts.reverse.filterMap fun
    | .pattern parsed => some parsed
    | .flags => none
  let deepest := (patterns.map Parsed.depth).foldl max 0
  { pattern := .sequenceAll (patterns.map Parsed.pattern)
    depth := if 1 < parts.length then deepest + 1 else deepest }

/-- The choice between branches, which are given in reverse. -/
def choiceOf (branches : List Parsed) : Parsed :=
  let branches := branches.reverse
  let deepest := (branches.map Parsed.depth).foldl max 0
  { pattern := .choiceAll (branches.map Parsed.pattern)
    depth := if 1 < branches.length then deepest + 1 else deepest }

def literalSet (flags : PatternFlags) (c : Char) : CharSet :=
  if !flags.ignoreCase then .single c
  else if flags.unicode then .unionAll ((Unicode.caseVariants c).map .single)
  else .foldedAscii (.single c)

def itemPattern (flags : PatternFlags) : Item → Pattern
  | .literal c => .one (literalSet flags c)
  | .set set => .one set
  | .boundary condition => .boundary condition

def dotSet (flags : PatternFlags) : PatternReader CharSet := do
  if !flags.unicode then failure
  if flags.dotAll then return .all
  if flags.anyLineEnd then return .complement (.union (.single '\r') (.single '\n'))
  return .complement (.single '\n')

def primitive : PatternReader Pattern := do
  let flags := (← get).flags
  match ← current with
  | '\\' => return itemPattern flags (← escape)
  | '.' =>
      advance 1
      return .one (← dotSet flags)
  | '^' =>
      advance 1
      return .boundary
        (if !flags.multiLine then .textStart
          else if flags.anyLineEnd then .anyLineStart
          else .lineStart)
  | '$' =>
      advance 1
      return .boundary
        (if !flags.multiLine then .textEnd
          else if flags.anyLineEnd then .anyLineEnd
          else .lineEnd)
  | c =>
      advance 1
      return .one (literalSet flags c)

/-- Reads a count in braces: at least, and at most if there is a limit. -/
def countRange : PatternReader (Nat × Option Nat) := do
  advanceSpace
  let least ← decimal
  let most ←
    if (← current) = ',' then do
      advanceSpace
      if (← current) = '\x7d' then pure none else pure (some (← decimal))
    else pure (some least)
  if (← current) ≠ '\x7d' then failure
  advanceSpace
  if most.any (· < least) then failure
  return (least, most)

/-- Reads how often the pattern before is repeated. -/
def repetition : PatternReader (Nat × Option Nat) := do
  let range ←
    match ← current with
    | '?' => do advance 1; pure (0, some 1)
    | '*' => do advance 1; pure (0, none)
    | '+' => do advance 1; pure (1, none)
    | _ => countRange
  if (← peek?) = some '?' then advance 1
  return range

def repeatLast (range : Nat × Option Nat) : List Part → PatternReader (List Part)
  | .pattern last :: others =>
      return .pattern ⟨.repeated last.pattern range.1 range.2, last.depth + 1⟩ :: others
  | _ => failure

/-- Reads alternatives. `branches` and `parts` are those so far, in reverse; `inGroup` holds inside
a group, which a closing bracket ends. `fuel` bounds the number of parts at all depths. -/
def alternatives (inGroup : Bool) :
    (fuel : Nat) → (branches : List Parsed) → (parts : List Part) → PatternReader Parsed
  | 0, _, _ => failure
  | fuel + 1, branches, parts => do
      skipSpace
      match ← peek? with
      | none => if inGroup then failure else return choiceOf (sequenceOf parts :: branches)
      | some ')' =>
          if !inGroup then failure
          advance 1
          return choiceOf (sequenceOf parts :: branches)
      | some '|' =>
          advance 1
          alternatives inGroup fuel (sequenceOf parts :: branches) []
      | some '(' =>
          let outer := (← get).flags
          match ← opening with
          | .flags flags =>
              modify fun s => { s with flags := flags }
              alternatives inGroup fuel branches (.flags :: parts)
          | .group flags =>
              modify fun s => { s with flags := flags }
              let inner ← alternatives true fuel [] []
              modify fun s => { s with flags := outer }
              alternatives inGroup fuel branches
                (.pattern { inner with depth := inner.depth + 1 } :: parts)
      | some '[' =>
          let set ← bracket
          alternatives inGroup fuel branches (.pattern ⟨.one set, 1⟩ :: parts)
      | some c =>
          if c = '?' ∨ c = '*' ∨ c = '+' ∨ c = '\x7b' then
            if parts.isEmpty then failure
            let range ← repetition
            alternatives inGroup fuel branches (← repeatLast range parts)
          else
            let pattern ← primitive
            alternatives inGroup fuel branches (.pattern ⟨pattern, 0⟩ :: parts)

end PatternReader

/-! ## Size -/

/-- About how many bytes a set takes in a compiled pattern. -/
def CharSet.weight : CharSet → Nat
  | words => 45000
  | categories _ => 20000
  | alphabetic => 40000
  | script _ => 2000
  | digits => 3000
  | blanks => 1000
  | cased => 15000
  | caseIgnorable => 15000
  | complement set => set.weight + 600
  | union first second => first.weight + second.weight
  | intersection first second => first.weight + second.weight
  | folded set => set.weight
  | foldedAscii set => set.weight
  | range first last => if last < first then 0 else 8

/-- About how many bytes a compiled pattern takes. -/
def Pattern.weight : Pattern → Nat
  | empty => 0
  | one set => 64 + set.weight
  | boundary _ => 32
  | sequence first second => first.weight + second.weight
  | choice first second => first.weight + second.weight + 24
  | repeated pattern least most =>
      match most with
      | none => (max least 1) * pattern.weight + 24
      | some most => most * (pattern.weight + 24)

def Pattern.maxWeight : Nat := 10 * 0x100000

/-- The pattern that a text denotes; case does not count unless the text says so. -/
def Pattern.parse? (text : String) : Option Pattern := do
  let chars := text.toList
  let start : PatternState := { rest := chars, flags := { ignoreCase := true } }
  let (parsed, _) ← (PatternReader.alternatives false (chars.length + 1) [] []).run start
  if PatternReader.maxDepth < parsed.depth ∨ maxWeight < parsed.pattern.weight then none
  else some parsed.pattern

end AssemblyBrowser
