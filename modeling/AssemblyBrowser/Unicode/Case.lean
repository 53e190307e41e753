import AssemblyBrowser.Unicode.CaseTable

/-!
# Letter case

The mapping of texts to small letters, in which a sigma at the end of a word has
a form of its own, and the characters that differ only in case.
-/

namespace AssemblyBrowser.Unicode

/-- The image of a code point under a table of runs. -/
def image? (runs : List MappingRun) (n : Nat) : Option Nat :=
  runs.findSome? fun (first, last, step, offset) =>
    if first ≤ n ∧ n ≤ last ∧ (n - first) % step = 0 then some (n + offset).toNat else none

/-- Whether a code point is in the set with these changes of membership. -/
def inChanges (changes : List Nat) (n : Nat) : Bool :=
  (changes.takeWhile (· ≤ n)).length % 2 == 1

def isCased (c : Char) : Bool := inChanges casedChanges c.toNat

/-- Whether a character is passed over in the search for letters with case. -/
def isCaseIgnorable (c : Char) : Bool := inChanges caseIgnorableChanges c.toNat

/-- Whether the first character that counts is a letter with case. -/
def beginsCased (chars : List Char) : Bool :=
  (chars.dropWhile isCaseIgnorable).head?.any isCased

def lowerChar (c : Char) : List Char :=
  if c.toNat < 0x80 then [c.toLower]
  else if c = '\u0130' then ['i', '\u0307']
  else [((image? lowerRuns c.toNat).map Char.ofNat).getD c]

/-- Maps characters to small letters; `before` has those passed so far, in reverse. A sigma that
ends a word takes its final form. -/
def lowerFrom : (before : List Char) → List Char → List Char
  | _, [] => []
  | before, c :: rest =>
      let letters :=
        if c = '\u03A3' then
          (if beginsCased before && !beginsCased rest then ['\u03C2'] else ['\u03C3'])
        else lowerChar c
      letters ++ lowerFrom (c :: before) rest

def lowerChars (chars : List Char) : List Char := lowerFrom [] chars

def lower (text : String) : String := String.ofList (lowerChars text.toList)

/-- What a code point has in common with all that differ from it only in case. -/
def foldPoint (n : Nat) : Nat := (image? foldRuns n).getD n

/-- The code points that a table maps to a code point. -/
def preimages (runs : List MappingRun) (n : Nat) : List Nat :=
  runs.filterMap fun (first, last, step, offset) =>
    let source := (n : Int) - offset
    if first ≤ source ∧ source ≤ last ∧ (source - first) % step = 0 then some source.toNat
    else none

/-- The characters that differ from a character only in case, itself included. -/
def caseVariants (c : Char) : List Char :=
  let folded := foldPoint c.toNat
  (folded :: preimages foldRuns folded).map Char.ofNat

end AssemblyBrowser.Unicode
