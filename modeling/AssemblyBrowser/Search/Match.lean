import AssemblyBrowser.Decimal.Rounding
import AssemblyBrowser.Tree.Node

/-!
# Matches

A match is a node with a fitness. Short names fit better than long ones, and
names that a compiler made up fit worst.
-/

namespace AssemblyBrowser

/-- How well a name fits. -/
inductive Fitness where
  | generated
  /-- A name of so many characters. -/
  | ofLength (length : Nat) (positive : 0 < length)
  deriving DecidableEq, Repr

namespace Fitness

/-- The fitness of a name; its arity does not count. -/
def ofName (name : String) : Fitness :=
  if isGeneratedName name then generated
  else ofLength (max (stripArity name).length 1) (Nat.le_max_right _ _)

/-- The order of names from the best to the worst. -/
def compareBest : Fitness → Fitness → Ordering
  | ofLength first _, ofLength second _ => Ord.compare first second
  | ofLength _ _, generated => .lt
  | generated, ofLength _ _ => .gt
  | generated, generated => .eq

/-- The fitness as a binary64 number: one over the length, and zero for made-up names. -/
def bits : Fitness → Nat
  | generated => 0
  | ofLength length _ => Decimal.nearestBits Decimal.binary64 false ⟨1, length⟩

end Fitness

/-- A node that was searched for. -/
structure SearchMatch where
  node : Node
  fitness : Fitness
  deriving DecidableEq

namespace SearchMatch

def name (found : SearchMatch) : String := found.node.displayName

def location (found : SearchMatch) : String := found.node.description

def archivePath (found : SearchMatch) : String := found.node.address.archivePath

/-- The order of matches: by name, then the best fit first, then by location and archive. -/
def compare (first second : SearchMatch) : Ordering :=
  (NodeAddress.compareText first.name second.name)
    |>.then (first.fitness.compareBest second.fitness)
    |>.then (NodeAddress.compareText first.location second.location)
    |>.then (NodeAddress.compareText first.archivePath second.archivePath)

/-- Matches in their order; equal ones stay as they are. -/
def sort (found : List SearchMatch) : List SearchMatch :=
  found.mergeSort fun first second => (compare first second).isLE

end SearchMatch
end AssemblyBrowser
