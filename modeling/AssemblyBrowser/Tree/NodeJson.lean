import AssemblyBrowser.Json.Basic
import AssemblyBrowser.Tree.Node

/-!
# Nodes in JSON

Addresses and nodes are sent to clients and come back from them.
-/

namespace AssemblyBrowser

namespace NodeAddress

/-- An address as an object; the entry is left out where there is none. -/
def toJson (address : NodeAddress) : Json :=
  .object
    ([("archivePath", .text address.archivePath)]
      ++ (address.containerPath.toList.map fun path => ("containerSubPath", .text path))
      ++ [("kind", .text address.kind.name),
        ("displayKey", .text address.displayKey),
        ("symbolToken", .ofNat address.symbolToken.toNat),
        ("parentSymbolToken", .ofNat address.parentToken.toNat),
        ("decompilable", .boolean address.decompilable)])

def fieldNames : List String :=
  ["archivePath", "containerSubPath", "kind", "displayKey", "symbolToken", "parentSymbolToken",
    "decompilable"]

/-- Reads an address; all but the archive and the kind may be left out. -/
def ofJson? (json : Json) : Option NodeAddress :=
  match json.fields? fieldNames with
  | some
      [archivePath, containerPath, kind, displayKey, symbolToken, parentToken, decompilable] => do
      let archivePath ← Json.required? Json.text? archivePath
      let containerPath ← Json.orDefault? Json.optionalText? none containerPath
      let kind ← Json.required? (Json.choice? NodeKind.ofName?) kind
      let displayKey ← Json.orDefault? Json.text? "" displayKey
      let symbolToken ← Json.orDefault? Json.word? 0 symbolToken
      let parentToken ← Json.orDefault? Json.word? 0 parentToken
      let decompilable ← Json.orDefault? Json.boolean? false decompilable
      return { archivePath, containerPath, kind, displayKey, symbolToken := .ofNat symbolToken,
               parentToken := .ofNat parentToken, decompilable }
  | _ => none

end NodeAddress

namespace Node

def toJson (node : Node) : Json :=
  .object
    [("address", node.address.toJson), ("displayName", .text node.displayName),
      ("description", .text node.description), ("mayHaveChildren", .boolean node.mayHaveChildren),
      ("modifierFlags", .ofNat node.modifiers.bits), ("badgeFlags", .ofNat node.badges.bits)]

def fieldNames : List String :=
  ["address", "displayName", "description", "mayHaveChildren", "modifierFlags", "badgeFlags"]

/-- Reads a node; no field may be left out, and unknown flags are dropped. -/
def ofJson? (json : Json) : Option Node :=
  match json.fields? fieldNames with
  | some [address, displayName, description, mayHaveChildren, modifiers, badges] => do
      let address ← Json.required? NodeAddress.ofJson? address
      let displayName ← Json.required? Json.text? displayName
      let description ← Json.required? Json.text? description
      let mayHaveChildren ← Json.required? Json.boolean? mayHaveChildren
      let modifiers ← Json.required? Json.word? modifiers
      let badges ← Json.required? Json.word? badges
      return { address, displayName, description, mayHaveChildren,
               modifiers := .ofBits modifiers, badges := .ofBits badges }
  | _ => none

end Node
end AssemblyBrowser
