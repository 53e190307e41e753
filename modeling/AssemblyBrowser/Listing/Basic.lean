import AssemblyBrowser.Listing.CSharp
import AssemblyBrowser.Listing.Il

/-!
# Listings

The languages in which a listing can be written: IL, and C# in each of its
versions.

The text of assemblies, types and members in each dialect.
-/

namespace AssemblyBrowser

/-!
## Dialects
-/

/-- A language of listings. -/
inductive Dialect where
  | il
  /-- A numbered version of C#. -/
  | csharp (version : Nat)
  /-- The newest version of C#. -/
  | csharpLatest
  deriving DecidableEq, Repr

namespace Dialect

def csharpVersions : List Nat := [1, 2, 3, 4, 5, 6, 7, 8, 9, 10, 11, 12]

def all : List Dialect := .il :: (csharpVersions.map .csharp ++ [.csharpLatest])

def name : Dialect → String
  | il => "IL"
  | csharp version => "CSharp_" ++ toString version
  | csharpLatest => "CSharp_Latest"

def ofName? (name : String) : Option Dialect := all.find? (·.name == name)

/-- The dialect that is used where none is asked for. -/
def standard : Dialect := csharpLatest

def isIl (dialect : Dialect) : Bool := dialect == il

/-- The version of C#; the newest one is above every number. -/
def csharpVersion? : Dialect → Option Nat
  | il => none
  | csharp version => some version
  | csharpLatest => some (UInt32.size - 1)

def fileExtension (dialect : Dialect) : String := if dialect.isIl then "il" else "cs"

end Dialect
end AssemblyBrowser

/-!
## Texts of listings
-/

namespace AssemblyBrowser.Listing

def ofAssembly (dialect : Dialect) (archivePath : String) (m : CodeModule) : String :=
  Source.text
    (if dialect.isIl then Il.assemblyListing archivePath m
      else CSharp.assemblyListing archivePath m)

def ofType (dialect : Dialect) (m : CodeModule) (token : Token) : Except Error String :=
  (if dialect.isIl then Il.typeListing m token else CSharp.typeListing m token).map Source.text

def ofMember (dialect : Dialect) (m : CodeModule) (token : Token) : Except Error String :=
  (if dialect.isIl then Il.memberListing m token else CSharp.memberListing m token).map Source.text

end AssemblyBrowser.Listing

/-! ## Renderers

A renderer writes the text of assemblies, types and members. The standard one
writes declarations.
-/

namespace AssemblyBrowser

/-- How texts are written. -/
structure Renderer where
  /-- The text of an assembly that is found under a path. -/
  assembly : Dialect → (path : String) → CodeModule → Except Error String
  /-- The text of the type of a token. -/
  type : Dialect → CodeModule → Token → Except Error String
  /-- The text of the member of a token. -/
  member : Dialect → CodeModule → Token → Except Error String

def Renderer.declarations : Renderer where
  assembly dialect path m := .ok (Listing.ofAssembly dialect path m)
  type := Listing.ofType
  member := Listing.ofMember

end AssemblyBrowser
