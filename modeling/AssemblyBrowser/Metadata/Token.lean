import AssemblyBrowser.Text.Numeral

/-!
# Metadata tokens

A token names a row of a metadata table: the table in its highest byte, the row
in the 24 bits below. Row 0 names nothing.
-/

namespace AssemblyBrowser

/-- The name of a row of a metadata table. -/
structure Token where
  value : UInt32
  deriving DecidableEq, Hashable, Inhabited

namespace Token

def table (token : Token) : Nat := token.value.toNat / 0x1000000

def row (token : Token) : Nat := token.value.toNat % 0x1000000

/-- The token of a row of a table; of the row the lowest 24 bits count. -/
def ofParts (table row : Nat) : Token :=
  ⟨UInt32.ofNat ((table % 0x100) * 0x1000000 + row % 0x1000000)⟩

def ofNat (n : Nat) : Token := ⟨UInt32.ofNat n⟩

def toNat (token : Token) : Nat := token.value.toNat

def zero : Token := ⟨0⟩

def isNull (token : Token) : Bool := token.row == 0

def text (token : Token) : String := "0x" ++ Hex.padded 8 token.toNat

def description (token : Token) : String :=
  "Token(" ++ token.text ++ ", table: 0x" ++ Hex.padded 2 token.table ++ ", row: "
    ++ toString token.row ++ ")"

instance : Ord Token where
  compare a b := compare a.value b.value

theorem table_ofParts (table row : Nat) (ht : table < 0x100) :
    (ofParts table row).table = table := by
  unfold ofParts Token.table
  simp only [UInt32.toNat_ofNat']
  omega

theorem row_ofParts (table row : Nat) (hr : row < 0x1000000) : (ofParts table row).row = row := by
  unfold ofParts Token.row
  simp only [UInt32.toNat_ofNat']
  omega

end Token
end AssemblyBrowser
