/-!
# Source text

A listing is a sequence of lines and of blocks in braces. Since a block holds its
body, braces are balanced by construction; the text indents every line by its
depth.
-/

namespace AssemblyBrowser

/-- A piece of a listing. -/
inductive Source where
  | line (text : String)
  /-- A body between braces; `remark` stands behind the closing brace. -/
  | block (body : List Source) (remark : String)

namespace Source

def indentation : (level : Nat) → String
  | 0 => ""
  | level + 1 => "    " ++ indentation level

/-- A line at a level; an empty line stays empty. -/
def lineAt (level : Nat) (text : String) : String :=
  if text.isEmpty then "" else indentation level ++ text

mutual
def lines (level : Nat) : Source → List String
  | line text => [lineAt level text]
  | block body remark =>
      lineAt level "\x7b" :: linesOfAll (level + 1) body ++ [lineAt level ("\x7d" ++ remark)]

def linesOfAll (level : Nat) : List Source → List String
  | [] => []
  | piece :: rest => lines level piece ++ linesOfAll level rest
end

/-- The text of a listing; a line feed ends every line. -/
def text (listing : List Source) : String :=
  String.join ((linesOfAll 0 listing).map (· ++ "\n"))

end Source
end AssemblyBrowser
