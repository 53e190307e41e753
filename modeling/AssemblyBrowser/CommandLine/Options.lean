/-!
# Options

A command line is a list of words. Words that begin with a hyphen are options;
the others are operands. The value of an option is the rest of its word or the
word that follows, which must not look like an option itself.
-/

namespace AssemblyBrowser.CommandLine

/-- What is wrong with a command line. -/
inductive UsageError where
  | unknownOption (word : String)
  | missingValue (option : String)
  | unexpectedValue (option : String)
  | repeatedOption (option : String)
  | invalidNumber (option value : String)
  | emptyPath (name : String)
  | missingOption (option : String)
  | missingOperand (name : String)
  | unexpectedOperand (word : String)
  | missingCommand
  | unknownCommand (word : String)
  deriving DecidableEq, Repr

namespace UsageError

def message : UsageError → String
  | unknownOption word => "unexpected argument '" ++ word ++ "' found"
  | missingValue option => "a value is required for '--" ++ option ++ "' but none was supplied"
  | unexpectedValue option => "unexpected value for '--" ++ option ++ "' found"
  | repeatedOption option => "the argument '--" ++ option ++ "' cannot be used multiple times"
  | invalidNumber option value => "invalid value '" ++ value ++ "' for '--" ++ option ++ "'"
  | emptyPath name => "a value is required for '" ++ name ++ "' but none was supplied"
  | missingOption option => "the required argument '--" ++ option ++ "' was not provided"
  | missingOperand name => "the required argument <" ++ name ++ "> was not provided"
  | unexpectedOperand word => "unexpected argument '" ++ word ++ "' found"
  | missingCommand => "a subcommand is required but one was not provided"
  | unknownCommand word => "unrecognized subcommand '" ++ word ++ "'"

end UsageError

/-- An option that a command understands. -/
structure OptionForm where
  name : String
  letter : Option Char := none
  takesValue : Bool := false
  /-- Whether the option may be given more than once. -/
  repeats : Bool := false

/-- The options and operands of a command line, and the words after the point where reading
ended. -/
structure Words where
  /-- The names of the options with their values; an option that takes none has an empty one. -/
  options : List (String × String) := []
  operands : List String := []
  rest : List String := []

namespace Words

def withOption (words : Words) (name value : String) : Words :=
  { words with options := (name, value) :: words.options }

def withOperand (words : Words) (operand : String) : Words :=
  { words with operands := operand :: words.operands }

def values (words : Words) (name : String) : List String :=
  (words.options.filter (·.1 == name)).map (·.2)

def value? (words : Words) (name : String) : Option String := (words.values name).getLast?

def has (words : Words) (name : String) : Bool := (words.value? name).isSome

end Words

/-- What a word asks for by itself: options with their values, and perhaps one whose value
follows. -/
structure OptionWord where
  options : List (String × String) := []
  pending : Option String := none

/-- What the letters of a word ask for. A letter that takes a value takes all that follows it. -/
def readLetters (forms : List OptionForm) (word : String) :
    List Char → Except UsageError OptionWord
  | [] => .ok {}
  | letter :: rest =>
      match forms.find? (·.letter == some letter) with
      | none => .error (.unknownOption word)
      | some form =>
          if form.takesValue then
            match rest with
            | [] => .ok { pending := some form.name }
            | '=' :: value => .ok { options := [(form.name, String.ofList value)] }
            | value => .ok { options := [(form.name, String.ofList value)] }
          else if rest.head? = some '=' then .error (.unexpectedValue form.name)
          else do
            let following ← readLetters forms word rest
            return { following with options := (form.name, "") :: following.options }

/-- What a word with two hyphens asks for; `chars` are the ones behind them. -/
def readLong (forms : List OptionForm) (word : String) (chars : List Char) :
    Except UsageError OptionWord :=
  let name := String.ofList (chars.takeWhile (· != '='))
  match forms.find? (·.name == name), chars.dropWhile (· != '=') with
  | none, _ => .error (.unknownOption word)
  | some form, _ :: value =>
      if form.takesValue then .ok { options := [(form.name, String.ofList value)] }
      else .error (.unexpectedValue form.name)
  | some form, [] =>
      if form.takesValue then .ok { pending := some form.name }
      else .ok { options := [(form.name, "")] }

/-- Whether a word looks like an option. A lone hyphen does not. -/
def isOption (word : String) : Bool := word.startsWith "-" && word != "-"

/-- Reads words. With `untilOperand`, the first operand ends reading. -/
def readWords (forms : List OptionForm) (untilOperand : Bool) :
    List String → Except UsageError Words
  | [] => .ok {}
  | word :: rest =>
      if word = "--" then
        if untilOperand then .error (.unknownOption word) else .ok { operands := rest }
      else if isOption word then do
        let read ←
          match word.toList with
          | '-' :: '-' :: chars => readLong forms word chars
          | chars => readLetters forms word chars.tail
        match read.pending, rest with
        | none, rest =>
            let words ← readWords forms untilOperand rest
            return { words with options := read.options ++ words.options }
        | some name, [] => throw (.missingValue name)
        | some name, value :: rest =>
            if isOption value then throw (.missingValue name)
            let words ← readWords forms untilOperand rest
            return { words with options := read.options ++ (name, value) :: words.options }
      else if untilOperand then .ok { rest := word :: rest }
      else return (← readWords forms untilOperand rest).withOperand word

/-- Reads words and refuses options that are given too often. -/
def parseWords (forms : List OptionForm) (untilOperand : Bool) (args : List String) :
    Except UsageError Words := do
  let words ← readWords forms untilOperand args
  match forms.find? fun form => !form.repeats && 1 < (words.values form.name).length with
  | some form => throw (.repeatedOption form.name)
  | none => return words

end AssemblyBrowser.CommandLine
