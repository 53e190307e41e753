import AssemblyBrowser.Metadata.Token
import AssemblyBrowser.Text.Utf8

/-!
# Errors

What can go wrong while files are read, modules are searched and nodes are
rendered. A malformed file carries its cause; the wording of every error is in
one place. A computation that crashes has failed too, but not with an answer:
what takes the place of an error does not take the place of a crash.
-/

/-! ## Panics

Plain indexing and the arithmetic of machine words do not answer an error when
they leave their range: they end the computation, each cause with its own wording.
-/

namespace AssemblyBrowser

/-- An operation whose result may not fit a machine word. -/
inductive Arithmetic where
  | add
  | subtract
  | multiply
  deriving DecidableEq

/-- What ended a computation. -/
inductive Panic where
  | index (position length : Nat)
  | range (start stop length : Nat)
  | overflow (operation : Arithmetic)
  | zeroDivisor
  /-- A message that code of another origin gave, if it gave one. -/
  | raised (message : Option String)
  deriving DecidableEq

namespace Arithmetic

def verb : Arithmetic → String
  | add => "add"
  | subtract => "subtract"
  | multiply => "multiply"

end Arithmetic

namespace Panic

def message : Panic → String
  | index position length =>
      s!"index out of bounds: the len is {length} but the index is {position}"
  | range start stop length =>
      if stop < start then s!"slice index starts at {start} but ends at {stop}"
      else s!"range end index {stop} out of range for slice of length {length}"
  | overflow operation => "attempt to " ++ operation.verb ++ " with overflow"
  | zeroDivisor => "attempt to calculate the remainder with a divisor of zero"
  | raised text => text.getD "unknown cause"

end Panic

/-! ## Causes and errors -/

/-- What is wrong with a malformed file. -/
inductive Malformation where
  | compressedNumber (lead : Nat)
  | compressedToken (value : Nat)
  | sevenBitOverflow (bits : Nat)
  | invalidText (offset : Nat) (fault : Utf8.Fault)
  | invalidCompressedText (offset : Nat) (fault : Utf8.Fault)
  | noRuntimeHeaderDirectory
  | noOptionalHeader
  | noRuntimeHeader
  | rvaTooLarge (rva : Nat)
  | sectionOverflow (address size : Nat)
  | rvaOutsideSections (rva : Nat)
  | typeSpecToken (token : Token)
  | unresolvedType (token : Token)
  | constantElementType (element : Nat)
  | noTableStream
  | metadataSignature (found : Nat)
  | noStreams
  | streamOverflow (offset size : Nat)
  | elementType (element : Nat)
  | fieldSignatureHeader (header : Nat)
  | propertySignatureHeader (header : Nat)
  | runtimeHeaderSize (found : Nat)
  | runtimeHeaderWithoutMetadata
  | unterminatedString (index : Nat)
  | stringNotUtf8 (index : Nat)
  | escapedText
  | zipTooSmall (length : Nat)
  | zipWithoutEnd
  | zip64WithoutLocator
  | zip64End
  | centralHeader (offset : Nat)
  | localHeader (path : String)
  | negativeBundleSize (size : Int)
  | bundleFileCount (count : Int)
  deriving DecidableEq

namespace Malformation

def message : Malformation → String
  | compressedNumber lead => s!"Invalid compressed uint - {lead}"
  | compressedToken value => s!"Invalid compressed token - {value}"
  | sevenBitOverflow bits => s!"7-bit encoded integer overflow after {bits} bits"
  | invalidText offset fault => s!"Invalid UTF-8 string at offset {offset}: " ++ fault.message
  | invalidCompressedText offset fault =>
      s!"Invalid UTF-8 compressed string at offset {offset}: " ++ fault.message
  | noRuntimeHeaderDirectory => "File does not have a CLR runtime header directory"
  | noOptionalHeader => "File does not have an OptionalHeader"
  | noRuntimeHeader => "File does not have a CLR runtime header"
  | rvaTooLarge rva => s!"RVA too large to fit in u32: {rva}"
  | sectionOverflow address size =>
      s!"Section malformed, causing integer overflow - {address} + {size}"
  | rvaOutsideSections rva => s!"RVA could not be converted to offset - {rva}"
  | typeSpecToken token => "Invalid TypeSpec token - " ++ token.text
  | unresolvedType token => "Type token does not resolve - " ++ token.text
  | constantElementType element => "Invalid constant element type - 0x" ++ Hex.padded 2 element
  | noTableStream => "Metadata has no table stream"
  | metadataSignature found => "CIL_HEADER_MAGIC does not match - 0x" ++ Hex.padded 8 found
  | noStreams => "Metadata root has no streams"
  | streamOverflow offset size =>
      s!"Stream offset and size cause integer overflow - {offset} + {size}"
  | elementType element => "Unsupported element type in signature - 0x" ++ Hex.padded 2 element
  | fieldSignatureHeader header => "Invalid field signature header - 0x" ++ Hex.padded 2 header
  | propertySignatureHeader header =>
      "Invalid property signature header - 0x" ++ Hex.padded 2 header
  | runtimeHeaderSize found => s!"Invalid CLR header size: expected 72, got {found}"
  | runtimeHeaderWithoutMetadata => "CLR header does not point at metadata"
  | unterminatedString index => s!"String at {index} is not terminated"
  | stringNotUtf8 index => s!"String at {index} is not valid UTF-8"
  | escapedText => "Package metadata text could not be unescaped"
  | zipTooSmall length => s!"Zip archive too small - {length} bytes"
  | zipWithoutEnd => "Zip end of central directory not found"
  | zip64WithoutLocator => "Zip64 locator missing"
  | zip64End => "Zip64 end of central directory invalid"
  | centralHeader offset => s!"Invalid central directory header at {offset}"
  | localHeader path => "Invalid local header for " ++ path
  | negativeBundleSize size => s!"Negative bundle size - {size}"
  | bundleFileCount count => s!"Invalid bundle file count - {count}"

end Malformation

/-- Why an operation failed. -/
inductive Error where
  /-- The file is damaged. -/
  | malformed (cause : Malformation)
  /-- The data ends before a value does. -/
  | outOfBounds
  /-- The file is of a kind, or uses a feature, that is not handled. -/
  | notSupported
  /-- There is no data at all. -/
  | empty
  /-- The file system or a decompressor failed. -/
  | file (message : String)
  /-- A failure that is described by its message alone. -/
  | other (message : String)
  /-- The file is not a valid executable image. -/
  | invalidImage
  /-- A package manifest is not well-formed. -/
  | invalidXml
  /-- A session file is not well-formed. -/
  | invalidJson
  /-- A search pattern is not a regular expression. -/
  | invalidPattern
  | typeNotFound (token : Token)
  | memberNotFound (token : Token)
  | archiveNotLoaded (path : String)
  | unknownNode (place : String)
  | notDecompilable
  | recursionLimit (limit : Nat)
  /-- The archive store no longer answers. -/
  | storeClosed
  /-- The computation panicked. -/
  | panic (cause : Panic)
  /-- A recursion without a bound used up the stack. -/
  | stackOverflow
  deriving DecidableEq

namespace Error

def message : Error → String
  | malformed cause => "Malformed - " ++ cause.message
  | outOfBounds => "Out of Bound read would have occurred!"
  | notSupported => "This file type is not supported"
  | empty => "Provided input was empty"
  | file text => text
  | other text => text
  | invalidImage => "invalid PE"
  | invalidXml => "invalid XML"
  | invalidJson => "invalid JSON"
  | invalidPattern => "invalid regular expression"
  | typeNotFound token => "Failed to find type - " ++ token.text
  | memberNotFound token => "Failed to find member - " ++ token.text
  | archiveNotLoaded path => "Archive is not loaded - " ++ path
  | unknownNode place => "Unknown node - " ++ place
  | notDecompilable => "Node can not be decompiled"
  | recursionLimit limit => s!"Reach the maximum recursion level allowed - {limit}"
  | storeClosed => "Archive store worker has shut down"
  | panic cause => cause.message
  | stackOverflow => "stack overflow"

/-- Whether an error is a crash and no answer. -/
def isCrash : Error → Bool
  | panic _ => true
  | stackOverflow => true
  | _ => false

/-- The value of a computation whose failure is an answer as well; a crash stays a crash. -/
def attempt {α : Type} : Except Error α → Except Error (Option α)
  | .ok value => .ok (some value)
  | .error error => if error.isCrash then .error error else .ok none

end Error
end AssemblyBrowser
