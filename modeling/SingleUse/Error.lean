import SingleUse.Text.Digit
import SingleUse.Text.Utf8

/-!
# Errors

The ways in which an operation can fail, as causes.  `Error.message` gives the wording.
-/

namespace SingleUse

/-- Why a reported name is not inlined. -/
inductive Refusal where
  | noRead
  /-- The name is declared otherwise than as a variable. -/
  | notVariable (origin : String)
  | exported
  | notVariableStatement
  | loopHeader
  | ambient
  | written
  | inType
  | exportSpecifier
  | deleted
  | elementName
  | noValue
  | noKey
  | unsupportedKey (key : String)
  | insideDeclaration
deriving DecidableEq, Repr

/-- The wording of a refusal. -/
def Refusal.reason : Refusal → String
  | noRead => "no read to substitute"
  | notVariable origin => s!"{origin} bindings are not inlined"
  | exported => "exported declaration"
  | notVariableStatement => "declaration is not a variable statement"
  | loopHeader => "loop header declaration"
  | ambient => "ambient declaration"
  | written => "read is also a write"
  | inType => "read in a type position"
  | exportSpecifier => "read in an export specifier"
  | deleted => "operand of delete"
  | elementName => "JSX tag name"
  | noValue => "destructuring without a value"
  | noKey => "pattern property has no key"
  | unsupportedKey key => s!"unsupported pattern key '{key}'"
  | insideDeclaration => "read sits inside its own declaration"

/-- Characters of a text that an encoding does not have: the first run of them, by position. -/
structure EncodeError where
  encoding : String
  text : List Char
  first : Nat
  last : Nat
  limit : Nat
deriving DecidableEq, Repr

/-- The wording of an encoding error: a single character is shown, several are given by
position. -/
def EncodeError.message (e : EncodeError) : String :=
  let place :=
    if e.first = e.last then
      let shown := match e.text[e.first]? with
        | some c =>
          if c.toNat < 0x100 then ['\\', 'x'] ++ Text.hexDigits 2 c.toNat
          else if c.toNat < 0x10000 then ['\\', 'u'] ++ Text.hexDigits 4 c.toNat
          else ['\\', 'U'] ++ Text.hexDigits 8 c.toNat
        | none => []
      s!"character '{String.ofList shown}' in position {e.first}"
    else s!"characters in position {e.first}-{e.last}"
  s!"'{e.encoding}' codec can't encode {place}: ordinal not in range({e.limit})"

/-- Why an operation fails. -/
inductive Error where
  | unsupportedLanguage (path : String)
  | sourceTooLarge (path : String) (size : Nat) (limit : String)
  | parserUnavailable (grammar reason : String)
  /-- A parser was asked for a tree that it does not have. -/
  | noTree
  | refused (name : String) (refusal : Refusal)
  | notReadOnce (name : String) (count : Nat)
  | number (fault : Text.NumberFault)
  | extensionTaken (extension owner name : String)
  | unknownFormat (format : String) (valid : List String)
  | encode (e : EncodeError)
  | decode (e : Utf8.DecodeError)
  | noSuchPath (path : String)
  /-- A value is of a kind that the operation does not take. -/
  | wrongKind
  /-- A value has no members to be asked for. -/
  | noMember
  | unknownKey
  | indexOutOfRange
  /-- A file stands where a directory is needed above it. -/
  | notDirectory
  /-- A file stands where a directory is to be made. -/
  | fileInTheWay
  /-- A directory stands where a file is to be written. -/
  | directoryInTheWay
  /-- A path is longer than the file system takes it. -/
  | nameTooLong
  /-- A path holds a null character. -/
  | nullInPath
  /-- The system refuses something, and says why. -/
  | denied (reason : String)
deriving DecidableEq, Repr

/-- The wording of an error; the errors that come without a text have an empty one. -/
def Error.message : Error → String
  | unsupportedLanguage path => s!"Unsupported file type: {path}"
  | sourceTooLarge path size limit => s!"{path} is {size} bytes (limit {limit})"
  | parserUnavailable grammar reason =>
    s!"No tree-sitter parser available for '{grammar}'"
      ++ if reason = "" then "" else s!": {reason}"
  | refused name refusal => s!"Cannot inline '{name}': {refusal.reason}"
  | notReadOnce name count => s!"'{name}' is read {count} times, not once"
  | number fault => fault.message
  | extensionTaken extension owner name =>
    s!"Extension {extension} already registered to {owner}, cannot register to {name}"
  | unknownFormat format valid =>
    s!"Unknown format '{format}'. Valid: " ++ ", ".intercalate valid
  | encode e => e.message
  | decode e => e.message
  | noSuchPath path => s!"No such file or directory: {path}"
  | nullInPath => "embedded null byte"
  | denied reason => reason
  | noTree | wrongKind | noMember | unknownKey | indexOutOfRange | notDirectory | fileInTheWay
  | directoryInTheWay | nameTooLong => ""

end SingleUse
