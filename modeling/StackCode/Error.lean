import StackCode.Instruction.Opcode
import StackCode.Text.Numeral
import StackCode.Value.Kind
import StackCode.Value.Reference

/-!
# Errors

The causes for which loading, checking, saving or running part of a program can fail, and their
wording. A cause carries the facts that its message names and nothing else.
-/

namespace StackCode

/-- The ways in which the bytes of a code image can be inconsistent with the format. -/
inductive Corruption where
  | unexpectedEnd (needed remaining : Nat)
  /-- A table declares more entries than the bytes that are left could hold. -/
  | countTooLarge (what : String) (count remaining : Nat)
  | invalidKind (tag : UInt8)
  | invalidVariableKind (tag : UInt8)
  | invalidBoolean (byte : UInt8)
  | invalidText
  /-- A character code that is no Unicode scalar value. -/
  | invalidCharacter (code : Nat)
  /-- A pool holds a reference to a record, which only exists while a program runs. -/
  | recordConstant
  | nestingTooDeep (limit : Nat)
  | tooManyOperands (count : UInt64)
  | trailingBytes (count : Nat)
deriving DecidableEq, Repr

/-- What the verifier finds wrong in a descriptor. -/
inductive Violation where
  | constantOutOfRange (index : UInt32) (length : Nat)
  | localOutOfRange (index : UInt32) (count : UInt32)
  | globalOutOfRange (index : UInt32) (length : Nat)
  | jumpOutOfRange (target : UInt32) (length : Nat)
  | missingFunction (id : FunctionId)
  | unsortedLines (offset : UInt32)
deriving DecidableEq, Repr

/-- Why a file could not be read. -/
inductive FileFault where
  | notFound
  | isDirectory
  | notDirectory
  /-- Reading came to the end before the length that was announced when the file was opened. -/
  | endsEarly (announced present : Nat)
  | other (reason : String)
deriving DecidableEq, Repr

/-- The causes of failure. -/
inductive Error where
  | unreadableFile (path : String) (fault : FileFault)
  | notLoaded
  | corrupt (offset : Nat) (cause : Corruption)
  | invalidOpcode (offset : Nat) (code : UInt8)
  | operandMismatch (opcode : Opcode)
  | nameListFull
  | rootAlreadySet
  | noRoot
  | unknownFunction (id : FunctionId)
  | textTooLong (size limit : Nat)
  | listTooLong (what : String) (length : Nat)
  /-- A function whose record would have to contain itself. -/
  | recursiveFunction (id : FunctionId)
  | unstorableConstant (kind : Kind)
  /-- The sink took as many bytes as it could, and some were left. -/
  | sinkFull
  | kindMismatch (expected : List Kind) (actual : Kind)
  | captureOutOfRange (kind : VariableKind) (index : UInt8) (available : Nat)
  | invalidFunction (name : String) (offset : Nat) (violation : Violation)
  /-- The text of the reader's settings could not be understood. -/
  | invalidSettings
deriving DecidableEq, Repr

namespace Corruption

/-- The wording of a corruption. -/
def message : Corruption → String
  | unexpectedEnd needed remaining =>
    s!"unexpected end of file: needed {needed} bytes, {remaining} remaining"
  | countTooLarge what count remaining =>
    s!"{what} count {count} exceeds the {remaining} remaining bytes"
  | invalidKind tag => "invalid type tag " ++ Text.hexByte tag
  | invalidVariableKind tag => "invalid variable type " ++ Text.hexByte tag
  | invalidBoolean byte => "invalid boolean " ++ Text.hexByte byte
  | invalidText => "invalid utf-8 sequence"
  | invalidCharacter code => Text.hex code ++ " is not a unicode scalar value"
  | recordConstant => "structures cannot appear in a constant pool"
  | nestingTooDeep limit => s!"functions nested deeper than {limit} levels"
  | tooManyOperands count => s!"stack operand count {count} is too large"
  | trailingBytes count => s!"{count} trailing bytes after the root function"

end Corruption

namespace Violation

/-- The wording of a violation. -/
def message : Violation → String
  | constantOutOfRange index length => s!"constant {index} is out of range ({length} constants)"
  | localOutOfRange index count => s!"local {index} is out of range ({count} locals)"
  | globalOutOfRange index length => s!"global {index} is out of range ({length} globals)"
  | jumpOutOfRange target length =>
    s!"jump target {target} is past the end of the code ({length} instructions)"
  | missingFunction id => s!"pushed function #{id.index} is not registered"
  | unsortedLines offset => s!"line map record for instruction {offset} is out of order"

end Violation

namespace FileFault

/-- The wording of a file's fault. -/
def message : FileFault → String
  | notFound => "No such file or directory (os error 2)"
  | isDirectory => "Is a directory (os error 21)"
  | notDirectory => "Not a directory (os error 20)"
  | endsEarly announced present => s!"expected {announced} bytes, got {present}"
  | other reason => reason

end FileFault

namespace Error

/-- The wording of an error. -/
def message : Error → String
  | unreadableFile path (.endsEarly announced present) =>
    "short read from `" ++ path ++ "`: " ++ (FileFault.endsEarly announced present).message
  | unreadableFile path fault => "cannot read byte file `" ++ path ++ "`: " ++ fault.message
  | notLoaded => "no byte file has been loaded"
  | corrupt offset cause => s!"corrupt byte file at offset {offset}: {cause.message}"
  | invalidOpcode offset code => "invalid opcode " ++ Text.hexByte code ++ s!" at offset {offset}"
  | operandMismatch opcode => "operand does not match opcode `" ++ opcode.mnemonic ++ "`"
  | nameListFull => "string list is full (255 entries)"
  | rootAlreadySet => "the byte file already has a root function"
  | noRoot => "the byte file has no root function"
  | unknownFunction id => s!"function #{id.index} is not registered in this byte file"
  | textTooLong size limit => s!"string of {size} bytes does not fit a {limit}-byte length prefix"
  | listTooLong what length =>
    s!"{what} list of {length} entries does not fit a 255-entry count"
  | recursiveFunction id => s!"function #{id.index} contains itself as a constant"
  | unstorableConstant kind =>
    "constants of type `" ++ kind.name ++ "` cannot be written to a byte file"
  | sinkFull => "io error: failed to write whole buffer"
  | kindMismatch expected actual =>
    "type mismatch: expected `" ++ " | ".intercalate (expected.map Kind.name) ++ "`, found `" ++
      actual.name ++ "`"
  | captureOutOfRange kind index available =>
    s!"cannot capture {kind.name} variable {index}: only {available} available"
  | invalidFunction name offset violation =>
    "invalid function `" ++ name ++ s!"` at instruction {offset}: {violation.message}"
  | invalidSettings => "invalid configuration"

/-- Whether malformed bytes of a code image caused the error, as opposed to a failing device or a
misuse of the library. -/
def isCorruption : Error → Bool
  | corrupt .. | invalidOpcode .. => true
  | _ => false

end Error
end StackCode
