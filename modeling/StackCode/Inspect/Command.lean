/-!
# Command lines

What the inspector is asked to do: show one code image in a format, perhaps after verifying it,
with settings from a file or a byte order from the command line. Arguments are read from left to
right, and the first that is wrong, or that asks for help or for the version, decides.
-/

namespace StackCode
namespace Inspect

/-- How a program is shown. -/
inductive Format where
  | listing
  | notated
deriving DecidableEq, Repr

/-- A request to show a code image. -/
structure Request where
  path : String
  settingsPath : Option String
  verify : Bool
  format : Format
  bigEndian : Bool
deriving DecidableEq, Repr

/-- What a command line asks for. -/
inductive Command where
  | inspect (request : Request)
  | version
  | help
  | misuse
deriving DecidableEq, Repr

/-- What the arguments so far have said. Nothing can be said twice. -/
structure Options where
  path : Option String
  settingsPath : Option String
  verify : Bool
  format : Option Format
  bigEndian : Bool
deriving DecidableEq, Repr

/-- An argument, taken apart. -/
inductive Argument where
  /-- The arguments behind this one are paths. -/
  | endOfOptions
  /-- An option by its name, with the value behind an equals sign if there is one. -/
  | long (name : String) (value : Option String)
  /-- Options by their letters. -/
  | short (letters : List Char)
  | path (text : String)
deriving DecidableEq, Repr

namespace Format

/-- The format with a given name. -/
def ofName? : String → Option Format
  | "disasm" => some listing
  | "ron" => some notated
  | _ => none

end Format

namespace Argument

/-- Takes an argument apart. A lone dash is a path. -/
def ofText (text : String) : Argument :=
  match text.toList with
  | '-' :: '-' :: [] => endOfOptions
  | '-' :: '-' :: cs =>
    let name := String.ofList (cs.takeWhile (· ≠ '='))
    match cs.dropWhile (· ≠ '=') with
    | _ :: value => long name (some (String.ofList value))
    | [] => long name none
  | '-' :: c :: cs => short (c :: cs)
  | _ => path text

/-- The text of an argument as the value of the option in front of it. -/
def asValue? (text : String) : Option String :=
  match ofText text with
  | path value => some value
  | _ => none

end Argument

namespace Options

def initial : Options := ⟨none, none, false, none, false⟩

/-- The command that the options amount to. The path of the image has to be given. -/
def toCommand (o : Options) : Command :=
  match o.path with
  | none => .misuse
  | some path =>
    .inspect ⟨path, o.settingsPath, o.verify, o.format.getD .listing, o.bigEndian⟩

/-- Sets the path of the image. -/
def setPath (o : Options) (path : String) : Option Options :=
  if o.path.isSome || path.isEmpty then none else some { o with path := some path }

/-- Sets an option that has a value. -/
def setValue (o : Options) (name value : String) : Option Options :=
  match name with
  | "config" =>
    if o.settingsPath.isSome || value.isEmpty then none
    else some { o with settingsPath := some value }
  | "format" =>
    if o.format.isSome then none
    else (Format.ofName? value).map fun format => { o with format := some format }
  | _ => none

/-- Sets an option that has no value. -/
def setFlag (o : Options) (name : String) : Option Options :=
  match name with
  | "verify" => if o.verify then none else some { o with verify := true }
  | "big-endian" => if o.bigEndian then none else some { o with bigEndian := true }
  | _ => none

end Options

namespace Command

def takesValue (name : String) : Bool := name = "config" || name = "format"

/-- The command of arguments that are all paths. -/
def ofPaths : Options → List String → Command
  | o, [] => o.toCommand
  | o, text :: rest =>
    match o.setPath text with
    | some o => ofPaths o rest
    | none => .misuse

/-- The command of the arguments that follow some others. -/
def ofArguments : Options → List String → Command
  | o, [] => o.toCommand
  | o, text :: rest =>
    match Argument.ofText text with
    | .endOfOptions => ofPaths o rest
    | .path path =>
      match o.setPath path with
      | some o => ofArguments o rest
      | none => .misuse
    | .short letters =>
      match letters.head? with
      | some 'V' => .version
      | some 'h' => .help
      | _ => .misuse
    | .long "version" none => .version
    | .long "help" none => .help
    | .long name (some value) =>
      match o.setValue name value with
      | some o => ofArguments o rest
      | none => .misuse
    | .long name none =>
      if takesValue name then
        match rest with
        | [] => .misuse
        | next :: rest =>
          match (Argument.asValue? next).bind (o.setValue name) with
          | some o => ofArguments o rest
          | none => .misuse
      else
        match o.setFlag name with
        | some o => ofArguments o rest
        | none => .misuse

def ofCommandLine (arguments : List String) : Command := ofArguments .initial arguments

end Command
end Inspect
end StackCode
