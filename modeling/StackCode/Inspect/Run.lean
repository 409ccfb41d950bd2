import StackCode.Dump.Program
import StackCode.Dump.Settings
import StackCode.Inspect.Command
import StackCode.Listing
import StackCode.Session
import StackCode.Verification

/-!
# Inspecting a code image

What the inspector answers to a command, given what can be read from files. A request first takes
its settings, then loads and reads the image, then verifies the program if it is asked to, and
shows the program last. The first of these steps that fails ends the request.
-/

namespace StackCode
namespace Inspect

/-- What comes of reading the file at a path. -/
abbrev Files := String → Except FileFault (List UInt8)

/-- Why a request cannot be answered. -/
inductive Failure where
  | unreadableSettings (path : String)
  | failed (error : Error)
deriving DecidableEq, Repr

/-- What the inspector does: how it exits, what it prints, and what it complains about. -/
structure Outcome where
  exitCode : UInt32
  output : String
  complaint : Option String
deriving DecidableEq, Repr

/-- The wording of a failure. -/
def Failure.message : Failure → String
  | unreadableSettings path => "failed to read config `" ++ path ++ "`"
  | failed error => error.message

/-- The settings in a file. -/
def readSettings (files : Files) (path : String) : Except Failure Settings :=
  match files path with
  | .error _ => .error (.unreadableSettings path)
  | .ok bytes =>
    match String.fromUTF8? bytes.toByteArray with
    | none => .error (.unreadableSettings path)
    | some text => (Settings.read text).mapError .failed

namespace Request

/-- The settings of a request. A byte order from the command line wins over one from a file. -/
def settings (files : Files) (r : Request) : Except Failure Settings := do
  let chosen ← match r.settingsPath with
    | some path => readSettings files path
    | none => pure Settings.standard
  return if r.bigEndian then { chosen with order := .big } else chosen

/-- The program at the path of a request. -/
def program (files : Files) (r : Request) (settings : Settings) : Except Error Program := do
  let (loaded, session) := (Session.start settings).load r.path (files r.path)
  loaded
  let (parsed, session) := session.parse
  parsed
  return session.result

/-- The answer to a request. -/
def answer (files : Files) (r : Request) : Except Failure String := do
  let settings ← r.settings files
  let p ← (r.program files settings).mapError .failed
  if r.verify then p.verify.mapError .failed
  return match r.format with
    | .listing => p.listingText
    | .notated => p.dump

end Request

/-- The name and version of the inspector. -/
def versionText : String := "haneul-inspect 0.1.0\n"

/-- How the inspector is used. -/
def usageText : String :=
  "Inspect Haneul byte files\n\nUsage: haneul-inspect [OPTIONS] <PATH>\n\n" ++
    "Arguments:\n  <PATH>  Byte file to load\n\nOptions:\n" ++
    "      --config <CONFIG>  File with reader settings\n" ++
    "      --verify           Check that every operand refers to something that exists\n" ++
    "      --format <FORMAT>  disasm or ron\n" ++
    "      --big-endian       Read words most significant byte first\n" ++
    "  -h, --help             Print help\n  -V, --version          Print version\n"

/-- What the inspector does on a command. -/
def Command.run (files : Files) : Command → Outcome
  | .version => ⟨0, versionText, none⟩
  | .help => ⟨0, usageText, none⟩
  | .misuse => ⟨2, "", none⟩
  | .inspect request =>
    match request.answer files with
    | .ok text => ⟨0, text, none⟩
    | .error failure => ⟨1, "", some failure.message⟩

/-- What the inspector does on a command line. -/
def run (files : Files) (arguments : List String) : Outcome :=
  (Command.ofCommandLine arguments).run files

end Inspect
end StackCode
