import StackCode.Inspect.Run

/-!
# The inspector

The command line program: it reads the files that a request names, and prints the answer.
-/

namespace StackCode
namespace Inspect

/-- The fault behind an error of the operating system. -/
def faultOf : IO.Error → FileFault
  | .noFileOrDirectory .. => .notFound
  | .inappropriateType _ code text => if code = 20 then .notDirectory
    else if code = 21 then .isDirectory else .other text
  | .permissionDenied _ code _ => .other s!"Permission denied (os error {code})"
  | .invalidArgument _ code text => .other s!"{text} (os error {code})"
  | e => .other (toString e)

/-- Reads a file. -/
def readFile (path : String) : IO (Except FileFault (List UInt8)) := do
  try
    return .ok (← IO.FS.readBinFile path).data.toList
  catch e =>
    return .error (faultOf e)

/-- Reads the files that a command names. -/
def gather : Command → IO Files
  | .inspect request => do
    let contents ← readFile request.path
    let settings ← match request.settingsPath with
      | some path => readFile path
      | none => pure (.error .notFound)
    return fun path =>
      if path = request.path then contents
      else if some path = request.settingsPath then settings
      else .error .notFound
  | _ => return fun _ => .error .notFound

end Inspect
end StackCode

/-- Runs the inspector on the arguments of the command line. -/
def main (arguments : List String) : IO UInt32 := do
  let command := StackCode.Inspect.Command.ofCommandLine arguments
  let outcome := command.run (← StackCode.Inspect.gather command)
  IO.print outcome.output
  match outcome.complaint with
  | some text => IO.eprintln ("Error: " ++ text)
  | none => if outcome.exitCode ≠ 0 then IO.eprintln StackCode.Inspect.usageText
  return outcome.exitCode
