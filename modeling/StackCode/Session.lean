import StackCode.Image.Decode

/-!
# Loading sessions

A session holds the bytes that were loaded last and the program that was read from them, if any. New
bytes drop the program; bytes that cannot be read leave the session without a program, but loaded; a
file that cannot be opened, or that ends before the length which it announced, changes nothing.
-/

namespace StackCode

/-- A file that was opened: the length that it announces, and what comes of reading it to the end.
It may have changed between the two. -/
structure OpenFile where
  announced : UInt64
  contents : Except FileFault (List UInt8)

/-- Reads a file to the end. Fewer bytes than announced are a fault, more are not. -/
def OpenFile.readAll (file : OpenFile) : Except FileFault (List UInt8) := do
  let bytes ← file.contents
  if bytes.length < file.announced.toNat then
    throw (.endsEarly file.announced.toNat bytes.length)
  return bytes

/-- The state of a loading session. -/
structure Session where
  settings : Settings
  bytes : Option (List UInt8)
  result : Program

namespace Session

def start (settings : Settings) : Session := ⟨settings, none, .empty⟩

def isLoaded (s : Session) : Bool := s.bytes.isSome

/-- Loads bytes. -/
def loadBytes (s : Session) (bytes : List UInt8) : Session :=
  { s with bytes := some bytes, result := .empty }

/-- Loads the contents of the file at a path, given what came of reading it. -/
def load (s : Session) (path : String) (contents : Except FileFault (List UInt8)) :
    Except Error Unit × Session :=
  match contents with
  | .ok bytes => (.ok (), s.loadBytes bytes)
  | .error fault => (.error (.unreadableFile path fault), s)

/-- Loads the file at a path, given what came of opening it. -/
def loadFile (s : Session) (path : String) (opened : Except FileFault OpenFile) :
    Except Error Unit × Session :=
  s.load path (opened >>= OpenFile.readAll)

/-- Reads the program from the loaded bytes. -/
def parse (s : Session) : Except Error Unit × Session :=
  match s.bytes with
  | none => (.error .notLoaded, s)
  | some bytes =>
    match Program.decode s.settings bytes with
    | .ok p => (.ok (), { s with result := p })
    | .error e => (.error e, { s with result := .empty })

/-- Moves the program out of the session. -/
def takeResult (s : Session) : Program × Session := (s.result, { s with result := .empty })

end Session
end StackCode
