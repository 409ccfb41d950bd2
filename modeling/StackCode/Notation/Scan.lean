/-!
# Scanning data notation

Data notation is a text form for structured data. A scan takes a piece from the front of a text and
leaves what follows: a gap, a mark, a word, quoted text or a quoted character. A gap is made of
blanks and comments and means nothing; a comment runs to the end of its line, or stands between `/*`
and `*/`, where such comments nest.

A scan whose name ends in a question mark looks for something that may be absent, and then takes
nothing. Every other scan fails if what it is meant to take is not there.
-/

namespace StackCode

/-- A step that takes a piece from the front of a text. -/
abbrev Scan := StateT (List Char) Option

namespace Scan

def isBlank (c : Char) : Bool := c = ' ' || c = '\t' || c = '\n' || c = '\r'

def startsWord (c : Char) : Bool := c.isAlpha || c = '_'

def inWord (c : Char) : Bool := c.isAlphanum || c = '_'

/-- Whether a character can follow in a word that has the mark in front. -/
def inMarkedWord (c : Char) : Bool := inWord c || c = '.' || c = '+' || c = '-'

/-- The value of a hexadecimal digit. -/
def hexValue (c : Char) : Option Nat :=
  if c.isDigit then some (c.toNat - '0'.toNat)
  else if 'a' ≤ c && c ≤ 'f' then some (c.toNat - 'a'.toNat + 10)
  else if 'A' ≤ c && c ≤ 'F' then some (c.toNat - 'A'.toNat + 10)
  else none

/-- A place in a gap between two pieces of a text. -/
inductive Gap where
  /-- Between comments. -/
  | between
  /-- In a comment up to the end of the line. -/
  | line
  /-- In a comment between marks, which stands inside `depth` others. -/
  | block (depth : Nat)
deriving DecidableEq, Repr

/-- What follows a gap, from a place in it on. A comment between marks has to be closed. -/
def Gap.skip : Gap → List Char → Option (List Char)
  | .between, [] => some []
  | .between, '/' :: '/' :: rest => skip .line rest
  | .between, '/' :: '*' :: rest => skip (.block 0) rest
  | .between, '/' :: _ => none
  | .between, c :: rest => if isBlank c then skip .between rest else some (c :: rest)
  | .line, [] => some []
  | .line, c :: rest => skip (if c = '\n' then .between else .line) rest
  | .block _, [] => none
  | .block depth, '/' :: '*' :: rest => skip (.block (depth + 1)) rest
  | .block 0, '*' :: '/' :: rest => skip .between rest
  | .block (depth + 1), '*' :: '/' :: rest => skip (.block depth) rest
  | .block depth, _ :: rest => skip (.block depth) rest

/-- A gap, which may be empty. -/
def gap : Scan Unit := fun cs => (Gap.skip .between cs).map fun rest => ((), rest)

/-- The next character, which is left where it is. -/
def next? : Scan (Option Char) := return (← get).head?

/-- What a scan would take, which is left where it is. -/
def ahead? {α : Type} (scan : Scan α) : Scan (Option α) := fun cs =>
  some ((scan cs).map Prod.fst, cs)

/-- What a scan takes, if it does not fail. -/
def optional? {α : Type} (scan : Scan α) : Scan (Option α) := fun cs =>
  match scan cs with
  | some (value, rest) => some (some value, rest)
  | none => some (none, cs)

/-- A mark of one character. -/
def mark (c : Char) : Scan Unit := fun
  | d :: rest => if d = c then some ((), rest) else none
  | [] => none

def mark? (c : Char) : Scan Bool := return (← optional? (mark c)).isSome

/-- Whether a comma is there, with a gap on each side. -/
def comma? : Scan Bool := do
  gap
  let found ← mark? ','
  if found then gap
  return found

/-- The longest run of characters of a class. -/
def run (inClass : Char → Bool) : Scan (List Char) := fun cs =>
  some (cs.takeWhile inClass, cs.dropWhile inClass)

/-- A given spelling, whatever follows it. -/
def spelling (letters : String) : Scan Unit := fun cs =>
  if letters.toList.isPrefixOf cs then some ((), cs.drop letters.toList.length) else none

/-- A given spelling, which must not go on as a word. -/
def keyword (letters : String) : Scan Unit := do
  spelling letters
  if (← next?).any inWord then failure

def spelling? (letters : String) : Scan Bool := return (← optional? (spelling letters)).isSome

/-- Whether a given spelling is there that does not go on as a word. -/
def keyword? (letters : String) : Scan Bool := return (← optional? (keyword letters)).isSome

/-- The first of some keywords that is there. -/
def firstKeyword? : List String → Scan (Option String)
  | [] => return none
  | letters :: others => do
    if ← keyword? letters then return some letters else firstKeyword? others

/-- A word without the mark. What could only go on in a word with the mark must not follow. -/
def plainWord : Scan String := do
  let letters ← run inWord
  if (← next?).any inMarkedWord then failure
  return String.ofList letters

/-- A word. It starts with a letter or an underscore, or it has the mark `r#` in front, behind which
it may start with any of its characters. The start of raw text is no word. -/
def word : Scan String := fun
  | 'r' :: '\x22' :: _ => none
  | 'r' :: '#' :: rest =>
    if rest.head?.any inMarkedWord then
      some (String.ofList (rest.takeWhile inMarkedWord), rest.dropWhile inMarkedWord)
    else none
  | c :: rest => if startsWord c then plainWord (c :: rest) else none
  | [] => none

/-- The character of a code in braces, of at most `digits` digits; the opening brace has been
taken. -/
def codePoint (digits : Nat) (seen : Option Nat) : Scan Char := fun
  | [] => none
  | c :: rest =>
    if c = '\x7d' then
      match seen with
      | some code => if code.isValidChar then some (Char.ofNat code, rest) else none
      | none => none
    else
      match digits, hexValue c with
      | left + 1, some value => codePoint left (some (seen.getD 0 * 16 + value)) rest
      | _, _ => none

/-- The character of an escape, whose backslash has been taken. -/
def escape : Scan Char := fun
  | 'n' :: rest => some ('\n', rest)
  | 'r' :: rest => some ('\r', rest)
  | 't' :: rest => some ('\t', rest)
  | '0' :: rest => some ('\x00', rest)
  | 'x' :: high :: low :: rest => do
    let code := (← hexValue high) * 16 + (← hexValue low)
    return (Char.ofNat code, rest)
  | 'u' :: '\x7b' :: rest => codePoint 6 none rest
  | c :: rest => if c = '\\' || c = '\x22' || c = '\x27' then some (c, rest) else none
  | [] => none

/-- The characters up to the closing double quote. A text that is no shorter bounds the steps. -/
def escapedText : List Char → Scan (List Char)
  | [] => failure
  | _ :: bound => do
    match ← get with
    | [] => failure
    | c :: rest =>
      set rest
      if c = '\x22' then return []
      let first ← if c = '\\' then escape else pure c
      return first :: (← escapedText bound)

/-- The characters up to a double quote that has `hashes` hash marks behind it. -/
def rawText (hashes : Nat) : Scan (List Char) := fun
  | [] => none
  | c :: rest =>
    if c = '\x22' && rest.take hashes = List.replicate hashes '#' then
      some ([], rest.drop hashes)
    else do
      let (others, behind) ← rawText hashes rest
      return (c :: others, behind)

/-- Text between double quotes, with escapes, or raw text, which has the letter `r` in front, no
escapes, and as many hash marks behind it as before it. -/
def text : Scan String := do
  if ← mark? 'r' then
    let hashes ← run (· = '#')
    mark '\x22'
    return String.ofList (← rawText hashes.length)
  else
    mark '\x22'
    return String.ofList (← escapedText (← get))

/-- A character between single quotes. -/
def character : Scan Char := do
  mark '\x27'
  let value ← match ← get with
    | [] => failure
    | c :: rest => do
      set rest
      if c = '\\' then escape else if c = '\x27' then failure else pure c
  mark '\x27'
  return value

end Scan
end StackCode
