import StackCode.Notation.Dialect
import StackCode.Notation.Number

/-!
# Reading data notation

A reader is a scan that knows the dialect of the text and how many levels of structure may still be
opened. A list, map, tuple or record takes a level, and each of its items takes another; a choice
takes a level, and so does what an optional value, a wrapper or a variant holds. A datum that takes
more levels than there are is refused.

`Reader.skip` takes any datum at all. `Reader.readText` applies a reader to a whole text.
-/

namespace StackCode

/-- What a reader knows about the text and its place in it. -/
structure Scope where
  dialect : Dialect
  /-- How many more levels may be opened. -/
  levels : Nat
  /-- A bound on the number of items of anything in the text. -/
  size : Nat
  /-- Whether a wrapper stands here without its parentheses, because a variant holds it. -/
  bare : Bool
deriving DecidableEq, Repr

/-- A scan that depends on its place in the text. -/
abbrev Reader := ReaderT Scope Scan

namespace Reader

/-- The number of levels that a text may open. -/
def maxLevels : Nat := 128

/-- Reads one level further down. -/
def deeper {α : Type} (reader : Reader α) : Reader α := fun scope =>
  match scope.levels with
  | 0 => failure
  | levels + 1 => reader { scope with levels, bare := false }

/-- Reads what a variant holds. -/
def inVariant {α : Type} (reader : Reader α) : Reader α := fun scope =>
  reader { scope with bare := scope.dialect.bareVariants }

/-- Items with a comma between them, and perhaps one behind the last, up to a closing mark, which is
left; `steps` bounds the items. -/
def itemsWithin {α : Type} (item : Reader α) (closing : Char) : Nat → Reader (List α)
  | 0 => failure
  | steps + 1 => do
    Scan.gap
    if (← Scan.next?) = some closing then return []
    let first ← deeper item
    if ← Scan.comma? then return first :: (← itemsWithin item closing steps)
    return [first]

/-- Items between two marks. -/
def items {α : Type} (opening closing : Char) (item : Reader α) : Reader (List α) := do
  Scan.mark opening
  let found ← deeper (itemsWithin item closing ((← read).size + 1))
  Scan.gap
  Scan.mark closing
  return found

/-- A field of a record: its name, a colon, and a value that is read as the name demands. -/
def field {α : Type} (value : String → Reader α) : Reader α := do
  let name ← Scan.word
  Scan.gap
  Scan.mark ':'
  Scan.gap
  value name

/-- An entry of a map: its key, a colon, and its value. -/
def entry {α β : Type} (key : Reader α) (value : Reader β) : Reader (α × β) := do
  let k ← key
  Scan.gap
  Scan.mark ':'
  Scan.gap
  return (k, ← value)

/-- A single value in parentheses; a comma may follow it. -/
def parenthesized {α : Type} (held : Reader α) : Reader α := do
  Scan.mark '('
  Scan.gap
  let value ← deeper held
  let _ ← Scan.comma?
  Scan.mark ')'
  return value

/-- An optional value: the word for its absence, or the value in parentheses behind the word for its
presence. Where the dialect allows it, the parentheses or the word with them are left out. The two
words need nothing to set them apart from what follows. -/
def option {α : Type} (held : Reader α) : Reader (Option α) := do
  if ← Scan.spelling? "None" then return none
  if ← Scan.spelling? "Some" then
    Scan.gap
    if (← Scan.next?) = some '(' then return some (← parenthesized held)
  if (← read).dialect.bareOptions then return some (← deeper held) else failure

/-- Words that are data of their own. -/
def wordsAlone : List String := ["true", "false", "None", "inf", "-inf", "NaN"]

/-- Takes a tuple, or a record if a name and a colon come first; `inner` takes its items. -/
def skipGroup (inner : Reader Unit) : Reader Unit := do
  let startsRecord : Scan Unit := do
    Scan.mark '('
    Scan.gap
    discard Scan.word
    Scan.gap
    Scan.mark ':'
  match ← Scan.ahead? startsRecord with
  | some _ => discard (items '(' ')' (field fun _ => inner))
  | none => discard (items '(' ')' inner)

/-- Takes a datum that no word starts, and whose parts are taken by `inner`. -/
def skipWordless (inner : Reader Unit) : Reader Unit := do
  match ← Scan.next? with
  | some '(' => skipGroup inner
  | some '[' => discard (items '[' ']' inner)
  | some '\x7b' => discard (items '\x7b' '\x7d' (entry inner inner))
  | some '\x22' => discard Scan.text
  | some 'r' => discard Scan.text
  | some '\x27' => discard Scan.character
  | some '.' => discard Number.real
  | some c => if c.isDigit || c = '+' || c = '-' then Number.anyKind else failure
  | none => failure

/-- Takes any datum, which is opened at most `steps` times in a row. -/
def skipWithin : Nat → Reader Unit
  | 0 => failure
  | steps + 1 => do
    let inner := skipWithin steps
    if (← Scan.firstKeyword? wordsAlone).isSome then return
    if (← Scan.ahead? (Scan.keyword "Some")).isSome then discard (option inner)
    else if ← Scan.spelling? "()" then return
    else
      match ← Scan.optional? Scan.word with
      | none => skipWordless inner
      | some _ =>
        Scan.gap
        if (← Scan.next?) = some '(' then skipGroup inner

/-- Takes any datum. The levels that are left bound how often it can be opened. -/
def skip : Reader Unit := do skipWithin ((← read).levels + 1)

/-- Reads a text of a given size from its start to its end. -/
def whole {α : Type} (reader : Reader α) (size : Nat) : Scan α := do
  Scan.gap
  let dialect ← Dialect.ofAttributes (size + 1) .standard
  let value ← reader ⟨dialect, maxLevels, size, false⟩
  Scan.gap
  match ← Scan.next? with
  | some _ => failure
  | none => return value

/-- What a reader makes of a whole text. -/
def readText {α : Type} (reader : Reader α) (text : String) : Option α :=
  (reader.whole text.toList.length).run' text.toList

end Reader
end StackCode
