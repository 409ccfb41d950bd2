import StackCode.Binary64.Layout
import StackCode.Error
import StackCode.Text.Escape

/-!
# Values

The values that a program computes with, and that stand in its constant pools. Functions and records
are values by reference. Equality of values compares reals by their bits; `Constant.agrees` compares
them as numbers.
-/

namespace StackCode

/-- A value. -/
inductive Constant where
  /-- The absence of a value; also what a slot holds before it is written. -/
  | nothing
  | integer (value : Int64)
  | real (value : Binary64)
  | boolean (value : Bool)
  | character (value : Char)
  | function (id : FunctionId)
  | record (id : RecordId)
deriving DecidableEq

namespace Constant

instance : Inhabited Constant := ⟨nothing⟩

/-- The kind of a value. -/
def kind : Constant → Kind
  | nothing => .nothing
  | integer _ => .integer
  | real _ => .real
  | boolean _ => .boolean
  | character _ => .character
  | function _ => .function
  | record _ => .record

/-- Whether two values are equal, reals being compared as numbers. -/
def agrees : Constant → Constant → Bool
  | real x, real y => x.agrees y
  | a, b => decide (a = b)

/-- Whether two lists of values agree place by place. -/
def agreesAll : List Constant → List Constant → Bool
  | [], [] => true
  | a :: as, b :: bs => a.agrees b && agreesAll as bs
  | _, _ => false

def isNothing (c : Constant) : Bool := c.kind = .nothing

def integer? : Constant → Option Int64
  | integer value => some value
  | _ => none

def real? : Constant → Option Binary64
  | real value => some value
  | _ => none

def boolean? : Constant → Option Bool
  | boolean value => some value
  | _ => none

def character? : Constant → Option Char
  | character value => some value
  | _ => none

def function? : Constant → Option FunctionId
  | function id => some id
  | _ => none

def record? : Constant → Option RecordId
  | record id => some id
  | _ => none

/-- The value itself if its kind is among the expected ones. -/
def expect (c : Constant) (expected : List Kind) : Except Error Constant :=
  if c.kind ∈ expected then .ok c else .error (.kindMismatch expected c.kind)

/-- The value itself if it has the expected kind. -/
def expectKind (c : Constant) (expected : Kind) : Except Error Constant := c.expect [expected]

/-- The value itself if it is an integer or a real. -/
def expectNumber (c : Constant) : Except Error Constant := c.expect [.integer, .real]

/-- The text of a value in listings. -/
def text : Constant → String
  | nothing => Kind.nothing.name
  | integer value => toString value.toInt
  | real value => RealLayout.display.text value
  | boolean true => "참"
  | boolean false => "거짓"
  | character value => Escape.character value
  | function id => "<" ++ Kind.function.name ++ s!" #{id.index}>"
  | record id => "<" ++ Kind.record.name ++ s!" #{id.index}>"

end Constant
end StackCode
