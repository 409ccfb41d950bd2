import StackCode.Frame
import StackCode.Program.Basic

/-!
# Closures

A closure is a function with captures taken at the moment it is made: a local variable of the
running frame, or a capture of the function that is running. Slots above the locals belong to the
evaluation stack and cannot be captured.
-/

namespace StackCode
namespace Function

/-- The value of one variable, from the locals of the frame or the captures of the enclosing
function. -/
def resolve (frame : Frame) (enclosing : Function) (v : Variable) : Except Error Constant :=
  let index := v.index.toNat
  let locals := frame.descriptor.localCount.toNat
  let (value?, available) :=
    match v.kind with
    | .slot => (if index < locals then frame.slot? index else none, locals)
    | .captured => (enclosing.capture? index, enclosing.captures.length)
  match value? with
  | some value => .ok value
  | none => .error (.captureOutOfRange v.kind v.index available)

/-- The closure over the code and bindings of a function that captures the given variables. The
first variable that has no value is an error. -/
def capture (f : Function) (wanted : List Variable) (frame : Frame) (enclosing : Function) :
    Except Error Function := do
  let captures ← wanted.mapM (resolve frame enclosing)
  return f.withCaptures captures

end Function
end StackCode
