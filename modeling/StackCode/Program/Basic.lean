import StackCode.Descriptor.Basic
import StackCode.Names.Map

/-!
# Programs

A program owns its descriptors and its functions, and everything else refers to them by position.
Registering a descriptor creates the one function that is paired with it; further functions, such
as closures, can share its code. One function is the root, which can be chosen once. An index leads
from a name to the first descriptor registered under it.
-/

namespace StackCode

/-- A function value: the code that it runs, the values bound to its particles, and its captures. -/
structure Function where
  descriptor : DescriptorId
  bindings : NameMap Constant
  captures : List Constant
deriving DecidableEq

/-- A loaded program. -/
structure Program where
  descriptors : Array (Descriptor Constant)
  functions : Array Function
  root : Option FunctionId
  index : NameMap DescriptorId
deriving DecidableEq

namespace Function

/-- The function that runs a descriptor as it stands: its particles are bound to nothing, and it has
no captures. -/
def ofDescriptor {κ : Type} (id : DescriptorId) (d : Descriptor κ) : Function :=
  ⟨id, NameMap.ofNames d.particles .nothing, []⟩

/-- The same function with other captures. -/
def withCaptures (f : Function) (captures : List Constant) : Function := { f with captures }

def capture? (f : Function) (index : Nat) : Option Constant := f.captures[index]?

/-- Whether two functions are equal, reals being compared as numbers and bindings without regard to
their order. -/
def agrees (a b : Function) : Bool :=
  a.descriptor = b.descriptor && a.bindings.agrees Constant.agrees b.bindings &&
    Constant.agreesAll a.captures b.captures

end Function

namespace Program

def empty : Program := ⟨#[], #[], none, .empty⟩

instance : Inhabited Program := ⟨empty⟩

def descriptorCount (p : Program) : Nat := p.descriptors.size

def functionCount (p : Program) : Nat := p.functions.size

def isEmpty (p : Program) : Bool := p.descriptors.isEmpty && p.functions.isEmpty

def function? (p : Program) (id : FunctionId) : Option Function := p.functions[id.index]?

/-- The descriptor at a position. -/
def descriptor? (p : Program) (id : DescriptorId) : Option (Descriptor Constant) :=
  p.descriptors[id.index]?

/-- The descriptor of the code that a function runs. -/
def descriptorOf? (p : Program) (id : FunctionId) : Option (Descriptor Constant) :=
  (p.function? id).bind fun f => p.descriptor? f.descriptor

/-- The first descriptor registered under a name. -/
def find? (p : Program) (name : String) : Option (DescriptorId × Descriptor Constant) :=
  (p.index.find? name).bind fun id => (p.descriptor? id).map fun d => (id, d)

def rootFunction? (p : Program) : Option Function := p.root.bind p.function?

/-- The descriptor of the code that the root function runs. -/
def rootDescriptor? (p : Program) : Option (Descriptor Constant) := p.root.bind p.descriptorOf?

/-- Adds a function that shares the code of a descriptor, and gives the reference to it. -/
def addFunction (p : Program) (f : Function) : FunctionId × Program :=
  (⟨p.functionCount⟩, { p with functions := p.functions.push f })

/-- Adds a descriptor with the function that is paired with it, and gives the reference to the
function. A name that is in the index keeps its descriptor. -/
def register (p : Program) (d : Descriptor Constant) : FunctionId × Program :=
  let id : DescriptorId := ⟨p.descriptorCount⟩
  let index := if p.index.contains d.name then p.index else p.index.bind d.name id
  addFunction { p with descriptors := p.descriptors.push d, index } (Function.ofDescriptor id d)

/-- Chooses the root, which must exist and cannot be changed later. The program that a refused
choice leaves behind is part of the result. -/
def chooseRoot (id : FunctionId) : EStateM Error Program Unit := do
  let p ← get
  if p.root.isSome then throw .rootAlreadySet
  if p.functionCount ≤ id.index then throw (.unknownFunction id)
  set { p with root := some id }

/-- The program with a root, if it can be chosen. -/
def setRoot (p : Program) (id : FunctionId) : Except Error Program :=
  match chooseRoot id p with
  | .ok _ next => .ok next
  | .error e _ => .error e

/-- Replaces the bindings of a function, if it exists. -/
def setBindings (p : Program) (id : FunctionId) (bindings : NameMap Constant) : Program :=
  { p with functions := p.functions.modify id.index fun f => { f with bindings } }

/-- Whether two programs are equal, reals being compared as numbers and the order of bindings and of
the index being left aside. -/
def agrees (a b : Program) : Bool :=
  a.descriptorCount = b.descriptorCount && a.functionCount = b.functionCount &&
    (a.descriptors.zip b.descriptors).all (fun pair => pair.1.agrees pair.2) &&
    (a.functions.zip b.functions).all (fun pair => pair.1.agrees pair.2) &&
    a.root = b.root && a.index.agrees (fun x y => decide (x = y)) b.index

end Program
end StackCode
