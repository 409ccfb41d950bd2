import StackCode.Program.Basic

/-!
# Trees of code

A code image holds the root function with every function of its constant pool nested in place. A
tree of code is this nested form: the entries of its pools are values or trees again. Registering a
tree in a program registers the trees of its pool first, from front to back, and puts references in
their places; the root of the tree is registered last.
-/

namespace StackCode

/-- An entry of the constant pool of a tree of code: a value that is no function, or the nested
description of one. -/
inductive PoolEntry where
  | value (c : Constant)
  | nested (tree : Descriptor PoolEntry)

/-- A function with the functions of its pool in place. -/
abbrev CodeTree := Descriptor PoolEntry

mutual

/-- Registers the functions of a tree in a program, and gives the reference to its root. -/
def CodeTree.register : Descriptor PoolEntry → Program → FunctionId × Program
  | .mk name origin particles globals operandCount localCount pool lines code, p =>
    let (constants, p) := PoolEntry.registerAll pool p
    p.register
      { name, origin, particles, globals, operandCount, localCount, pool := constants, lines, code }

/-- Registers the functions of a pool in a program, and gives the pool of values. -/
def PoolEntry.registerAll : List PoolEntry → Program → List Constant × Program
  | [], p => ([], p)
  | entry :: entries, p =>
    let (first, p) := PoolEntry.register entry p
    let (others, p) := PoolEntry.registerAll entries p
    (first :: others, p)

/-- Registers the functions of a pool entry in a program, and gives the value of the entry. -/
def PoolEntry.register : PoolEntry → Program → Constant × Program
  | .value c, p => (c, p)
  | .nested tree, p =>
    let (id, p) := CodeTree.register tree p
    (.function id, p)

end

/-- The program whose functions are those of a tree, with the root of the tree as its root. -/
def Program.ofTree (tree : CodeTree) : Except Error Program :=
  let (id, p) := CodeTree.register tree .empty
  p.setRoot id

end StackCode
