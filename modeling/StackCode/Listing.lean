import StackCode.Program.Basic

/-!
# Listings

A listing shows every descriptor of a program in order: a head line, a line for each constant, each
global and each instruction, and an empty line. The descriptor that the root function runs has a
mark in front. The source location of an instruction is shown where the line number is not the one
shown last; a change of the path alone is not shown.
-/

namespace StackCode

namespace Descriptor

/-- The first line of a descriptor. -/
def headLine (d : Descriptor Constant) : String :=
  "function " ++ d.name ++ " (" ++ d.origin.text ++ s!") locals={d.localCount}" ++
    s!" stack={d.operandCount} josa={d.particles.count}"

/-- A line for each item, with the number of the item in a column. -/
def numberedLines (label : String) (width : Nat) (items : List String) : List String :=
  items.zipIdx.map fun (item, index) =>
    "  " ++ label ++ " " ++ Text.padLeft ' ' width (toString index) ++ ": " ++ item

/-- The line of an instruction without its location. -/
def bareLine (offset : Nat) (text : String) : String :=
  "  " ++ Text.padLeft ' ' 6 (toString offset) ++ "  " ++ text

/-- The lines of code whose first instruction stands at `offset`; `shown` is the line number shown
last. -/
def codeLines (d : Descriptor Constant) (offset : Nat) (shown : Option UInt16) :
    List Instruction → List String
  | [] => []
  | i :: rest =>
    let location := d.locate offset
    let line :=
      if shown = some location.line then bareLine offset i.text
      else bareLine offset (Text.padRight 32 i.text) ++ " ; " ++ location.text
    line :: codeLines d (offset + 1) (some location.line) rest

/-- The lines of a descriptor behind its head line. -/
def bodyLines (d : Descriptor Constant) : List String :=
  numberedLines "const" 4 (d.pool.map Constant.text) ++ numberedLines "global" 3 d.globals ++
    d.codeLines 0 none d.code

end Descriptor

namespace Program

/-- The descriptor that the root function runs, if both exist. -/
def rootDescriptorId? (p : Program) : Option DescriptorId :=
  p.rootFunction?.bind fun f =>
    if f.descriptor.index < p.descriptorCount then some f.descriptor else none

/-- The lines of the descriptor at a position: the mark of the root, the description behind its
number, and an empty line. -/
def descriptorListing (p : Program) (d : Descriptor Constant) (index : Nat) : List String :=
  let mark := if p.rootDescriptorId? = some ⟨index⟩ then ["; root"] else []
  mark ++ [s!"#{index} " ++ d.headLine] ++ d.bodyLines ++ [""]

/-- The lines of a program's listing. -/
def listing (p : Program) : List String :=
  p.descriptors.toList.zipIdx.flatMap fun (d, index) => p.descriptorListing d index

/-- The text of a program's listing; every line is ended. -/
def listingText (p : Program) : String := String.join (p.listing.map (· ++ "\n"))

end Program
end StackCode
