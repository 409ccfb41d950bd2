/-!
# Name pools

A pool keeps one copy of every spelling that passes through it. Two names from one pool are spelled
alike exactly when their symbols are equal.
-/

namespace StackCode

/-- The shared copies of the spellings seen so far, oldest first. -/
structure NamePool where
  spellings : List String
deriving DecidableEq, Repr, Inhabited

/-- The place of a shared copy in its pool. -/
structure Symbol where
  index : Nat
deriving DecidableEq, Repr

namespace NamePool

def empty : NamePool := ⟨[]⟩

def size (pool : NamePool) : Nat := pool.spellings.length

def isEmpty (pool : NamePool) : Bool := pool.spellings.isEmpty

def spelling? (pool : NamePool) (symbol : Symbol) : Option String := pool.spellings[symbol.index]?

/-- The symbol of a spelling, which enters the pool if it was not there. -/
def intern (pool : NamePool) (name : String) : Symbol × NamePool :=
  match pool.spellings.findIdx? (· = name) with
  | some index => (⟨index⟩, pool)
  | none => (⟨pool.spellings.length⟩, ⟨pool.spellings ++ [name]⟩)

/-- The symbol that interning gives is spelled as it was asked for. -/
theorem spelling?_intern (pool : NamePool) (name : String) :
    (pool.intern name).2.spelling? (pool.intern name).1 = some name := by
  unfold intern
  split
  · next index found =>
    obtain ⟨bound, spelled, _⟩ := List.findIdx?_eq_some_iff_getElem.1 found
    simp [spelling?, List.getElem?_eq_getElem bound, of_decide_eq_true spelled]
  · simp [spelling?]

end NamePool
end StackCode
