/-!
# Kinds of value

A value has one of seven kinds. The tag of a kind is the byte that stands for it in a code image;
the name of a kind is the word for it in listings and messages.
-/

namespace StackCode

/-- The kind of a value. -/
inductive Kind where
  | nothing
  | integer
  | real
  | boolean
  | character
  | function
  | record
deriving DecidableEq, Repr

namespace Kind

/-- The byte that stands for the kind in a code image. -/
def tag : Kind → UInt8
  | nothing => 0
  | integer => 1
  | real => 2
  | boolean => 3
  | character => 4
  | function => 5
  | record => 6

/-- Every kind, in the order of the tags. -/
def all : List Kind := [nothing, integer, real, boolean, character, function, record]

def ofTag? (b : UInt8) : Option Kind := all.find? (·.tag = b)

/-- The word for the kind. -/
def name : Kind → String
  | nothing => "없음"
  | integer => "정수"
  | real => "실수"
  | boolean => "부울"
  | character => "문자"
  | function => "함수"
  | record => "구조체"

@[simp] theorem ofTag?_tag (k : Kind) : ofTag? k.tag = some k := by
  cases k <;> decide

theorem ofTag?_eq_some_iff {b : UInt8} {k : Kind} : ofTag? b = some k ↔ b = k.tag := by
  refine ⟨fun h => ?_, fun h => h ▸ ofTag?_tag k⟩
  have found := List.find?_some h
  exact (of_decide_eq_true found).symm

end Kind
end StackCode
