import Mathlib.Data.List.Basic
import Mathlib.Tactic.SplitIfs
import StackCode.Proofs.Listing.Locations

/-!
# Texts without line feeds

A listing gives one line to each thing that it shows, so the text of such a thing must not hold a
line feed. Numbers, reals and words of the library are made of other characters. A character
constant can be a line feed, and then its text is an escape. A name stands in the text as it is;
that it holds no line feed is a condition on the program.

**Results.**
* `RealLayout.unbroken_text`, `Escape.unbroken_character`: digits and escapes.
* `Constant.unbroken_text`: every value.
* `Instruction.unbroken_text`, `Location.unbroken_text`: what shows names.
-/

namespace StackCode
namespace Text

/-- The text holds no line feed. -/
def Unbroken (text : String) : Prop := '\n' ∉ text.toList

instance (text : String) : Decidable (Unbroken text) := inferInstanceAs (Decidable (_ ∉ _))

variable {s t : String}

@[simp] theorem unbroken_append_iff :
    Unbroken (s ++ t) ↔ Unbroken s ∧ Unbroken t := by
  simp [Unbroken]

@[simp] theorem unbroken_ofList_iff
    {characters : List Char} :
    Unbroken (String.ofList characters) ↔ '\n' ∉ characters := by
  simp [Unbroken]

@[simp] theorem unbroken_singleton_iff
    {c : Char} :
    Unbroken (String.singleton c) ↔ '\n' ≠ c := by
  simp [Unbroken]

theorem not_mem_toDigitsCore
    {base fuel n : Nat} {digits : List Char}
    (h : '\n' ∉ digits) :
    '\n' ∉ Nat.toDigitsCore base fuel n digits := by
  induction fuel generalizing n digits with
  | zero =>
      exact h
  | succ fuel ih =>
      have h' : '\n' ∉ (n % base).digitChar :: digits :=
        List.not_mem_cons_of_ne_of_not_mem (Nat.digitChar_ne '\n' (by decide)).symm h
      rw [Nat.toDigitsCore]
      split
      · exact h'
      · exact ih h'

@[simp] theorem not_mem_toDigits
    (base n : Nat) :
    '\n' ∉ Nat.toDigits base n :=
  not_mem_toDigitsCore List.not_mem_nil

@[simp] theorem unbroken_repr
    (n : Nat) :
    Unbroken n.repr := by
  simp [Unbroken, Nat.toList_repr]

@[simp] theorem unbroken_toString_int
    (i : Int) :
    Unbroken (toString i) := by
  change Unbroken i.repr
  cases i with
  | ofNat n =>
      exact unbroken_repr n
  | negSucc n =>
      exact unbroken_append_iff.2 ⟨by decide, unbroken_repr _⟩

@[simp] theorem unbroken_padLeft_iff
    {width : Nat} :
    Unbroken (padLeft ' ' width t) ↔ Unbroken t := by
  simp [padLeft]

@[simp] theorem unbroken_padRight_iff
    {width : Nat} :
    Unbroken (padRight width t) ↔ Unbroken t := by
  simp [padRight]

/-- A number between two texts. -/
theorem unbroken_numbered
    {before behind : String}
    (n : Nat)
    (h : Unbroken before)
    (h' : Unbroken behind) :
    Unbroken (before ++ (n.repr ++ behind)) :=
  unbroken_append_iff.2 ⟨h, unbroken_append_iff.2 ⟨unbroken_repr n, h'⟩⟩

theorem unbroken_intercalate
    {separator : String} {items : List String}
    (between : Unbroken separator)
    (h : ∀ item ∈ items, Unbroken item) :
    Unbroken (separator.intercalate items) := by
  induction items with
  | nil =>
      rw [String.intercalate_nil]
      decide
  | cons first rest ih =>
      obtain ⟨h_first, h_rest⟩ := List.forall_mem_cons.1 h
      cases rest with
      | nil =>
          rwa [String.intercalate_singleton]
      | cons second rest =>
          rw [String.intercalate_cons_cons, unbroken_append_iff, unbroken_append_iff]
          exact ⟨⟨h_first, between⟩, ih h_rest⟩

theorem unbroken_bracketed
    {items : List String}
    (h : ∀ item ∈ items, Unbroken item) :
    Unbroken (bracketed items) := by
  have between : Unbroken (", ".intercalate items) := unbroken_intercalate (by decide) h
  rw [bracketed, unbroken_append_iff, unbroken_append_iff]
  exact ⟨⟨by decide, between⟩, by decide⟩

end Text

open Text (Unbroken)

/-- The escaped form of a character is unbroken, be the character a line feed or not. -/
theorem Escape.unbroken_character
    (c : Char) :
    Unbroken (Escape.character c) := by
  have escaped : Unbroken (Escape.escape Escape.aroundCharacter c) := by
    unfold Escape.escape
    split_ifs with nul tab cr lf quoted shows
    · decide
    · decide
    · decide
    · decide
    · rw [Text.unbroken_ofList_iff]
      simp [Ne.symm lf]
    · rw [Text.unbroken_singleton_iff]
      exact Ne.symm lf
    · simp [Escape.byCode, Text.hexDigits]
      decide
  rw [Escape.character, Text.unbroken_append_iff, Text.unbroken_append_iff]
  exact ⟨⟨by decide, escaped⟩, by decide⟩

namespace RealLayout

theorem unbroken_positionalText
    (d : Decimal) :
    Unbroken (positionalText d) := by
  have digits : '\n' ∉ d.digits := Text.not_mem_toDigits 10 d.significand
  unfold positionalText
  dsimp only
  split
  · rw [Text.unbroken_append_iff, Text.unbroken_ofList_iff]
    exact ⟨by simp [digits], by decide⟩
  · have padded (n : Nat) : '\n' ∉ List.replicate n '0' ++ d.digits := by simp [digits]
    simp only [Text.unbroken_append_iff, Text.unbroken_ofList_iff]
    exact ⟨⟨fun member => padded _ (List.mem_of_mem_take member), by decide⟩,
      fun member => padded _ (List.mem_of_mem_drop member)⟩

theorem unbroken_scientificText
    (d : Decimal) :
    Unbroken (scientificText d) := by
  have digits : '\n' ∉ d.digits := Text.not_mem_toDigits 10 d.significand
  have exponent : Unbroken ("e" ++ toString d.leadingExponent) :=
    Text.unbroken_append_iff.2 ⟨by decide, Text.unbroken_toString_int _⟩
  unfold scientificText
  dsimp only
  rw [String.append_assoc, Text.unbroken_append_iff]
  refine ⟨?_, exponent⟩
  split
  · decide
  · next digit only =>
    rw [only, List.mem_singleton] at digits
    exact Text.unbroken_singleton_iff.2 digits
  · next digit rest _ some =>
    rw [some, List.mem_cons, not_or] at digits
    simp only [Text.unbroken_append_iff, Text.unbroken_singleton_iff, Text.unbroken_ofList_iff]
    exact ⟨⟨digits.1, by decide⟩, digits.2⟩

theorem unbroken_text
    (layout : RealLayout) (x : Binary64) :
    Unbroken (layout.text x) := by
  have sign : Unbroken (if x.isNegative then "-" else "") := by
    split <;> decide
  unfold text
  dsimp only
  split
  · decide
  · exact Text.unbroken_append_iff.2 ⟨sign, by decide⟩
  · refine Text.unbroken_append_iff.2 ⟨sign, ?_⟩
    unfold magnitudeText
    dsimp only
    split
    · exact unbroken_positionalText _
    · exact unbroken_scientificText _

end RealLayout

/-- The text of a value is unbroken, whatever the value. -/
theorem Constant.unbroken_text
    (c : Constant) :
    Unbroken c.text := by
  cases c with
  | nothing =>
      decide
  | integer value =>
      exact Text.unbroken_toString_int _
  | real value =>
      exact RealLayout.unbroken_text _ value
  | boolean value =>
      cases value <;> decide
  | character value =>
      exact Escape.unbroken_character value
  | function id =>
      have text : (function id).text = "<함수 #" ++ (id.index.repr ++ ">") := by
        simp [Constant.text, toString, Kind.name, ← String.append_assoc]
      exact text ▸ Text.unbroken_numbered id.index (by decide) (by decide)
  | record id =>
      have text : (record id).text = "<구조체 #" ++ (id.index.repr ++ ">") := by
        simp [Constant.text, toString, Kind.name, ← String.append_assoc]
      exact text ▸ Text.unbroken_numbered id.index (by decide) (by decide)

/-- The names that the text of an operand shows. -/
def Operand.spellings : Operand → List String
  | .names list => list.names
  | .record name fields => name :: fields.names
  | .field name => [name]
  | .none | .index _ | .captures _ => []

theorem Variable.unbroken_text
    (v : Variable) :
    Unbroken v.text := by
  have text : v.text = v.kind.label ++ (" " ++ v.index.toNat.repr) := by
    simp [Variable.text, toString]
  have label : Unbroken v.kind.label := by
    cases v.kind <;> decide
  rw [text, Text.unbroken_append_iff, Text.unbroken_append_iff]
  exact ⟨label, by decide, Text.unbroken_repr _⟩

theorem Instruction.unbroken_text
    {i : Instruction}
    (h : ∀ name ∈ i.operand.spellings, Unbroken name) :
    Unbroken i.text := by
  have mnemonic : Unbroken i.opcode.mnemonic := by
    cases i.opcode <;> decide
  refine Text.unbroken_intercalate (by decide) (List.forall_mem_cons.2 ⟨mnemonic, ?_⟩)
  cases operand : i.operand with
  | none =>
      exact fun _ member => absurd member List.not_mem_nil
  | index value =>
      exact List.forall_mem_singleton.2 (Text.unbroken_repr value.toNat)
  | captures list =>
      refine List.forall_mem_singleton.2 (Text.unbroken_bracketed fun item member => ?_)
      obtain ⟨v, _, rfl⟩ := List.mem_map.1 member
      exact v.unbroken_text
  | names list =>
      rw [operand] at h
      exact List.forall_mem_singleton.2 (Text.unbroken_bracketed h)
  | record name fields =>
      rw [operand] at h
      obtain ⟨h_name, h_fields⟩ := List.forall_mem_cons.1 h
      exact List.forall_mem_cons.2
        ⟨h_name, List.forall_mem_singleton.2 (Text.unbroken_bracketed h_fields)⟩
  | field name =>
      rw [operand] at h
      exact h

theorem Location.unbroken_text
    {l : Location}
    (path : Unbroken l.path) :
    Unbroken l.text := by
  have line : '\n' ∉ l.line.toNat.repr.toList := Text.unbroken_repr _
  rw [Text.Unbroken, toList_text, List.mem_append, List.mem_cons, not_or, not_or]
  exact ⟨path, by decide, line⟩

end StackCode
