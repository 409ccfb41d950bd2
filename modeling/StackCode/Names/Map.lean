import StackCode.Names.List

/-!
# Name maps

A map from names to values that keeps the order in which its names were first bound. Binding a name
again replaces the value and keeps the place; that no name occurs twice is part of the type.
-/

namespace StackCode

/-- An insertion-ordered map from names. -/
@[ext]
structure NameMap (α : Type) where
  entries : List (String × α)
  nodup_names : (entries.map Prod.fst).Nodup
deriving DecidableEq

namespace NameMap

variable {α : Type}

def empty : NameMap α := ⟨[], List.nodup_nil⟩

instance : Inhabited (NameMap α) := ⟨empty⟩

/-- The names, in the order in which they were first bound. -/
def names (map : NameMap α) : List String := map.entries.map Prod.fst

def size (map : NameMap α) : Nat := map.entries.length

def isEmpty (map : NameMap α) : Bool := map.entries.isEmpty

/-- The value of the first entry for a name. -/
def lookUp (name : String) : List (String × α) → Option α
  | [] => none
  | entry :: rest => if entry.1 = name then some entry.2 else lookUp name rest

def find? (map : NameMap α) (name : String) : Option α := lookUp name map.entries

def contains (map : NameMap α) (name : String) : Bool := (map.find? name).isSome

/-- The name and value at a position. -/
def at? (map : NameMap α) (index : Nat) : Option (String × α) := map.entries[index]?

/-- Binds a name in a list of entries: in place if the name is there, at the end otherwise. -/
def bindEntry (name : String) (value : α) : List (String × α) → List (String × α)
  | [] => [(name, value)]
  | entry :: rest =>
    if entry.1 = name then (name, value) :: rest else entry :: bindEntry name value rest

theorem names_bindEntry (name : String) (value : α) (entries : List (String × α)) :
    (bindEntry name value entries).map Prod.fst =
      if name ∈ entries.map Prod.fst then entries.map Prod.fst
      else entries.map Prod.fst ++ [name] := by
  induction entries with
  | nil => simp [bindEntry]
  | cons entry rest ih =>
    by_cases h : entry.1 = name
    · simp [bindEntry, h]
    · have h' : ¬ name = entry.1 := fun e => h e.symm
      simp only [bindEntry, if_neg h, List.map_cons, List.mem_cons, h', false_or, ih]
      split <;> simp

theorem nodup_bindEntry {name : String} {value : α} {entries : List (String × α)}
    (h : (entries.map Prod.fst).Nodup) :
    ((bindEntry name value entries).map Prod.fst).Nodup := by
  rw [names_bindEntry]
  split
  · exact h
  · next absent =>
    rw [List.nodup_append]
    refine ⟨h, by simp, ?_⟩
    rintro a ha b hb rfl
    exact absent (List.mem_singleton.1 hb ▸ ha)

/-- Binds a name to a value. -/
def bind (map : NameMap α) (name : String) (value : α) : NameMap α :=
  ⟨bindEntry name value map.entries, nodup_bindEntry map.nodup_names⟩

/-- Binds a name in a list of entries, and gives the value that it had. -/
def exchangeEntry (name : String) (value : α) : List (String × α) → Option α × List (String × α)
  | [] => (none, [(name, value)])
  | entry :: rest =>
    if entry.1 = name then (some entry.2, (name, value) :: rest)
    else
      let (former, others) := exchangeEntry name value rest
      (former, entry :: others)

theorem exchangeEntry_eq (name : String) (value : α) (entries : List (String × α)) :
    exchangeEntry name value entries = (lookUp name entries, bindEntry name value entries) := by
  induction entries with
  | nil => rfl
  | cons entry rest ih =>
    by_cases h : entry.1 = name
    · simp [exchangeEntry, lookUp, bindEntry, h]
    · simp [exchangeEntry, lookUp, bindEntry, h, ih]

/-- Binds a name to a value, and gives the value that the name had. -/
def exchange (map : NameMap α) (name : String) (value : α) : Option α × NameMap α :=
  let exchanged := exchangeEntry name value map.entries
  have nodup : (exchanged.2.map Prod.fst).Nodup := by
    simp only [exchanged, exchangeEntry_eq]
    exact nodup_bindEntry map.nodup_names
  (exchanged.1, ⟨exchanged.2, nodup⟩)

/-- Replaces the value of a name that is bound already, and leaves the map as it is otherwise. -/
def assign (map : NameMap α) (name : String) (value : α) : NameMap α :=
  if map.contains name then map.bind name value else map

/-- Binds the given entries in order. -/
def bindAll (map : NameMap α) (entries : List (String × α)) : NameMap α :=
  entries.foldl (fun map entry => map.bind entry.1 entry.2) map

/-- The map of the given entries; of two entries for one name, the first gives the place and the
last the value. -/
def ofList (entries : List (String × α)) : NameMap α := empty.bindAll entries

/-- Every name of the list, bound to one value. -/
def ofNames (list : NameList) (value : α) : NameMap α :=
  ofList (list.names.map fun name => (name, value))

/-- Every name of the list, bound to the value at the same position. A name for whose occurrences
there is no value is bound to `default`. -/
def ofFields (list : NameList) (values : List α) (default : α) : NameMap α :=
  (ofNames list default).bindAll (list.names.zip values)

/-- Whether two maps bind the same names, in any order, to values that agree. -/
def agrees (agree : α → α → Bool) (a b : NameMap α) : Bool :=
  a.size = b.size &&
    a.entries.all fun entry => (b.find? entry.1).any (agree entry.2)

/-- Binding a name adds it behind the others, unless it is bound already. -/
theorem names_bind (map : NameMap α) (name : String) (value : α) :
    (map.bind name value).names =
      if name ∈ map.names then map.names else map.names ++ [name] :=
  names_bindEntry name value map.entries

theorem lookUp_bindEntry (name : String) (value : α) (entries : List (String × α))
    (asked : String) :
    lookUp asked (bindEntry name value entries) =
      if asked = name then some value else lookUp asked entries := by
  induction entries with
  | nil =>
    by_cases h : asked = name
    · subst h
      simp [bindEntry, lookUp]
    · have h' : ¬ name = asked := fun e => h e.symm
      simp [bindEntry, lookUp, h, h']
  | cons entry rest ih =>
    by_cases h : entry.1 = name
    · by_cases ha : asked = name
      · subst ha
        simp [bindEntry, lookUp, h]
      · have ha' : ¬ name = asked := fun e => ha e.symm
        simp [bindEntry, lookUp, h, ha, ha']
    · by_cases hf : entry.1 = asked
      · have ha : ¬ asked = name := fun e => h (hf.trans e)
        simp [bindEntry, lookUp, hf, ha]
      · simp [bindEntry, lookUp, h, hf, ih]

/-- After binding, the name has the new value and every other name the old one. -/
theorem find?_bind (map : NameMap α) (name : String) (value : α) (asked : String) :
    (map.bind name value).find? asked = if asked = name then some value else map.find? asked :=
  lookUp_bindEntry name value map.entries asked

/-- Exchanging a value is binding the name and giving what was found under it. -/
theorem exchange_eq (map : NameMap α) (name : String) (value : α) :
    map.exchange name value = (map.find? name, map.bind name value) := by
  simp only [exchange, find?, bind, exchangeEntry_eq]

end NameMap
end StackCode
