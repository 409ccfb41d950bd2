import Mathlib.Data.List.Basic
import StackCode.Proofs.Names.Map

/-!
# The history of a name map

A name map is filled in two passes over one list of names: first every name is bound to a default,
then the names are paired with values as far as both go. Later edits bind names or write through
names that are bound. Names can be repeated in the list, and the values can run out between two
occurrences of a name.

What a map holds is told by its history alone, the list of all writes in their order. The names are
those that were bound, each at the place where it was bound first; the value of a name is the one
that was written last. Every edit keeps this, and the two passes are edits as well.

**Results.**
* `NameMap.Records.after`: what an edit does to a map and to its history.
* `NameMap.records_ofFields`: the history of a map that is filled from names and values.
* `NameMap.follows_history`: the maps that are filled so and edited, and what they answer.
-/

namespace StackCode
namespace NameMap

variable {α : Type}

/-- A change to a map: binding a name, or writing through a name that is bound. -/
inductive Edit (α : Type) where
  | bind (name : String) (value : α)
  | assign (name : String) (value : α)

/-- The name that an edit binds, be it bound already or not. -/
def Edit.bound? : Edit α → Option String
  | bind name _ => some name
  | assign _ _ => none

/-- The map that an edit leaves behind. -/
def after (map : NameMap α) : Edit α → NameMap α
  | .bind name value => (map.exchange name value).2
  | .assign name value => map.assign name value

/-- The map that edits leave behind, one after the other. -/
def run (map : NameMap α) (edits : List (Edit α)) : NameMap α := edits.foldl after map

/-- The writes after an edit. Nothing is written through a name for which nothing was before. -/
def extend (writes : List (String × α)) : Edit α → List (String × α)
  | .bind name value => writes ++ [(name, value)]
  | .assign name value =>
    if name ∈ writes.map Prod.fst then writes ++ [(name, value)] else writes

/-- The value that was written last for a name. -/
def lastWritten (name : String) (writes : List (String × α)) : Option α :=
  (writes.filter (·.1 = name)).getLast?.map Prod.snd

/-- The map holds the names that were bound, in the order in which they were bound first, with the
values that were written last. -/
structure Records (map : NameMap α) (bound : List String) (writes : List (String × α)) : Prop where
  names_eq : map.names = bound.eraseDups
  find?_eq : ∀ name, map.find? name = lastWritten name writes

variable {map : NameMap α} {bound : List String} {writes : List (String × α)}

theorem lookUp_eq_some_iff
    {name : String} {value : α} {entries : List (String × α)}
    (nodup : (entries.map Prod.fst).Nodup) :
    lookUp name entries = some value ↔ (name, value) ∈ entries := by
  induction entries with
  | nil =>
      simp [lookUp]
  | cons entry rest ih =>
      obtain ⟨fresh, nodup⟩ := List.nodup_cons.1 nodup
      by_cases same : entry.1 = name
      · have absent : (name, value) ∉ rest := fun member =>
          fresh (same ▸ List.mem_map_of_mem member)
        obtain ⟨first, held⟩ := entry
        obtain rfl : first = name := same
        simp [lookUp, absent, eq_comm]
      · have other : (name, value) ≠ entry := fun eq => same (eq ▸ rfl)
        simp [lookUp, same, other, ih nodup]

/-- Looking a name up finds the value that stands beside it. -/
theorem find?_eq_some_iff_mem
    {name : String} {value : α} :
    map.find? name = some value ↔ (name, value) ∈ map.entries :=
  lookUp_eq_some_iff map.nodup_names

theorem contains_iff
    {name : String} :
    map.contains name = true ↔ name ∈ map.names := by
  rw [contains, Option.isSome_iff_exists]
  simp only [find?_eq_some_iff_mem, names, List.mem_map]
  constructor
  · rintro ⟨value, member⟩
    exact ⟨_, member, rfl⟩
  · rintro ⟨⟨_, value⟩, member, rfl⟩
    exact ⟨value, member⟩

/-- The entry at a position is the name there with the value that looking it up finds. -/
theorem at?_eq_some_iff
    {index : Nat} {name : String} {value : α} :
    map.at? index = some (name, value) ↔
      map.names[index]? = some name ∧ map.find? name = some value := by
  rw [at?, names, List.getElem?_map, Option.map_eq_some_iff]
  constructor
  · intro entry
    exact ⟨⟨_, entry, rfl⟩, find?_eq_some_iff_mem.2 (List.mem_of_getElem? entry)⟩
  · rintro ⟨⟨⟨_, held⟩, entry, rfl⟩, found⟩
    have same := find?_eq_some_iff_mem.2 (List.mem_of_getElem? entry)
    obtain rfl := Option.some.inj (found.symm.trans same)
    exact entry

theorem lastWritten_concat
    (name : String) (writes : List (String × α)) (entry : String × α) :
    lastWritten name (writes ++ [entry]) =
      if name = entry.1 then some entry.2 else lastWritten name writes := by
  by_cases same : entry.1 = name
  · simp [lastWritten, same]
  · simp [lastWritten, same, Ne.symm same]

theorem isSome_lastWritten_iff
    {name : String} :
    (lastWritten name writes).isSome = true ↔ name ∈ writes.map Prod.fst := by
  rw [lastWritten, Option.isSome_map, List.getLast?_isSome, Ne, List.filter_eq_nil_iff]
  simp

/-- Names that occur already add nothing to the distinct names. -/
theorem eraseDups_append_of_subset
    {names others : List String}
    (known : ∀ name ∈ others, name ∈ names) :
    (names ++ others).eraseDups = names.eraseDups := by
  have none : others.removeAll names = [] :=
    List.filter_eq_nil_iff.2 fun name member => by simpa using known name member
  simp [List.eraseDups_append, none]

theorem eraseDups_concat_of_not_mem
    {names : List String} {name : String}
    (fresh : name ∉ names) :
    (names ++ [name]).eraseDups = names.eraseDups ++ [name] := by
  simp [List.eraseDups_append, List.removeAll, fresh, List.eraseDups_cons]

theorem Records.bind
    (h : map.Records bound writes)
    (name : String) (value : α) :
    (map.bind name value).Records (bound ++ [name]) (writes ++ [(name, value)]) := by
  constructor
  · rw [names_bind, h.names_eq]
    simp only [List.mem_eraseDups]
    split
    · next old => exact (eraseDups_append_of_subset (by simpa using old)).symm
    · next fresh => exact (eraseDups_concat_of_not_mem fresh).symm
  · intro asked
    rw [find?_bind, lastWritten_concat, h.find?_eq]

theorem Records.bindAll
    (h : map.Records bound writes)
    (entries : List (String × α)) :
    (map.bindAll entries).Records (bound ++ entries.map Prod.fst) (writes ++ entries) := by
  induction entries generalizing map bound writes with
  | nil =>
      simpa [NameMap.bindAll] using h
  | cons entry rest ih =>
      rw [bindAll_cons, List.map_cons, List.append_cons, List.append_cons writes]
      exact ih (h.bind entry.1 entry.2)

/-- Writing through a name changes no names, and only the value of a name that is bound. -/
theorem Records.assign
    (h : map.Records bound writes)
    (name : String) (value : α) :
    (map.assign name value).Records bound (extend writes (.assign name value)) := by
  have known : map.contains name = true ↔ name ∈ writes.map Prod.fst := by
    rw [contains, h.find?_eq, isSome_lastWritten_iff]
  unfold NameMap.assign extend
  simp only [known]
  split
  · next old =>
    refine ⟨?_, (h.bind name value).find?_eq⟩
    rw [names_bind, if_pos (contains_iff.1 (known.2 old)), h.names_eq]
  · exact h

/-- What an edit does to a map and to its history. -/
theorem Records.after
    (h : map.Records bound writes)
    (edit : Edit α) :
    (map.after edit).Records (bound ++ edit.bound?.toList) (extend writes edit) := by
  cases edit with
  | bind name value =>
      rw [NameMap.after, exchange_eq]
      exact h.bind name value
  | assign name value =>
      rw [Edit.bound?, Option.toList_none, List.append_nil]
      exact h.assign name value

theorem run_cons
    (map : NameMap α) (edit : Edit α) (edits : List (Edit α)) :
    map.run (edit :: edits) = (map.after edit).run edits := rfl

/-- What edits do, one after the other. -/
theorem Records.run
    (h : map.Records bound writes)
    (edits : List (Edit α)) :
    (map.run edits).Records (bound ++ edits.filterMap Edit.bound?) (edits.foldl extend writes) := by
  induction edits generalizing map bound writes with
  | nil =>
      simpa [NameMap.run] using h
  | cons edit rest ih =>
      have step := ih (h.after edit)
      rw [List.append_assoc] at step
      rw [run_cons, List.filterMap_cons]
      cases named : edit.bound? with
      | none =>
          simpa [named] using step
      | some name =>
          simpa [named] using step

theorem records_empty : (empty : NameMap α).Records [] [] :=
  ⟨rfl, fun _ => rfl⟩

/-- Each name is bound to the default, then each that is paired with a value to this value. -/
theorem records_ofFields
    (list : NameList) (values : List α) (default : α) :
    (ofFields list values default).Records list.names
      (list.names.map (fun name => (name, default)) ++ list.names.zip values) := by
  have defaults : (ofNames list default).Records list.names
      (list.names.map fun name => (name, default)) := by
    simpa [ofNames, ofList, Function.comp_def] using
      records_empty.bindAll (list.names.map fun name => (name, default))
  have both := defaults.bindAll (list.names.zip values)
  refine ⟨both.names_eq.trans (eraseDups_append_of_subset ?_), both.find?_eq⟩
  intro name member
  obtain ⟨pair, among, rfl⟩ := List.mem_map.1 member
  exact (List.of_mem_zip among).1

/-- The names of a map that is filled and edited are those of the list and those that edits bound,
without repetition, each where it occurs first. The value of a name is the last that was written for
it: the default first, then the values that stand at the same places as the name, then what edits
wrote. Binding a name gives what was found under it. The other questions are answered in agreement
with the names and their values. A map that is filled without values holds the defaults. -/
theorem follows_history
    (list : NameList) (values : List α) (default : α) (edits : List (Edit α)) :
    let defaults := list.names.map fun name => (name, default)
    let map := (ofFields list values default).run edits
    map.names = (list.names ++ edits.filterMap Edit.bound?).eraseDups ∧
    (∀ name,
      map.find? name = lastWritten name (edits.foldl extend (defaults ++ list.names.zip values))) ∧
    (∀ name value, map.exchange name value = (map.find? name, map.after (.bind name value))) ∧
    map.size = map.names.length ∧
    (∀ name, map.contains name = true ↔ name ∈ map.names) ∧
    (∀ index name value,
      map.at? index = some (name, value) ↔
        map.names[index]? = some name ∧ map.find? name = some value) ∧
    (map.entries.map Prod.fst = map.names ∧
      ∀ name value, (name, value) ∈ map.entries ↔ map.find? name = some value) ∧
    ofNames list default = ofFields list [] default := by
  intro defaults map
  have records := (records_ofFields list values default).run edits
  refine ⟨records.names_eq, records.find?_eq, fun name value => ?_, ?_, fun _ => contains_iff,
    fun _ _ _ => at?_eq_some_iff, ⟨rfl, fun _ _ => find?_eq_some_iff_mem.symm⟩, ?_⟩
  · rw [after, exchange_eq]
  · rw [size, names, List.length_map]
  · rw [ofFields, List.zip_nil_right]
    rfl

/-- The second occurrence of a name has no value, and leaves the one of the first. -/
example : (ofFields ⟨["x", "y", "x"]⟩ [1, 2] 0).entries = [("x", 1), ("y", 2)] := by
  decide

end NameMap
end StackCode
