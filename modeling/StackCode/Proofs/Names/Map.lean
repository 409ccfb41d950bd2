import StackCode.Names.Map

/-!
# What name maps hold

Binding entries in order leaves the names in the order in which they were first bound. A map that
binds every name of a list to one value therefore holds the distinct names of the list, in order of
first occurrence.

**Results.**
* `NameMap.names_bindAll`: the names after binding entries.
* `NameMap.entries_ofNames`: the entries of a map that binds a list of names.
-/

namespace StackCode
namespace NameMap

variable {α : Type}

theorem bindAll_cons
    (map : NameMap α) (entry : String × α) (entries : List (String × α)) :
    map.bindAll (entry :: entries) = (map.bind entry.1 entry.2).bindAll entries := rfl

/-- Names that are not bound yet are appended, each once. -/
theorem names_bindAll
    (map : NameMap α) (entries : List (String × α)) :
    (map.bindAll entries).names =
      map.names ++ ((entries.map Prod.fst).removeAll map.names).eraseDups := by
  induction entries generalizing map with
  | nil =>
      simp [bindAll, List.removeAll]
  | cons entry entries ih =>
      rw [bindAll_cons, ih, names_bind, List.map_cons, List.cons_removeAll]
      by_cases bound : entry.1 ∈ map.names
      · simp [bound]
      · have rest : (entries.map Prod.fst).removeAll (map.names ++ [entry.1]) =
            ((entries.map Prod.fst).removeAll map.names).filter (fun name => !name == entry.1) := by
          simp only [List.removeAll, List.filter_filter]
          refine List.filter_congr fun name _ => ?_
          by_cases same : name = entry.1 <;> simp [same]
        rw [if_neg bound, rest]
        simp [bound, List.eraseDups_cons]

/-- Every entry of a map is one that was bound, or was there before. -/
theorem mem_bindEntry
    {name : String} {value : α} {entries : List (String × α)} {entry : String × α}
    (h : entry ∈ bindEntry name value entries) :
    entry = (name, value) ∨ entry ∈ entries := by
  induction entries with
  | nil =>
      exact Or.inl (List.mem_singleton.1 h)
  | cons first rest ih =>
      unfold bindEntry at h
      split at h
      · rcases List.mem_cons.1 h with rfl | later
        · exact Or.inl rfl
        · exact Or.inr (List.mem_cons_of_mem _ later)
      · rcases List.mem_cons.1 h with rfl | later
        · exact Or.inr List.mem_cons_self
        · rcases ih later with rfl | old
          · exact Or.inl rfl
          · exact Or.inr (List.mem_cons_of_mem _ old)

/-- What holds of the entries of a map and of those that are bound holds of the entries after. -/
theorem forall_bindAll
    {P : String × α → Prop} {map : NameMap α} {entries : List (String × α)}
    (before : ∀ entry ∈ map.entries, P entry)
    (bound : ∀ entry ∈ entries, P entry) :
    ∀ entry ∈ (map.bindAll entries).entries, P entry := by
  induction entries generalizing map with
  | nil =>
      exact before
  | cons first rest ih =>
      obtain ⟨bound_first, bound_rest⟩ := List.forall_mem_cons.1 bound
      refine ih (fun entry member => ?_) bound_rest
      rcases mem_bindEntry member with rfl | old
      · exact bound_first
      · exact before entry old

/-- A map of names binds the distinct names of the list, in order of first occurrence. -/
theorem entries_ofNames
    (list : NameList) (value : α) :
    (ofNames list value).entries = list.names.eraseDups.map fun name => (name, value) := by
  have names : (ofNames list value).names = list.names.eraseDups := by
    rw [ofNames, ofList, names_bindAll]
    have all : list.names.filter (fun _ => true) = list.names :=
      List.filter_eq_self.2 fun _ _ => rfl
    simp [names, empty, List.removeAll, Function.comp_def, all]
  have values : ∀ entry ∈ (ofNames list value).entries, entry.2 = value := by
    refine forall_bindAll (fun _ h => by cases h) fun entry member => ?_
    obtain ⟨name, _, rfl⟩ := List.mem_map.1 member
    rfl
  rw [← names, NameMap.names, List.map_map]
  refine (List.map_id _).symm.trans (List.map_congr_left fun entry member => ?_)
  rw [← values entry member]
  rfl

end NameMap
end StackCode
