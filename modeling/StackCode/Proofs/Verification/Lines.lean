import StackCode.Proofs.Verification.First

/-!
# Lines of code that passes verification

A lookup in a line map applies records from the front and stops at the first that starts behind the
instruction. In a map whose records ascend nothing behind this record can start earlier, so the
lookup applies exactly the records that start at or before the instruction. The line and the path of
a location change independently: each is what the last applied record of its kind says.

Two checks tell whether a map ascends. One compares the neighbours, the other goes along with the
start of the record in front, from zero on. They agree with each other and with the order of all
pairs.

**Results.**
* `LineMap.isSorted_iff`, `Descriptor.isSorted_iff_not_reported`: the two checks.
* `LineMap.locate_of_ascending`: what a lookup applies.
* `LineMap.exact_of_isSorted`: lookups in sorted maps.
-/

namespace StackCode

section Prefixes

variable {α : Type} {P Q : α → Bool} {items : List α}

/-- Where no item satisfies a condition without those in front of it, nothing behind a failure
satisfies it. -/
theorem filter_eq_nil_of_head
    {first : α}
    (h : (first :: items).Pairwise fun earlier later => P later = true → P earlier = true)
    (fails : P first = false) :
    items.filter P = [] := by
  refine List.filter_eq_nil_iff.2 fun later member passes => ?_
  cases fails.symm.trans (List.rel_of_pairwise_cons h member passes)

/-- Where no item satisfies a condition without those in front of it, the items that satisfy it
stand in front. -/
theorem takeWhile_eq_filter_of_pairwise
    (h : items.Pairwise fun earlier later => P later = true → P earlier = true) :
    items.takeWhile P = items.filter P := by
  induction items with
  | nil =>
      rfl
  | cons first rest ih =>
      cases passes : P first with
      | true =>
          rw [List.takeWhile_cons_of_pos passes, List.filter_cons_of_pos passes,
            ih (List.Pairwise.of_cons h)]
      | false =>
          simp [passes, filter_eq_nil_of_head h passes]

/-- The items that satisfy a wider condition are those in front, then those that satisfy only the
wider one. -/
theorem filter_eq_append_of_pairwise
    (h : items.Pairwise fun earlier later => P later = true → P earlier = true)
    (wider : ∀ a, P a = true → Q a = true) :
    items.filter Q = items.filter P ++ items.filter fun a => !P a && Q a := by
  induction items with
  | nil =>
      rfl
  | cons first rest ih =>
      have behind := ih (List.Pairwise.of_cons h)
      cases passes : P first with
      | true =>
          simp [passes, wider first passes, behind]
      | false =>
          have none_later : rest.filter P = [] := filter_eq_nil_of_head h passes
          rw [none_later, List.nil_append] at behind
          simp [List.filter_cons, passes, none_later, behind]

end Prefixes

namespace LineChange

/-- The line that a change leads to, if it is one of the line. -/
def line? : LineChange → Option UInt16
  | line number => some number
  | path _ => none

/-- The path that a change leads to, if it is one of the file. -/
def path? : LineChange → Option String
  | line _ => none
  | path name => some name

end LineChange

namespace Location

/-- The location after the changes of some records, from the front. -/
def applyAll (l : Location) (records : List (UInt32 × LineChange)) : Location :=
  records.foldl (fun l record => l.apply record.2) l

/-- A part of a location that one kind of change determines and the others keep is, after some
changes, what the last of its kind says. -/
theorem part_applyAll
    {α : Type} (part : Location → α) (kind : LineChange → Option α)
    (changes : ∀ l change, part (l.apply change) = (kind change).getD (part l))
    (l : Location) (records : List (UInt32 × LineChange)) :
    part (l.applyAll records) =
      ((records.filterMap fun record => kind record.2).getLast?).getD (part l) := by
  induction records generalizing l with
  | nil =>
      rfl
  | cons first rest ih =>
      have step : l.applyAll (first :: rest) = (l.apply first.2).applyAll rest := rfl
      rw [step, ih, changes, List.filterMap_cons]
      cases kind first.2 with
      | none =>
          rfl
      | some value =>
          rw [List.getLast?_cons]
          rfl

end Location

namespace LineMap

/-- What the last record of a kind says, among those that start at or before an instruction. -/
def latest? {α : Type} (map : LineMap) (kind : LineChange → Option α) (offset : Nat) : Option α :=
  ((map.records.filter (·.1.toNat ≤ offset)).filterMap fun record => kind record.2).getLast?

variable {map : LineMap} {records : List (UInt32 × LineChange)}

theorem isSortedList_iff :
    isSortedList records = true ↔ Ascending records := by
  fun_induction isSortedList records with
  | case1 first second rest ih =>
      rw [Bool.and_eq_true, decide_eq_true_eq, ih, Ascending, Ascending,
        List.pairwise_cons (a := first)]
      constructor
      · rintro ⟨le, ascending⟩
        refine ⟨List.forall_mem_cons.2 ⟨le, fun later member => ?_⟩, ascending⟩
        exact UInt32.le_trans le (List.rel_of_pairwise_cons ascending member)
      · rintro ⟨below, ascending⟩
        exact ⟨below second List.mem_cons_self, ascending⟩
  | case2 records short =>
      refine iff_of_true rfl ?_
      cases records with
      | nil =>
          exact List.Pairwise.nil
      | cons first rest =>
          cases rest with
          | nil =>
              exact List.pairwise_singleton _ _
          | cons second rest =>
              exact (short first second rest rfl).elim

theorem ascending_iff_getElem? :
    Ascending records ↔
      ∀ (i j : Nat) (earlier later : UInt32 × LineChange), i ≤ j →
        records[i]? = some earlier → records[j]? = some later → earlier.1 ≤ later.1 := by
  rw [Ascending, List.pairwise_iff_getElem]
  constructor
  · intro ascending i j earlier later le at_i at_j
    obtain ⟨inside_i, rfl⟩ := List.getElem?_eq_some_iff.1 at_i
    obtain ⟨inside_j, rfl⟩ := List.getElem?_eq_some_iff.1 at_j
    rcases Nat.eq_or_lt_of_le le with rfl | less
    · exact UInt32.le_refl _
    · exact ascending i j inside_i inside_j less
  · intro ordered i j inside_i inside_j less
    exact ordered i j _ _ (Nat.le_of_lt less) (List.getElem?_eq_getElem inside_i)
      (List.getElem?_eq_getElem inside_j)

/-- Comparing neighbours tells the order of all pairs. -/
theorem isSorted_iff :
    map.isSorted = true ↔
      ∀ i j earlier later, i ≤ j → map.get? i = some earlier → map.get? j = some later →
        earlier.1 ≤ later.1 :=
  isSortedList_iff.trans ascending_iff_getElem?

/-- If a record of an ascending map starts at or before an instruction, so do those in front. -/
theorem Ascending.pairwise_imp
    (ascending : Ascending records)
    (offset : Nat) :
    records.Pairwise fun earlier later =>
      decide (later.1.toNat ≤ offset) = true → decide (earlier.1.toNat ≤ offset) = true := by
  refine List.Pairwise.imp (fun le => ?_) ascending
  have below := UInt32.le_iff_toNat_le.1 le
  simp only [decide_eq_true_eq]
  omega

/-- In an ascending map a lookup applies the records that start at or before the instruction. -/
theorem locate_of_ascending
    (ascending : Ascending map.records)
    (offset : Nat) (origin : Location) :
    map.locate offset origin = origin.applyAll (map.records.filter (·.1.toNat ≤ offset)) := by
  rw [locate, takeWhile_eq_filter_of_pairwise (ascending.pairwise_imp offset)]
  rfl

/-- From one instruction to a later one, a lookup goes on with the records between them. -/
theorem locate_of_le
    {a b : Nat}
    (ascending : Ascending map.records)
    (le : a ≤ b)
    (origin : Location) :
    map.locate b origin =
      (map.locate a origin).applyAll
        (map.records.filter fun record => a < record.1.toNat && record.1.toNat ≤ b) := by
  have wider (record : UInt32 × LineChange) :
      decide (record.1.toNat ≤ a) = true → decide (record.1.toNat ≤ b) = true := by
    simp only [decide_eq_true_eq]
    omega
  rw [locate_of_ascending ascending, locate_of_ascending ascending,
    filter_eq_append_of_pairwise (ascending.pairwise_imp a) wider, Location.applyAll,
    List.foldl_append]
  simp only [← decide_not, Nat.not_le]
  rfl

end LineMap

namespace Descriptor

variable {p : Program} {d : Descriptor Constant}

/-- The violation of an instruction is no fault of the line map. -/
theorem not_violates_unsortedLines
    {i : Instruction} {start : UInt32} :
    ¬ i.Violates p d (.unsortedLines start) := by
  intro violates
  cases violates

/-- Going along with the start of the record in front tells the order of neighbours. -/
theorem isSorted_iff_not_reported :
    d.lines.isSorted = true ↔
      ∀ name offset start,
        d.verify p ≠ .error (.invalidFunction name offset (.unsortedLines start)) := by
  rw [LineMap.isSorted, LineMap.isSortedList_iff, ← LineMap.firstUnsorted_eq_none_iff]
  constructor
  · intro sorted name offset start reported
    obtain ⟨_, _, violates, same⟩ := verify_eq_error_iff.1 reported
    cases same
    cases violates with
    | lines _ drop =>
        cases sorted.symm.trans (LineMap.firstUnsorted_eq_some_iff.2 drop)
    | code _ _ _ _ _ violates =>
        exact not_violates_unsortedLines violates
  · intro not_reported
    cases found : LineMap.firstUnsorted 0 d.lines.records with
    | none =>
        rfl
    | some start =>
        have drop := LineMap.firstUnsorted_eq_some_iff.1 found
        exact (not_reported _ _ _ (verify_eq_error_iff.2 ⟨_, _, .lines start drop, rfl⟩)).elim

end Descriptor

namespace LineMap

/-- Whether a map is sorted is told by its neighbours and by the verifier of every descriptor that
has it. In a sorted map, line and path are what the last records of their kinds say that start at or
before the instruction, and a lookup further on applies exactly the records between. -/
theorem exact_of_isSorted
    (map : LineMap) :
    (map.isSorted = true ↔
      ∀ i j earlier later, i ≤ j → map.get? i = some earlier → map.get? j = some later →
        earlier.1 ≤ later.1) ∧
    (∀ (p : Program) (d : Descriptor Constant), d.lines = map →
      (map.isSorted = true ↔ ∀ name offset start,
        d.verify p ≠ .error (.invalidFunction name offset (.unsortedLines start)))) ∧
    (map.isSorted = true → ∀ origin : Location,
      (∀ offset,
        (map.locate offset origin).line = (map.latest? LineChange.line? offset).getD origin.line ∧
        (map.locate offset origin).path = (map.latest? LineChange.path? offset).getD origin.path) ∧
      ∀ a b, a ≤ b →
        map.locate b origin =
          (map.locate a origin).applyAll
            (map.records.filter fun record => a < record.1.toNat && record.1.toNat ≤ b)) := by
  refine ⟨isSorted_iff, ?_, fun sorted origin => ?_⟩
  · rintro p d rfl
    exact Descriptor.isSorted_iff_not_reported
  · have ascending : Ascending map.records := isSortedList_iff.1 sorted
    refine ⟨fun offset => ?_, fun a b le => locate_of_le ascending le origin⟩
    rw [locate_of_ascending ascending]
    constructor
    · refine Location.part_applyAll Location.line LineChange.line? ?_ _ _
      intro l change
      cases change <;> rfl
    · refine Location.part_applyAll Location.path LineChange.path? ?_ _ _
      intro l change
      cases change <;> rfl

/-- A map with records of both kinds, three of them for one instruction. -/
def mixed : LineMap := ⟨[(0, .line 2), (3, .path "b"), (3, .line 4), (3, .line 5), (7, .path "c")]⟩

/-- A descriptor with this map. -/
def mixedLines : Descriptor Constant :=
  { (.named "mixed" : Descriptor Constant) with lines := mixed }

theorem exact_of_isSorted_mixed :
    mixed.isSorted = true ∧
      (∀ name offset start,
        mixedLines.verify .empty ≠ .error (.invalidFunction name offset (.unsortedLines start))) ∧
      mixed.locate 3 ⟨"a", 1⟩ = ⟨"b", 5⟩ ∧
      mixed.locate 9 ⟨"a", 1⟩ = (mixed.locate 3 ⟨"a", 1⟩).apply (.path "c") := by
  have sorted : mixed.isSorted = true := by decide
  obtain ⟨_, verifies, lookups⟩ := exact_of_isSorted mixed
  obtain ⟨parts, further⟩ := lookups sorted ⟨"a", 1⟩
  have line : (mixed.locate 3 ⟨"a", 1⟩).line = 5 := (parts 3).1
  have path : (mixed.locate 3 ⟨"a", 1⟩).path = "b" := (parts 3).2
  refine ⟨sorted, (verifies .empty mixedLines rfl).1 sorted, ?_, further 3 9 (by decide)⟩
  rw [← line, ← path]

end LineMap
end StackCode
