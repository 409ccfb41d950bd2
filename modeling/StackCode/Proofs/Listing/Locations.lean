import StackCode.Listing

/-!
# Locations in listings

A listing shows the location of an instruction behind its text, where the line number is another one
than for the instruction in front. The number that is remembered from line to line is the number of
the instruction in front, also where nothing was shown; this is the invariant of the loop. So the
location shown last is that of the first instruction of the run of equal line numbers.

The path is not compared. If it changes inside a run, the location shown last names the path that
the run started with, and the change is shown with the next line number or not at all.

**Results.**
* `Location.text_injective`: the text of a location determines it.
* `Descriptor.showsAt_none_iff`, `Descriptor.showsAt_some_iff`: what an instruction's line shows.
* `Descriptor.showsLocations_iff`: the location shown last, and when it is the instruction's own.
-/

namespace StackCode

namespace Location

/-- The last separator of a list parts it in one way. -/
theorem append_cons_inj_of_not_mem
    {α : Type} {separator : α} {before before' behind behind' : List α}
    (last : separator ∉ behind)
    (last' : separator ∉ behind')
    (same : before ++ separator :: behind = before' ++ separator :: behind') :
    before = before' ∧ behind = behind' := by
  -- If one part in front were longer, it would hold the other separator, or the other way round.
  rcases List.append_eq_append_iff.1 same with ⟨more, rfl, parts⟩ | ⟨more, rfl, parts⟩
  · cases more with
    | nil =>
        exact ⟨(List.append_nil _).symm, (List.cons.inj parts).2⟩
    | cons first rest =>
        obtain ⟨rfl, rfl⟩ := List.cons.inj parts
        simp at last
  · cases more with
    | nil =>
        exact ⟨List.append_nil _, (List.cons.inj parts).2.symm⟩
    | cons first rest =>
        obtain ⟨rfl, rfl⟩ := List.cons.inj parts
        simp at last'

theorem not_mem_repr
    (n : Nat) :
    ':' ∉ n.repr.toList := by
  rw [Nat.toList_repr]
  intro member
  cases Nat.isDigit_of_mem_toDigits (by decide) (by decide) member

theorem repr_injective
    {m n : Nat}
    (same : m.repr.toList = n.repr.toList) :
    m = n := by
  rw [Nat.toList_repr, Nat.toList_repr] at same
  have read_back := congrArg (fun digits => Nat.ofDigitChars 10 digits 0) same
  simpa using read_back

theorem toList_text
    (l : Location) :
    l.text.toList = l.path.toList ++ ':' :: l.line.toNat.repr.toList := by
  have text : l.text = l.path ++ (":" ++ l.line.toNat.repr) := by
    simp [Location.text, toString]
  rw [text, String.toList_append, String.toList_append]
  rfl

theorem text_injective
    {l l' : Location}
    (same : l.text = l'.text) :
    l = l' := by
  have parts := congrArg String.toList same
  rw [toList_text, toList_text] at parts
  obtain ⟨path, line⟩ := append_cons_inj_of_not_mem (not_mem_repr _) (not_mem_repr _) parts
  obtain ⟨p, n⟩ := l
  obtain ⟨p', n'⟩ := l'
  rw [Location.mk.injEq]
  exact ⟨String.toList_inj.1 path, UInt16.toNat.inj (repr_injective line)⟩

end Location

/-- What the line of an instruction in a listing says of its location: nothing, or a location behind
the text of the instruction. -/
inductive Instruction.Shows (offset : Nat) (i : Instruction) : Option Location → String → Prop
  | bare :
      Shows offset i none (Descriptor.bareLine offset i.text)
  | located (l : Location) :
      Shows offset i (some l)
        (Descriptor.bareLine offset (Text.padRight 32 i.text) ++ " ; " ++ l.text)

namespace Descriptor

variable {d : Descriptor Constant}

/-- The line number of the instruction in front. -/
def lineBefore (d : Descriptor Constant) : Nat → Option UInt16
  | 0 => none
  | before + 1 => some (d.locate before).line

/-- The line number of the instruction in front goes on. -/
def Repeats (d : Descriptor Constant) (k : Nat) : Prop := d.lineBefore k = some (d.locate k).line

/-- What the listing of a descriptor shows of the location of an instruction, in the line of the
instruction. -/
def ShowsAt (d : Descriptor Constant) (k : Nat) (shown : Option Location) : Prop :=
  ∃ i line, d.code[k]? = some i ∧
    d.bodyLines[d.pool.length + d.globals.length + k]? = some line ∧ i.Shows k shown line

/-- The location shown last, in the line of an instruction or in front of it. -/
def LastShown (d : Descriptor Constant) (k : Nat) (l : Location) : Prop :=
  ∃ j ≤ k, d.ShowsAt j (some l) ∧ ∀ m, j < m → m ≤ k → d.ShowsAt m none

/-- The run of equal line numbers that an instruction belongs to starts at another. -/
structure LineSince (d : Descriptor Constant) (start k : Nat) : Prop where
  le : start ≤ k
  line : ∀ m, start ≤ m → m ≤ k → (d.locate m).line = (d.locate k).line
  first : ¬ d.Repeats start

/-- The location shown last is that of the instruction, for every instruction. -/
def ShowsLocations (d : Descriptor Constant) : Prop :=
  ∀ k < d.code.length, ∀ l, d.LastShown k l ↔ l = d.locate k

/-- The line of an instruction. -/
def codeLine (d : Descriptor Constant) (offset : Nat) (i : Instruction) : String :=
  if d.lineBefore offset = some (d.locate offset).line then bareLine offset i.text
  else bareLine offset (Text.padRight 32 i.text) ++ " ; " ++ (d.locate offset).text

theorem codeLine_of_repeats
    {k : Nat} {i : Instruction}
    (repeats : d.Repeats k) :
    d.codeLine k i = bareLine k i.text :=
  if_pos repeats

theorem codeLine_of_not_repeats
    {k : Nat} {i : Instruction}
    (changes : ¬ d.Repeats k) :
    d.codeLine k i = bareLine k (Text.padRight 32 i.text) ++ " ; " ++ (d.locate k).text :=
  if_neg changes

theorem getElem?_codeLines
    {offset k : Nat} {code : List Instruction} :
    (d.codeLines offset (d.lineBefore offset) code)[k]? =
      code[k]?.map (d.codeLine (offset + k)) := by
  induction code generalizing offset k with
  | nil =>
      rfl
  | cons i rest ih =>
      -- What is remembered behind an instruction is its own line number.
      have step : d.codeLines offset (d.lineBefore offset) (i :: rest) =
          d.codeLine offset i :: d.codeLines (offset + 1) (d.lineBefore (offset + 1)) rest := rfl
      rw [step]
      cases k with
      | zero =>
          rfl
      | succ k =>
          rw [List.getElem?_cons_succ, List.getElem?_cons_succ, ih, Nat.add_right_comm,
            Nat.add_assoc]

theorem getElem?_bodyLines
    (k : Nat) :
    d.bodyLines[d.pool.length + d.globals.length + k]? = d.code[k]?.map (d.codeLine k) := by
  have in_front : (numberedLines "const" 4 (d.pool.map Constant.text) ++
      numberedLines "global" 3 d.globals).length = d.pool.length + d.globals.length := by
    simp [numberedLines]
  rw [bodyLines, List.getElem?_append_right (by omega), in_front, Nat.add_sub_cancel_left]
  exact getElem?_codeLines.trans (by rw [Nat.zero_add])

theorem length_lt_length_located
    (offset : Nat) (text place : String) :
    (bareLine offset text).length <
      (bareLine offset (Text.padRight 32 text) ++ " ; " ++ place).length := by
  have separator : " ; ".length = 3 := rfl
  simp only [bareLine, Text.padRight, String.length_append, separator]
  omega

/-- The line of an instruction tells what it shows. -/
theorem shows_unique
    {i : Instruction} {k : Nat} {line : String} {shown shown' : Option Location}
    (h : i.Shows k shown line)
    (h' : i.Shows k shown' line) :
    shown = shown' := by
  cases h with
  | bare =>
      generalize same : bareLine k i.text = line at h'
      cases h' with
      | bare =>
          rfl
      | located l =>
          exact absurd (congrArg String.length same) (Nat.ne_of_lt (length_lt_length_located k _ _))
  | located l =>
      generalize same : bareLine k (Text.padRight 32 i.text) ++ " ; " ++ l.text = line at h'
      cases h' with
      | bare =>
          exact absurd (congrArg String.length same).symm
            (Nat.ne_of_lt (length_lt_length_located k _ _))
      | located l' =>
          rw [Location.text_injective ((String.append_right_inj _).1 same)]

/-- An instruction shows nothing or its own location. -/
theorem showsAt_iff
    {k : Nat} {shown : Option Location} :
    d.ShowsAt k shown ↔
      k < d.code.length ∧
        (d.Repeats k ∧ shown = none ∨ ¬ d.Repeats k ∧ shown = some (d.locate k)) := by
  constructor
  · rintro ⟨i, line, at_k, printed, shows⟩
    refine ⟨(List.getElem?_eq_some_iff.1 at_k).1, ?_⟩
    rw [getElem?_bodyLines, at_k] at printed
    obtain rfl := Option.some.inj printed
    by_cases repeats : d.Repeats k
    · rw [codeLine_of_repeats repeats] at shows
      exact Or.inl ⟨repeats, shows_unique shows .bare⟩
    · rw [codeLine_of_not_repeats repeats] at shows
      exact Or.inr ⟨repeats, shows_unique shows (.located _)⟩
  · rintro ⟨inside, which⟩
    have at_k : d.code[k]? = some d.code[k] := List.getElem?_eq_getElem inside
    refine ⟨d.code[k], d.codeLine k d.code[k], at_k, by rw [getElem?_bodyLines, at_k]; rfl, ?_⟩
    rcases which with ⟨repeats, rfl⟩ | ⟨changes, rfl⟩
    · rw [codeLine_of_repeats repeats]
      exact .bare
    · rw [codeLine_of_not_repeats changes]
      exact .located _

theorem showsAt_none_iff
    {k : Nat} :
    d.ShowsAt k none ↔ k < d.code.length ∧ d.Repeats k := by
  simp [showsAt_iff]

theorem showsAt_some_iff
    {k : Nat} {l : Location} :
    d.ShowsAt k (some l) ↔ k < d.code.length ∧ ¬ d.Repeats k ∧ l = d.locate k := by
  simp [showsAt_iff]

theorem lastShown_of_not_repeats
    {k : Nat} {l : Location}
    (inside : k < d.code.length)
    (changes : ¬ d.Repeats k) :
    d.LastShown k l ↔ l = d.locate k := by
  constructor
  · rintro ⟨j, le, shown, none_behind⟩
    rcases Nat.eq_or_lt_of_le le with rfl | less
    · exact (showsAt_some_iff.1 shown).2.2
    · exact absurd (showsAt_none_iff.1 (none_behind k less (Nat.le_refl k))).2 changes
  · rintro rfl
    exact ⟨k, Nat.le_refl k, showsAt_some_iff.2 ⟨inside, changes, rfl⟩,
      fun m above below => by omega⟩

theorem lastShown_succ_of_repeats
    {k : Nat} {l : Location}
    (inside : k + 1 < d.code.length)
    (repeats : d.Repeats (k + 1)) :
    d.LastShown (k + 1) l ↔ d.LastShown k l := by
  constructor
  · rintro ⟨j, le, shown, none_behind⟩
    rcases Nat.eq_or_lt_of_le le with rfl | less
    · exact absurd repeats (showsAt_some_iff.1 shown).2.1
    · exact ⟨j, Nat.le_of_lt_succ less, shown, fun m above below => none_behind m above (by omega)⟩
  · rintro ⟨j, le, shown, none_behind⟩
    refine ⟨j, Nat.le_succ_of_le le, shown, fun m above below => ?_⟩
    rcases Nat.eq_or_lt_of_le below with rfl | less
    · exact showsAt_none_iff.2 ⟨inside, repeats⟩
    · exact none_behind m above (Nat.le_of_lt_succ less)

theorem repeats_succ_iff
    {k : Nat} :
    d.Repeats (k + 1) ↔ (d.locate k).line = (d.locate (k + 1)).line :=
  Option.some_inj

theorem lineSince_of_not_repeats
    {k : Nat}
    (changes : ¬ d.Repeats k) :
    d.LineSince k k := by
  refine ⟨Nat.le_refl k, fun m above below => ?_, changes⟩
  rw [Nat.le_antisymm below above]

theorem LineSince.succ
    {start k : Nat}
    (h : d.LineSince start k)
    (repeats : d.Repeats (k + 1)) :
    d.LineSince start (k + 1) := by
  refine ⟨Nat.le_succ_of_le h.le, fun m above below => ?_, h.first⟩
  rcases Nat.eq_or_lt_of_le below with rfl | less
  · rfl
  · exact (h.line m above (Nat.le_of_lt_succ less)).trans (repeats_succ_iff.1 repeats)

/-- The location shown last is that of the instruction with which the line number started. -/
theorem exists_lineSince
    {k : Nat}
    (inside : k < d.code.length) :
    ∃ start, d.LineSince start k ∧ ∀ l, d.LastShown k l ↔ l = d.locate start := by
  induction k with
  | zero =>
      have changes : ¬ d.Repeats 0 := fun repeats => by cases repeats
      exact ⟨0, lineSince_of_not_repeats changes, fun l => lastShown_of_not_repeats inside changes⟩
  | succ k ih =>
      by_cases repeats : d.Repeats (k + 1)
      · obtain ⟨start, since, shown⟩ := ih (by omega)
        refine ⟨start, since.succ repeats, fun l => ?_⟩
        rw [lastShown_succ_of_repeats inside repeats, shown]
      · exact ⟨k + 1, lineSince_of_not_repeats repeats,
          fun l => lastShown_of_not_repeats inside repeats⟩

/-- While the line number goes on, the listing is right when the path goes on as well. -/
theorem lastShown_succ_iff
    {k : Nat}
    (inside : k + 1 < d.code.length)
    (shown : ∀ l, d.LastShown k l ↔ l = d.locate k) :
    (∀ l, d.LastShown (k + 1) l ↔ l = d.locate (k + 1)) ↔
      ((d.locate k).line = (d.locate (k + 1)).line →
        (d.locate k).path = (d.locate (k + 1)).path) := by
  by_cases repeats : d.Repeats (k + 1)
  · have line := repeats_succ_iff.1 repeats
    simp only [lastShown_succ_of_repeats inside repeats, shown, line, true_imp_iff]
    constructor
    · intro same
      rw [(same (d.locate k)).1 rfl]
    · intro path l
      have same : d.locate k = d.locate (k + 1) := by
        rw [Location.mk.injEq]
        exact ⟨path, line⟩
      rw [same]
  · refine iff_of_true (fun l => lastShown_of_not_repeats inside repeats) fun line => ?_
    exact absurd (repeats_succ_iff.2 line) repeats

/-- The location shown last is that of the instruction with which the line number started. So it is
the instruction's own exactly in descriptors whose path never changes while the line number goes
on. -/
theorem showsLocations_iff
    (d : Descriptor Constant) :
    (∀ k < d.code.length,
      ∃ start, d.LineSince start k ∧ ∀ l, d.LastShown k l ↔ l = d.locate start) ∧
    (d.ShowsLocations ↔
      ∀ k, k + 1 < d.code.length → (d.locate k).line = (d.locate (k + 1)).line →
        (d.locate k).path = (d.locate (k + 1)).path) := by
  refine ⟨fun k => exists_lineSince, ?_, ?_⟩
  · intro shows k inside
    exact (lastShown_succ_iff inside (shows k (by omega))).1 (shows (k + 1) inside)
  · intro goes_on k
    induction k with
    | zero =>
        intro inside l
        exact lastShown_of_not_repeats inside fun repeats => by cases repeats
    | succ k ih =>
        intro inside
        exact (lastShown_succ_iff inside (ih (by omega))).2 (goes_on k inside)

/-- Two instructions from one line number of two files. -/
def twoFiles : Descriptor Constant :=
  { (.named "twoFiles" : Descriptor Constant) with
    origin := ⟨"a", 1⟩
    lines := ⟨[(1, .path "b")]⟩
    code := [⟨.pop, .none⟩, ⟨.add, .none⟩] }

/-- The change of the file is not shown, and the second instruction stands below the first file. -/
theorem twoFiles_not_showsLocations :
    twoFiles.locate 1 = ⟨"b", 1⟩ ∧ twoFiles.LastShown 1 ⟨"a", 1⟩ ∧ ¬ twoFiles.ShowsLocations := by
  have first : twoFiles.LastShown 0 ⟨"a", 1⟩ :=
    (lastShown_of_not_repeats (by decide) fun repeats => by cases repeats).2 rfl
  have second : twoFiles.LastShown 1 ⟨"a", 1⟩ :=
    (lastShown_succ_of_repeats (by decide) (repeats_succ_iff.2 rfl)).2 first
  refine ⟨rfl, second, fun shows => ?_⟩
  exact absurd ((shows 1 (by decide) ⟨"a", 1⟩).1 second) (by decide)

end Descriptor
end StackCode
