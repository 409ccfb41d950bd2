import StackCode.Proofs.Program.Arena
import StackCode.Proofs.Verification.Resolution

/-!
# What verification reports

Verification looks for violations at three levels: descriptors in order of registration, in a
descriptor the records of the line map and then the instructions in order, and in a closure the
variables that it captures. At each level it stops at the first that it finds. What it reports is
stated here for each level on its own, as the first place of a list at which a condition fails.

Of the program, verification of a descriptor asks only which functions there are. So a descriptor
that passes goes on passing while the program grows.

**Results.**
* `Instruction.violation?_eq_some_iff`: the violation of an instruction.
* `Descriptor.violation?_eq_some_iff`: the first violation of a descriptor, and its offset.
* `Program.verify_reports_first`: what passes, what is reported, and what remains.
-/

namespace StackCode

/-- The place of an item in a list, with everything in front of it passing a condition. -/
structure FirstAt {α : Type} (Passes : α → Prop) (items : List α) (place : Nat) (item : α) :
    Prop where
  found : items[place]? = some item
  earlier : ∀ i < place, ∀ other, items[i]? = some other → Passes other

namespace FirstAt

variable {α : Type} {Passes : α → Prop} {items : List α} {first item : α} {n : Nat}

theorem zero_iff :
    FirstAt Passes (first :: items) 0 item ↔ first = item := by
  constructor
  · intro h
    exact Option.some.inj h.found
  · rintro rfl
    exact ⟨rfl, fun i before => absurd before (Nat.not_lt_zero i)⟩

theorem succ_iff :
    FirstAt Passes (first :: items) (n + 1) item ↔ Passes first ∧ FirstAt Passes items n item := by
  constructor
  · intro h
    refine ⟨h.earlier 0 (Nat.succ_pos n) first rfl, h.found, fun i before other found => ?_⟩
    exact h.earlier (i + 1) (Nat.succ_lt_succ before) other found
  · rintro ⟨passes, h⟩
    refine ⟨h.found, fun i before other found => ?_⟩
    cases i with
    | zero =>
        exact Option.some.inj found ▸ passes
    | succ i =>
        exact h.earlier i (Nat.lt_of_succ_lt_succ before) other found

/-- If the head does not pass, it is the first item that does not. -/
theorem exists_cons_iff_of_not_passes
    {Fails : Nat → α → Prop}
    (stops : ¬ Passes first) :
    (∃ n item, FirstAt Passes (first :: items) n item ∧ Fails n item) ↔ Fails 0 first := by
  constructor
  · rintro ⟨n, item, h, fails⟩
    cases n with
    | zero =>
        exact zero_iff.1 h ▸ fails
    | succ n =>
        exact absurd (succ_iff.1 h).1 stops
  · intro fails
    exact ⟨0, first, zero_iff.2 rfl, fails⟩

/-- If the head passes, the first item that does not is behind it. -/
theorem exists_cons_iff_of_passes
    {Fails : Nat → α → Prop}
    (passes : Passes first)
    (passing : ¬ Fails 0 first) :
    (∃ n item, FirstAt Passes (first :: items) n item ∧ Fails n item) ↔
      ∃ n item, FirstAt Passes items n item ∧ Fails (n + 1) item := by
  constructor
  · rintro ⟨n, item, h, fails⟩
    cases n with
    | zero =>
        exact absurd (zero_iff.1 h ▸ fails) passing
    | succ n =>
        exact ⟨n, item, (succ_iff.1 h).2, fails⟩
  · rintro ⟨n, item, h, fails⟩
    exact ⟨n + 1, item, succ_iff.2 ⟨passes, h⟩, fails⟩

theorem not_exists_nil
    {Fails : Nat → α → Prop} :
    ¬ ∃ n item, FirstAt Passes ([] : List α) n item ∧ Fails n item := by
  rintro ⟨n, item, h, _⟩
  cases h.found

/-- Behind items that pass, an item is the first that need not. -/
theorem of_append
    {before rest : List α}
    (passing : ∀ a ∈ before, Passes a) :
    FirstAt Passes (before ++ item :: rest) before.length item := by
  refine ⟨by simp, fun i less other found => ?_⟩
  rw [List.getElem?_append_left less] at found
  exact passing other (List.mem_of_getElem? found)

/-- There is one first item that does not pass. -/
theorem unique
    {other : α} {m : Nat}
    (h : FirstAt Passes items n item)
    (stops : ¬ Passes item)
    (h' : FirstAt Passes items m other)
    (stops' : ¬ Passes other) :
    item = other := by
  rcases Nat.lt_trichotomy n m with less | rfl | less
  · exact absurd (h'.earlier n less item h.found) stops
  · exact Option.some.inj (h.found.symm.trans h'.found)
  · exact absurd (h.earlier m less other h'.found) stops'

/-- Searching a list finds its first item that satisfies the condition. -/
theorem find?_eq_some_iff
    {Sought : α → Prop} [DecidablePred Sought] :
    items.find? (fun a => Sought a) = some item ↔
      ∃ n, FirstAt (fun a => ¬ Sought a) items n item ∧ Sought item := by
  rw [List.find?_eq_some_iff_getElem]
  constructor
  · rintro ⟨sought, n, inside, rfl, earlier⟩
    refine ⟨n, ⟨List.getElem?_eq_getElem inside, fun i before other found => ?_⟩,
      of_decide_eq_true sought⟩
    obtain ⟨_, rfl⟩ := List.getElem?_eq_some_iff.1 found
    simpa using earlier i before
  · rintro ⟨n, h, sought⟩
    obtain ⟨inside, rfl⟩ := List.getElem?_eq_some_iff.1 h.found
    refine ⟨decide_eq_true sought, n, inside, rfl, fun i before => ?_⟩
    simpa using h.earlier i before _ (List.getElem?_eq_getElem (Nat.lt_trans before inside))

end FirstAt

namespace LineMap

/-- No record starts before one in front of it. -/
def Ascending (records : List (UInt32 × LineChange)) : Prop :=
  records.Pairwise fun earlier later => earlier.1 ≤ later.1

/-- Of a record and the next one, the next one does not start before. -/
def InOrder (pair : (UInt32 × LineChange) × (UInt32 × LineChange)) : Prop := pair.1.1 ≤ pair.2.1

/-- The start of the first record that starts before the one directly in front of it. -/
def FirstDrop (records : List (UInt32 × LineChange)) (start : UInt32) : Prop :=
  ∃ n pair, FirstAt InOrder (records.zip records.tail) n pair ∧
    (pair.2.1 < pair.1.1 ∧ start = pair.2.1)

variable {first : UInt32 × LineChange} {records : List (UInt32 × LineChange)} {start : UInt32}

theorem firstUnsorted_cons_eq_none_iff :
    firstUnsorted first.1 records = none ↔ Ascending (first :: records) := by
  induction records generalizing first with
  | nil =>
      simp [firstUnsorted, Ascending]
  | cons second rest ih =>
      rw [firstUnsorted]
      split
      · next drop =>
        refine iff_of_false (by simp) fun ascending => ?_
        exact UInt32.not_le.2 drop (List.rel_of_pairwise_cons ascending List.mem_cons_self)
      · next no_drop =>
        have le : first.1 ≤ second.1 := UInt32.not_lt.1 no_drop
        rw [ih, Ascending, Ascending, List.pairwise_cons (a := first)]
        refine ⟨fun ascending => ⟨?_, ascending⟩, And.right⟩
        refine List.forall_mem_cons.2 ⟨le, fun later member => ?_⟩
        exact UInt32.le_trans le (List.rel_of_pairwise_cons ascending member)

theorem firstUnsorted_cons_eq_some_iff :
    firstUnsorted first.1 records = some start ↔ FirstDrop (first :: records) start := by
  induction records generalizing first with
  | nil =>
      exact iff_of_false (by simp [firstUnsorted]) FirstAt.not_exists_nil
  | cons second rest ih =>
      change _ ↔ ∃ n pair, FirstAt InOrder ((first, second) :: (second :: rest).zip rest) n pair ∧
        (pair.2.1 < pair.1.1 ∧ start = pair.2.1)
      rw [firstUnsorted]
      split
      · next drop =>
        have stops : ¬ InOrder (first, second) := UInt32.not_le.2 drop
        rw [FirstAt.exists_cons_iff_of_not_passes stops, Option.some.injEq]
        exact ⟨fun same => ⟨drop, same.symm⟩, fun h => h.2.symm⟩
      · next no_drop =>
        have passes : InOrder (first, second) := UInt32.not_lt.1 no_drop
        rw [FirstAt.exists_cons_iff_of_passes passes fun h => no_drop h.1, ih]
        rfl

/-- Nothing starts before the first instruction. -/
theorem firstUnsorted_zero :
    firstUnsorted 0 (first :: records) = firstUnsorted first.1 records :=
  if_neg (UInt32.not_lt.2 (UInt32.zero_le))

theorem firstUnsorted_eq_none_iff :
    firstUnsorted 0 records = none ↔ Ascending records := by
  cases records with
  | nil =>
      simp [firstUnsorted, Ascending]
  | cons first rest =>
      rw [firstUnsorted_zero, firstUnsorted_cons_eq_none_iff]

theorem firstUnsorted_eq_some_iff :
    firstUnsorted 0 records = some start ↔ FirstDrop records start := by
  cases records with
  | nil =>
      exact iff_of_false (by simp [firstUnsorted]) FirstAt.not_exists_nil
  | cons first rest =>
      rw [firstUnsorted_zero, firstUnsorted_cons_eq_some_iff]

end LineMap

namespace Instruction

/-- What is wrong with an instruction of a descriptor, with the values that belong to it. -/
inductive Violates (p : Program) (d : Descriptor Constant) : Instruction → Violation → Prop
  | constant (index : UInt32) :
      d.pool.length ≤ index.toNat →
        Violates p d ⟨.push, .index index⟩ (.constantOutOfRange index d.pool.length)
  | function (index : UInt32) (id : FunctionId) :
      d.pool[index.toNat]? = some (.function id) → p.function? id = none →
        Violates p d ⟨.push, .index index⟩ (.missingFunction id)
  | slot (opcode : Opcode) (index : UInt32) :
      opcode = .loadLocal ∨ opcode = .storeLocal → d.localCount ≤ index →
        Violates p d ⟨opcode, .index index⟩ (.localOutOfRange index d.localCount)
  | global (opcode : Opcode) (index : UInt32) :
      opcode = .loadGlobal ∨ opcode = .storeGlobal → d.globals.length ≤ index.toNat →
        Violates p d ⟨opcode, .index index⟩ (.globalOutOfRange index d.globals.length)
  | target (opcode : Opcode) (target : UInt32) :
      opcode = .jump ∨ opcode = .popJumpIfFalse → d.code.length < target.toNat →
        Violates p d ⟨opcode, .index target⟩ (.jumpOutOfRange target d.code.length)
  | captured (list : List Variable) (n : Nat) (v : Variable) :
      FirstAt (fun v => ¬ (v.kind = .slot ∧ d.localCount ≤ v.index.toUInt32)) list n v →
        v.kind = .slot → d.localCount ≤ v.index.toUInt32 →
          Violates p d ⟨.close, .captures list⟩ (.localOutOfRange v.index.toUInt32 d.localCount)

variable {p p' : Program} {d : Descriptor Constant} {i : Instruction} {violation : Violation}

theorem violates_of_violation?
    (h : i.violation? p d = some violation) :
    i.Violates p d violation := by
  obtain ⟨opcode, operand⟩ := i
  unfold violation? at h
  dsimp only at h
  split at h
  · next index =>
    split at h
    · next none =>
      cases h
      exact .constant index (List.getElem?_eq_none_iff.1 none)
    · next id found =>
      split at h
      · next missing =>
        cases h
        exact .function index id found (Option.isNone_iff_eq_none.1 missing)
      · cases h
    · cases h
  · next index =>
    obtain ⟨outside, ⟨⟩⟩ := Option.ite_none_right_eq_some.1 h
    exact .slot _ index (Or.inl rfl) outside
  · next index =>
    obtain ⟨outside, ⟨⟩⟩ := Option.ite_none_right_eq_some.1 h
    exact .slot _ index (Or.inr rfl) outside
  · next index =>
    obtain ⟨outside, ⟨⟩⟩ := Option.ite_none_right_eq_some.1 h
    exact .global _ index (Or.inl rfl) outside
  · next index =>
    obtain ⟨outside, ⟨⟩⟩ := Option.ite_none_right_eq_some.1 h
    exact .global _ index (Or.inr rfl) outside
  · next target =>
    obtain ⟨outside, ⟨⟩⟩ := Option.ite_none_right_eq_some.1 h
    exact .target _ target (Or.inl rfl) outside
  · next target =>
    obtain ⟨outside, ⟨⟩⟩ := Option.ite_none_right_eq_some.1 h
    exact .target _ target (Or.inr rfl) outside
  · next list =>
    obtain ⟨v, found, rfl⟩ := Option.map_eq_some_iff.1 h
    simp only [← Bool.decide_and] at found
    obtain ⟨n, first, kind, outside⟩ := FirstAt.find?_eq_some_iff.1 found
    exact .captured list n v first kind outside
  · cases h

theorem violation?_of_violates
    (h : i.Violates p d violation) :
    i.violation? p d = some violation := by
  cases h with
  | constant index outside =>
      simp [violation?, List.getElem?_eq_none_iff.2 outside]
  | function index id found missing =>
      simp [violation?, found, missing]
  | slot opcode index known outside | global opcode index known outside
  | target opcode index known outside =>
      rcases known with rfl | rfl
      · exact if_pos outside
      · exact if_pos outside
  | captured list n v first kind outside =>
      rw [violation?]
      simp only [← Bool.decide_and]
      rw [FirstAt.find?_eq_some_iff.2 ⟨n, first, kind, outside⟩]
      rfl

theorem violation?_eq_some_iff :
    i.violation? p d = some violation ↔ i.Violates p d violation :=
  ⟨violates_of_violation?, violation?_of_violates⟩

/-- What an instruction refers to is there in every program that has the functions. -/
theorem Resolves.mono
    (h : i.Resolves p d)
    (grows : ∀ id, (p.function? id).isSome → (p'.function? id).isSome) :
    i.Resolves p' d := by
  refine ⟨fun index same => ?_, h.slot, h.global, h.target, h.captured⟩
  obtain ⟨c, found, registered⟩ := h.constant index same
  refine ⟨c, found, fun id function => ?_⟩
  obtain ⟨f, runs⟩ := registered id function
  exact Option.isSome_iff_exists.1 (grows id (runs ▸ rfl))

end Instruction

namespace Descriptor

/-- The line map is in order, and what the instructions refer to is there. -/
structure Sound (p : Program) (d : Descriptor Constant) : Prop where
  lines : LineMap.Ascending d.lines.records
  code : ∀ i ∈ d.code, i.Resolves p d

/-- The first violation of a descriptor, and the offset that it is found at. -/
inductive Violates (p : Program) (d : Descriptor Constant) : Nat → Violation → Prop
  | lines (start : UInt32) :
      LineMap.FirstDrop d.lines.records start → Violates p d start.toNat (.unsortedLines start)
  | code (offset : Nat) (i : Instruction) (violation : Violation) :
      LineMap.Ascending d.lines.records →
        FirstAt (fun j => j.Resolves p d) d.code offset i → i.Violates p d violation →
          Violates p d offset violation

variable {p p' : Program} {d : Descriptor Constant} {violation : Violation}

theorem firstViolation_eq_some_iff
    {start offset : Nat} {code : List Instruction} :
    firstViolation p d start code = some (offset, violation) ↔
      ∃ n i, FirstAt (fun j => j.Resolves p d) code n i ∧
        (offset = start + n ∧ i.Violates p d violation) := by
  induction code generalizing start with
  | nil =>
      exact iff_of_false (by simp [firstViolation]) FirstAt.not_exists_nil
  | cons i rest ih =>
      rw [firstViolation]
      cases found : i.violation? p d with
      | some other =>
          have stops : ¬ i.Resolves p d := by
            rw [← Instruction.violation?_eq_none_iff, found]
            simp
          rw [FirstAt.exists_cons_iff_of_not_passes stops, ← Instruction.violation?_eq_some_iff,
            found]
          simp [eq_comm]
      | none =>
          have passes : i.Resolves p d := Instruction.violation?_eq_none_iff.1 found
          have passing : ¬ (offset = start + 0 ∧ i.Violates p d violation) := by
            rw [← Instruction.violation?_eq_some_iff, found]
            simp
          rw [FirstAt.exists_cons_iff_of_passes passes passing]
          simp only [ih, Nat.add_assoc, Nat.add_comm 1]

theorem violation?_eq_some_iff
    {offset : Nat} :
    d.violation? p = some (offset, violation) ↔ d.Violates p offset violation := by
  rw [violation?]
  cases drop : LineMap.firstUnsorted 0 d.lines.records with
  | some start =>
      have dropped := LineMap.firstUnsorted_eq_some_iff.1 drop
      constructor
      · intro same
        cases same
        exact .lines start dropped
      · intro h
        cases h with
        | lines other dropped' =>
            obtain rfl := Option.some.inj
              (drop.symm.trans (LineMap.firstUnsorted_eq_some_iff.2 dropped'))
            rfl
        | code _ _ _ ascending _ _ =>
            cases drop.symm.trans (LineMap.firstUnsorted_eq_none_iff.2 ascending)
  | none =>
      have ascending := LineMap.firstUnsorted_eq_none_iff.1 drop
      simp only [firstViolation_eq_some_iff]
      constructor
      · rintro ⟨n, i, first, same, violates⟩
        rw [Nat.zero_add] at same
        exact .code _ i _ ascending (same ▸ first) violates
      · intro h
        cases h with
        | lines _ dropped =>
            cases drop.symm.trans (LineMap.firstUnsorted_eq_some_iff.2 dropped)
        | code _ i _ _ first violates =>
            exact ⟨offset, i, first, (Nat.zero_add offset).symm, violates⟩

/-- The line map comes before the code, and of two drops the first is reported. -/
example :
    Descriptor.violation? .empty
      { (.named "twisted" : Descriptor Constant) with
        lines := ⟨[(3, .line 1), (5, .line 2), (4, .line 3), (1, .path "a")]⟩
        code := [⟨.jump, .index 9⟩] } = some (4, .unsortedLines 4) := by
  decide

theorem verify_eq_ok_iff_sound :
    d.verify p = .ok () ↔ d.Sound p := by
  rw [verify_eq_ok_iff, LineMap.firstUnsorted_eq_none_iff]
  exact ⟨fun h => ⟨h.1, h.2⟩, fun h => ⟨h.lines, h.code⟩⟩

theorem verify_eq_error_iff
    {e : Error} :
    d.verify p = .error e ↔
      ∃ offset violation, d.Violates p offset violation ∧
        e = .invalidFunction d.name offset violation := by
  simp only [← violation?_eq_some_iff, verify]
  cases d.violation? p with
  | none =>
      simp
  | some report =>
      simp [Prod.ext_iff, eq_comm]

/-- A descriptor that passes in a program passes in every program that has the functions. -/
theorem verify_mono
    (passes : d.verify p = .ok ())
    (grows : ∀ id, (p.function? id).isSome → (p'.function? id).isSome) :
    d.verify p' = .ok () := by
  obtain ⟨ascending, resolves⟩ := verify_eq_ok_iff.1 passes
  exact verify_eq_ok_iff.2 ⟨ascending, fun i member => (resolves i member).mono grows⟩

end Descriptor

namespace Program

variable {p : Program}

theorem verifyAll_eq_error_iff
    {descriptors : List (Descriptor Constant)} {e : Error} :
    p.verifyAll descriptors = .error e ↔
      ∃ n d, FirstAt (fun d => d.Sound p) descriptors n d ∧ d.verify p = .error e := by
  induction descriptors with
  | nil =>
      exact iff_of_false (by simp [verifyAll]) FirstAt.not_exists_nil
  | cons d rest ih =>
      rw [verifyAll]
      cases verified : d.verify p with
      | error other =>
          have stops : ¬ d.Sound p := by
            rw [← Descriptor.verify_eq_ok_iff_sound, verified]
            simp
          rw [FirstAt.exists_cons_iff_of_not_passes stops, verified]
          rfl
      | ok _ =>
          have passes : d.Sound p := Descriptor.verify_eq_ok_iff_sound.1 verified
          have passing : ¬ d.verify p = .error e := by simp [verified]
          rw [FirstAt.exists_cons_iff_of_passes passes passing]
          exact ih

/-- Until it starts over, a program keeps its functions, whatever is done to it. -/
theorem isSome_function?_foldl
    {operations : List Operation}
    (goes_on : .clear ∉ operations)
    (id : FunctionId)
    (there : (p.function? id).isSome) :
    ((operations.foldl after p).function? id).isSome := by
  induction operations generalizing p with
  | nil =>
      exact there
  | cons operation operations ih =>
      rw [List.mem_cons, not_or] at goes_on
      obtain ⟨f, found⟩ := Option.isSome_iff_exists.1 there
      have kept := (keeps_after (Ne.symm goes_on.1)).function id f found
      exact ih goes_on.2 (kept ▸ rfl)

/-- A program passes verification exactly when every descriptor is sound. Otherwise the first
descriptor that is not is reported, with its first violation. A descriptor that passes goes on
passing while the program that owns it has the functions that it had, in particular until the
program starts over. -/
theorem verify_reports_first
    (p : Program) :
    (p.verify = .ok () ↔ ∀ d ∈ p.descriptors, d.Sound p) ∧
    (∀ e, p.verify = .error e ↔
      ∃ n d, FirstAt (fun d => d.Sound p) p.descriptors.toList n d ∧
        ∃ offset violation, d.Violates p offset violation ∧
          e = .invalidFunction d.name offset violation) ∧
    ∀ d : Descriptor Constant, d.verify p = .ok () →
      (∀ p' : Program, (∀ id, (p.function? id).isSome → (p'.function? id).isSome) →
        d.verify p' = .ok ()) ∧
      ∀ operations : List Operation, .clear ∉ operations →
        d.verify (operations.foldl after p) = .ok () := by
  refine ⟨?_, fun e => ?_, fun d passes => ⟨?_, ?_⟩⟩
  · simp only [verify_eq_ok_iff, Descriptor.verify_eq_ok_iff_sound]
  · simp only [verify, verifyAll_eq_error_iff, Descriptor.verify_eq_error_iff]
  · intro p' grows
    exact Descriptor.verify_mono passes grows
  · intro operations goes_on
    exact Descriptor.verify_mono passes (isSome_function?_foldl goes_on)

end Program
end StackCode
