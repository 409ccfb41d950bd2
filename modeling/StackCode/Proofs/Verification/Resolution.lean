import StackCode.Verification

/-!
# What verification checks

A descriptor passes verification when its line map is in order and what its instructions refer to is
there. The conditions are stated for each operation that is checked, and the verifier decides them.

**Results.**
* `Instruction.violation?_eq_none_iff`: an instruction without violation.
* `Program.verify_eq_ok_iff`: a program without violation.
-/

namespace StackCode
namespace Instruction

/-- What an instruction of a descriptor refers to is there. -/
structure Resolves (p : Program) (d : Descriptor Constant) (i : Instruction) : Prop where
  constant : ∀ index, i = ⟨.push, .index index⟩ →
    ∃ c, d.pool[index.toNat]? = some c ∧
      ∀ id, c = .function id → ∃ f, p.function? id = some f
  slot : ∀ index, i = ⟨.loadLocal, .index index⟩ ∨ i = ⟨.storeLocal, .index index⟩ →
    index < d.localCount
  global : ∀ index, i = ⟨.loadGlobal, .index index⟩ ∨ i = ⟨.storeGlobal, .index index⟩ →
    index.toNat < d.globals.length
  target : ∀ target, i = ⟨.jump, .index target⟩ ∨ i = ⟨.popJumpIfFalse, .index target⟩ →
    target.toNat ≤ d.code.length
  captured : ∀ list, i = ⟨.close, .captures list⟩ →
    ∀ v ∈ list, v.kind = .slot → v.index.toUInt32 < d.localCount

variable {p : Program} {d : Descriptor Constant} {i : Instruction}

theorem resolves_of_violation?_eq_none
    (h : i.violation? p d = none) :
    i.Resolves p d := by
  refine ⟨?_, ?_, ?_, ?_, ?_⟩
  · rintro index rfl
    simp only [violation?] at h
    split at h
    · cases h
    · next id found =>
      cases registered : p.function? id with
      | none =>
          simp [registered] at h
      | some f =>
          refine ⟨_, found, ?_⟩
          rintro _ ⟨⟩
          exact ⟨f, registered⟩
    · next c other found =>
      exact ⟨c, found, fun id same => absurd same (other id)⟩
  · rintro index (rfl | rfl) <;> simpa [violation?] using h
  · rintro index (rfl | rfl) <;> simpa [violation?] using h
  · rintro target (rfl | rfl) <;> simpa [violation?] using h
  · rintro list rfl v member slot
    simp only [violation?, Option.map_eq_none_iff, List.find?_eq_none] at h
    simpa [slot] using h v member

theorem violation?_eq_none_of_resolves
    (h : i.Resolves p d) :
    i.violation? p d = none := by
  obtain ⟨opcode, operand⟩ := i
  unfold violation?
  dsimp only
  split
  · next index =>
    obtain ⟨c, found, registered⟩ := h.constant index rfl
    rw [found]
    cases c with
    | function id =>
        obtain ⟨f, runs⟩ := registered id rfl
        simp [runs]
    | _ =>
        rfl
  · next index =>
    exact if_neg (UInt32.not_le.2 (h.slot index (Or.inl rfl)))
  · next index =>
    exact if_neg (UInt32.not_le.2 (h.slot index (Or.inr rfl)))
  · next index =>
    exact if_neg (Nat.not_le.2 (h.global index (Or.inl rfl)))
  · next index =>
    exact if_neg (Nat.not_le.2 (h.global index (Or.inr rfl)))
  · next target =>
    exact if_neg (Nat.not_lt.2 (h.target target (Or.inl rfl)))
  · next target =>
    exact if_neg (Nat.not_lt.2 (h.target target (Or.inr rfl)))
  · next list =>
    rw [Option.map_eq_none_iff, List.find?_eq_none]
    intro v member outside
    simp only [Bool.and_eq_true, decide_eq_true_eq] at outside
    exact UInt32.not_le.2 (h.captured list rfl v member outside.1) outside.2
  · rfl

theorem violation?_eq_none_iff :
    i.violation? p d = none ↔ i.Resolves p d :=
  ⟨resolves_of_violation?_eq_none, violation?_eq_none_of_resolves⟩

end Instruction

namespace Descriptor

variable {p : Program} {d : Descriptor Constant}

theorem firstViolation_eq_none_iff
    {offset : Nat} {code : List Instruction} :
    firstViolation p d offset code = none ↔ ∀ i ∈ code, i.Resolves p d := by
  induction code generalizing offset with
  | nil =>
      simp [firstViolation]
  | cons i rest ih =>
      rw [firstViolation, List.forall_mem_cons, ← Instruction.violation?_eq_none_iff,
        ← @ih (offset + 1)]
      cases i.violation? p d with
      | none =>
          simp
      | some violation =>
          simp

/-- A descriptor passes when its line map is in order and its instructions resolve. -/
theorem verify_eq_ok_iff :
    d.verify p = .ok () ↔
      LineMap.firstUnsorted 0 d.lines.records = none ∧ ∀ i ∈ d.code, i.Resolves p d := by
  rw [← firstViolation_eq_none_iff, verify, violation?]
  cases LineMap.firstUnsorted 0 d.lines.records with
  | some start =>
      simp
  | none =>
      cases firstViolation p d 0 d.code with
      | none =>
          simp
      | some violation =>
          simp

end Descriptor

namespace Program

variable {p : Program}

theorem verifyAll_eq_ok_iff
    {descriptors : List (Descriptor Constant)} :
    p.verifyAll descriptors = .ok () ↔ ∀ d ∈ descriptors, d.verify p = .ok () := by
  induction descriptors with
  | nil =>
      simp [verifyAll]
  | cons d rest ih =>
      rw [verifyAll, List.forall_mem_cons, ← ih]
      cases d.verify p with
      | error e =>
          exact iff_of_false (fun h => by cases h) fun h => by cases h.1
      | ok _ =>
          exact (and_iff_right rfl).symm

/-- A program passes when its descriptors do. -/
theorem verify_eq_ok_iff :
    p.verify = .ok () ↔ ∀ d ∈ p.descriptors, d.verify p = .ok () := by
  rw [verify, verifyAll_eq_ok_iff]
  simp

end Program
end StackCode
