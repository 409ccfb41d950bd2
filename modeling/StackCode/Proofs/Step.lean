/-!
# Steps

Reading, writing, choosing the root of a program and the operations of a frame are steps that change
a state and can be refused. A refused step hands back the state that it leaves behind. The
statements below say when a step that is put together from others succeeds; they are shared by all
kinds of step.
-/

namespace StackCode
namespace Step

variable {ε σ α β : Type} {s s' : σ}

/-- A sequence goes on behind a step that succeeds. -/
theorem bind_of_eq_ok
    {first : EStateM ε σ α} {next : α → EStateM ε σ β} {a : α}
    (done : first s = .ok a s') :
    (first >>= next) s = next a s' := by
  change EStateM.bind first next s = _
  simp only [EStateM.bind, done]

/-- A sequence ends with a step that is refused. -/
theorem bind_of_eq_error
    {first : EStateM ε σ α} {next : α → EStateM ε σ β} {e : ε}
    (refused : first s = .error e s') :
    (first >>= next) s = .error e s' := by
  change EStateM.bind first next s = _
  simp only [EStateM.bind, refused]

/-- A sequence of two steps succeeds when both of them do. -/
theorem bind_eq_ok_iff
    {first : EStateM ε σ α} {next : α → EStateM ε σ β} {b : β} :
    (first >>= next) s = .ok b s' ↔
      ∃ a between, first s = .ok a between ∧ next a between = .ok b s' := by
  constructor
  · intro h
    change EStateM.bind first next s = _ at h
    unfold EStateM.bind at h
    split at h
    · next a between done => exact ⟨a, between, done, h⟩
    · cases h
  · rintro ⟨a, between, done, h⟩
    rw [bind_of_eq_ok done]
    exact h

/-- A sequence of two steps is refused at the first that is. -/
theorem bind_eq_error_iff
    {first : EStateM ε σ α} {next : α → EStateM ε σ β} {e : ε} :
    (first >>= next) s = .error e s' ↔
      first s = .error e s' ∨
        ∃ a between, first s = .ok a between ∧ next a between = .error e s' := by
  constructor
  · intro h
    change EStateM.bind first next s = _ at h
    unfold EStateM.bind at h
    split at h
    · next a between done => exact Or.inr ⟨a, between, done, h⟩
    · next e' left refused =>
      cases h
      exact Or.inl refused
  · intro h
    rcases h with refused | ⟨a, between, done, h⟩
    · exact bind_of_eq_error refused
    · rw [bind_of_eq_ok done]
      exact h

/-- Two sequences have one outcome if their first steps do, and if they go on alike from there. -/
theorem bind_congr
    {first first' : EStateM ε σ α} {next next' : α → EStateM ε σ β}
    (same : first s = first' s)
    (goes_on : ∀ a between, first' s = .ok a between → next a between = next' a between) :
    (first >>= next) s = (first' >>= next') s := by
  cases done : first' s with
  | ok a between =>
      rw [bind_of_eq_ok done, bind_of_eq_ok (same.trans done)]
      exact goes_on a between done
  | error e left =>
      rw [bind_of_eq_error done, bind_of_eq_error (same.trans done)]

@[simp] theorem pure_eq_ok_iff
    {a b : α} :
    (pure a : EStateM ε σ α) s = .ok b s' ↔ a = b ∧ s = s' := by
  change EStateM.Result.ok a s = EStateM.Result.ok b s' ↔ _
  simp

@[simp] theorem throw_ne_ok
    {e : ε} {a : α} :
    (throw e : EStateM ε σ α) s ≠ .ok a s' := by
  intro h
  cases h

@[simp] theorem get_eq_ok_iff
    {t : σ} :
    (get : EStateM ε σ σ) s = .ok t s' ↔ s = t ∧ s = s' := by
  change EStateM.Result.ok s s = EStateM.Result.ok t s' ↔ _
  simp

/-- A step that starts by looking at the state goes on with the state. -/
theorem get_bind
    {next : σ → EStateM ε σ α} :
    ((get : EStateM ε σ σ) >>= next) s = next s s := rfl

/-- A step that starts by replacing the state goes on from the new state. -/
theorem set_bind
    {t : σ} {next : PUnit → EStateM ε σ α} :
    ((set t : EStateM ε σ PUnit) >>= next) s = next ⟨⟩ t := rfl

/-- What a step ends in: a condition on what it returns with the state behind it, and a condition on
the reason for which it is refused. -/
def Ends (returns : α → σ → Prop) (refuses : ε → Prop) : EStateM.Result ε σ α → Prop
  | .ok a behind => returns a behind
  | .error e _ => refuses e

theorem Ends.bind
    {first : EStateM ε σ α} {next : α → EStateM ε σ β}
    {returns : α → σ → Prop} {returns' : β → σ → Prop} {refuses : ε → Prop}
    (h : Ends returns refuses (first s))
    (h' : ∀ a between, first s = .ok a between → returns a between →
      Ends returns' refuses (next a between)) :
    Ends returns' refuses ((first >>= next) s) := by
  cases done : first s with
  | ok a between =>
      rw [done] at h
      rw [bind_of_eq_ok done]
      exact h' a between done h
  | error e left =>
      rw [done] at h
      rw [bind_of_eq_error done]
      exact h

/-- The conditions on what a step ends in can be weakened. -/
theorem Ends.imp
    {outcome : EStateM.Result ε σ α} {returns returns' : α → σ → Prop} {refuses refuses' : ε → Prop}
    (h : Ends returns refuses outcome)
    (ok : ∀ a behind, outcome = .ok a behind → returns a behind → returns' a behind)
    (error : ∀ e left, outcome = .error e left → refuses e → refuses' e) :
    Ends returns' refuses' outcome := by
  cases outcome with
  | ok a behind =>
      exact ok a behind rfl h
  | error e left =>
      exact error e left rfl h

end Step
end StackCode
