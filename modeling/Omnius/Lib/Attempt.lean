/-
# Attempts: updates in place that may fail half-way

A method that borrows its receiver mutably and returns a `Result` is a computation of `EStateM`: it
ends with a value or an error, and in BOTH cases in a state.  An error does not undo what was
written before it, so "a failed call changes nothing" is a property to be proved (`Atomic`), and it
is proved from the order of the body:

* what only reads may stand in front of anything (`Atomic.check_bind`);
* what writes must be followed by nothing that can still fail (`Atomic.bind_succeeds`).
-/
import Mathlib.Logic.Basic

namespace Omnius.Lib

universe u

variable {ε σ α β : Type u}

/-- Reads the state, and fails or answers. -/
def check (c : σ → Except ε α) : EStateM ε σ α := fun s =>
  match c s with
  | .ok a => .ok a s
  | .error e => .error e s

def update (f : σ → σ) : EStateM ε σ PUnit := fun s => .ok ⟨⟩ (f s)

/-- Fails with `e` when `b` holds. -/
def deny (b : Bool) (e : ε) : Except ε PUnit := if b then .error e else .ok ⟨⟩

variable {e : ε} {u : PUnit}

@[simp] theorem deny_eq_ok {b : Bool} : deny b e = .ok u ↔ b = false := by
  cases b <;> simp [deny]

/-! ## 1. What an attempt that succeeded did -/

variable {c : σ → Except ε α} {a : α} {s s' : σ} {x : EStateM ε σ α} {f : α → EStateM ε σ β} {b : β}

theorem state_check_eq_ok : check c s = .ok a s' ↔ c s = .ok a ∧ s' = s := by
  unfold check
  cases c s <;> simp [eq_comm]

theorem update_eq_ok {f : σ → σ} : (update f : EStateM ε σ PUnit) s = .ok u s' ↔ s' = f s := by
  simp [update, eq_comm]

theorem state_bind_eq_ok : (x >>= f) s = .ok b s' ↔ ∃ a s₁, x s = .ok a s₁ ∧ f a s₁ = .ok b s' := by
  change EStateM.bind x f s = _ ↔ _
  unfold EStateM.bind
  cases hx : x s with
  | ok a s₁ =>
    constructor
    · exact fun h => ⟨a, s₁, rfl, h⟩
    · rintro ⟨_, _, heq, h⟩
      cases heq
      exact h
  | error e s₁ => simp

theorem check_bind_eq_ok : (check c >>= f) s = .ok b s' ↔ ∃ a, c s = .ok a ∧ f a s = .ok b s' := by
  rw [state_bind_eq_ok]
  constructor
  · rintro ⟨a, s₁, hc, hf⟩
    obtain ⟨hc, rfl⟩ := state_check_eq_ok.mp hc
    exact ⟨a, hc, hf⟩
  · rintro ⟨a, hc, hf⟩
    exact ⟨a, s, state_check_eq_ok.mpr ⟨hc, rfl⟩, hf⟩

theorem check_bind_of_ok (h : c s = .ok a) : (check c >>= f) s = f a s := by
  change EStateM.bind _ f s = _
  simp [EStateM.bind, check, h]

theorem check_bind_of_error (h : c s = .error e) : (check c >>= f) s = .error e s := by
  change EStateM.bind _ f s = _
  simp [EStateM.bind, check, h]

theorem pure_eq_ok {b : α} : (pure a : EStateM ε σ α) s = .ok b s' ↔ b = a ∧ s' = s := by
  change EStateM.Result.ok a s = _ ↔ _
  simp [eq_comm]

/-- The same without a state: the second part runs on what the first one answered. -/
theorem bind_eq_ok {x : Except ε α} {f : α → Except ε β} :
    (x >>= f) = .ok b ↔ ∃ a, x = .ok a ∧ f a = .ok b := by
  cases x with
  | error e =>
    constructor
    · intro h
      cases h
    · rintro ⟨a, ha, -⟩
      cases ha
  | ok a =>
    constructor
    · exact fun h => ⟨a, rfl, h⟩
    · rintro ⟨a', ha, h⟩
      cases ha
      exact h

theorem check_eq_ok {x : Except ε PUnit} {f : PUnit → Except ε β} :
    (x >>= f) = .ok b ↔ x = .ok ⟨⟩ ∧ f ⟨⟩ = .ok b := by
  rw [bind_eq_ok]
  exact ⟨fun ⟨⟨⟩, hx, hf⟩ => ⟨hx, hf⟩, fun ⟨hx, hf⟩ => ⟨⟨⟩, hx, hf⟩⟩

theorem guard_eq_ok {p : Prop} [Decidable p] {x : Except ε α} :
    (if p then .error e else x) = .ok a ↔ ¬p ∧ x = .ok a := by
  split <;> simp [*]

theorem map_eq_ok {x : Except ε α} {f : α → β} :
    x.map f = .ok b ↔ ∃ a, x = .ok a ∧ f a = b := by
  cases x <;> simp [Except.map]

/-! ## 2. All or nothing -/

/-- At `s`, an error leaves the state as it was. -/
def Atomic (x : EStateM ε σ α) (s : σ) : Prop := ∀ e s', x s = .error e s' → s' = s

theorem Atomic.check : Atomic (check c) s := by
  intro e s' h
  unfold Lib.check at h
  cases hc : c s with
  | ok a =>
    rw [hc] at h
    cases h
  | error e' =>
    rw [hc] at h
    cases h
    rfl

theorem Atomic.of_succeeds {t : σ} (h : x s = .ok a t) : Atomic x s := by
  intro e s' he
  rw [h] at he
  cases he

theorem Atomic.check_bind (h : ∀ a, c s = .ok a → Atomic (f a) s) :
    Atomic (Lib.check c >>= f) s := by
  intro e s' he
  change EStateM.bind _ f s = _ at he
  unfold EStateM.bind Lib.check at he
  cases hc : c s with
  | ok a =>
    rw [hc] at he
    exact h a hc e s' he
  | error e' =>
    rw [hc] at he
    cases he
    rfl

/-- After `x` has gone through, nothing may fail any more. -/
theorem Atomic.bind_succeeds (hx : Atomic x s)
    (hf : ∀ a s₁, x s = .ok a s₁ → ∃ b s₂, f a s₁ = .ok b s₂) : Atomic (x >>= f) s := by
  intro e s' he
  change EStateM.bind x f s = _ at he
  unfold EStateM.bind at he
  cases hxs : x s with
  | ok a s₁ =>
    rw [hxs] at he
    obtain ⟨b, s₂, hb⟩ := hf a s₁ hxs
    cases hb.symm.trans he
  | error e₁ s₁ =>
    rw [hxs] at he
    cases he
    exact hx _ _ hxs

end Omnius.Lib
