/-
# Machines: partial step functions, their runs, and the invariant rule

A machine is a PARTIAL step function: `step s a` is the state after the action `a`, and `none`
when `a` is not enabled in `s`.  Interleavings of several parties are runs of one machine whose
actions name the party that moves, so "for every interleaving" is "for every list of actions".

Reachability carries a side condition `P` on each step taken.  With `P` always true it is plain
reachability; with another `P` it is "every run whose steps all meet `P`", which is what a
property that only holds under a condition on the steps is stated over.
-/
import Mathlib.Logic.Relation

namespace Omnius.Lib

/-- A machine over states `σ` and actions `α`. -/
structure Machine (σ α : Type*) where
  /-- Where every run begins. -/
  start : σ
  /-- The state after one action, or `none` when the action is not enabled. -/
  step : σ → α → Option σ

namespace Machine

variable {σ α : Type*} (M : Machine σ α)

/-- The state a list of actions leads to. -/
def run : σ → List α → Option σ
  | s, [] => some s
  | s, a :: as => (M.step s a).bind fun s' => run s' as

/-- The state a list of actions leads to, if each of them meets `P` where it is taken. -/
def runIf (P : σ → α → Prop) [∀ s a, Decidable (P s a)] : σ → List α → Option σ
  | s, [] => some s
  | s, a :: as => if P s a then (M.step s a).bind fun s' => runIf P s' as else none

/-- `t` can be reached from `s` by steps that all meet `P`. -/
inductive ReachIf (P : σ → α → Prop) (s : σ) : σ → Prop
  | refl : ReachIf P s s
  | tail {t u : σ} {a : α} : ReachIf P s t → P t a → M.step t a = some u → ReachIf P s u

/-- Plain reachability: no condition on the steps. -/
def Reach (s t : σ) : Prop := M.ReachIf (fun _ _ => True) s t

variable {M}

variable {P Q : σ → α → Prop} {s t : σ} {I : σ → Prop}

theorem ReachIf.trans {u : σ} (h : M.ReachIf P s t) (h' : M.ReachIf P t u) : M.ReachIf P s u := by
  induction h' with
  | refl => exact h
  | tail _ hP hst ih => exact ih.tail hP hst

theorem ReachIf.mono (h : M.ReachIf P s t) (hPQ : ∀ s a, P s a → Q s a) : M.ReachIf Q s t := by
  induction h with
  | refl => exact .refl
  | tail _ hP hst ih => exact ih.tail (hPQ _ _ hP) hst

/-- **The invariant rule.**  What holds at the start and is preserved by every step that meets
`P` holds in every state that such steps reach. -/
theorem ReachIf.invariant (h : M.ReachIf P s t) (hs : I s)
    (hstep : ∀ u a v, I u → P u a → M.step u a = some v → I v) : I t := by
  induction h with
  | refl => exact hs
  | tail _ hP hst ih => exact hstep _ _ _ ih hP hst

/-- What every step can only extend, a whole run only extends. -/
theorem ReachIf.monotone {R : σ → σ → Prop} (hrefl : ∀ s, R s s)
    (htrans : ∀ {s t u}, R s t → R t u → R s u)
    (hstep : ∀ u a v, P u a → M.step u a = some v → R u v) (h : M.ReachIf P s t) : R s t := by
  induction h with
  | refl => exact hrefl _
  | tail _ hP hst ih => exact htrans ih (hstep _ _ _ hP hst)

theorem reach_of_run : ∀ (as : List α) {s t : σ}, M.run s as = some t → M.Reach s t
  | [], s, t, h => by
    simp only [run, Option.some.injEq] at h
    subst h
    exact .refl
  | a :: as, s, t, h => by
    simp only [run, Option.bind_eq_some_iff] at h
    obtain ⟨u, hu, hrun⟩ := h
    exact ReachIf.trans (ReachIf.tail .refl trivial hu) (reach_of_run as hrun)

/-- The same for a run whose steps are checked; what the checks mean may depend on the action. -/
theorem reachIf_of_runIf_imp [∀ s a, Decidable (P s a)] :
    ∀ (as : List α) {s t : σ}, (∀ a ∈ as, ∀ s, P s a → Q s a) → M.runIf P s as = some t →
      M.ReachIf Q s t
  | [], s, t, _, h => by
    simp only [runIf, Option.some.injEq] at h
    subst h
    exact .refl
  | a :: as, s, t, hQ, h => by
    simp only [runIf, Option.ite_none_right_eq_some, Option.bind_eq_some_iff] at h
    obtain ⟨hP, u, hu, hrun⟩ := h
    have hfst : Q s a := hQ a List.mem_cons_self s hP
    have hrest : ∀ b ∈ as, ∀ s, P s b → Q s b := fun b hb => hQ b (List.mem_cons_of_mem _ hb)
    exact ReachIf.trans (ReachIf.tail .refl hfst hu) (reachIf_of_runIf_imp as hrest hrun)

theorem reachIf_of_runIf [∀ s a, Decidable (P s a)] (as : List α) (h : M.runIf P s as = some t) :
    M.ReachIf P s t :=
  reachIf_of_runIf_imp as (fun _ _ _ hP => hP) h

/-- **Refinement of runs.**  If `f` maps every step taken from an invariant state to a step of
`N` by the same action, it maps every run to a run. -/
theorem run_map {τ : Type*} {N : Machine τ α} {f : σ → τ}
    (hstep : ∀ s a s', I s → M.step s a = some s' → I s' ∧ N.step (f s) a = some (f s')) :
    ∀ (as : List α) {s t : σ}, I s → M.run s as = some t → N.run (f s) as = some (f t)
  | [], s, t, _, h => by
    simp only [run, Option.some.injEq] at h ⊢
    rw [h]
  | a :: as, s, t, hs, h => by
    simp only [run, Option.bind_eq_some_iff] at h
    obtain ⟨u, hu, hrun⟩ := h
    obtain ⟨hI, hN⟩ := hstep s a u hs hu
    simp only [run, hN, Option.bind_some]
    exact run_map hstep as hI hrun

end Machine

end Omnius.Lib
