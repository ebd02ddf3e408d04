import Mathlib.Algebra.BigOperators.Group.List.Basic
import Mathlib.Algebra.Ring.Nat
import HiWaveTel.Foundation.Run

/- Runs that are counted. A measure of the state is lowered by some actions and raised by
   others, until an action that ends what is measured; `exec_measure` adds that up over a run,
   and `ends_of_count` reads it as a bound: more lowering actions than the measure at the
   start and the raising actions together do not fit before the end.

   `countSteps` counts the actions of a run that are of a kind in the state they are taken in;
   `countSteps_le_of_measure` bounds it by what the measure has at the start. -/
namespace Foundation

section Measure
variable {σ α : Type*} {step : σ → α → Option σ} {I : σ → Prop} {measure : σ → Nat}
  {ends : σ → α → Prop}

/-- The run has an action that ends it in the state it is taken in. -/
def Ends (step : σ → α → Option σ) (ends : σ → α → Prop) (s : σ) (as : List α) : Prop :=
  ∃ before a after u, as = before ++ a :: after ∧ exec step s before = some u ∧ ends u a

theorem ends_head {s : σ} {a : α} (as : List α) (h : ends s a) : Ends step ends s (a :: as) :=
  ⟨[], a, as, s, rfl, rfl, h⟩

theorem ends_tail {s t : σ} {a : α} {as : List α} (hstep : step s a = some t)
    (h : Ends step ends t as) : Ends step ends s (a :: as) := by
  obtain ⟨before, b, after, u, rfl, hu, hb⟩ := h
  exact ⟨a :: before, b, after, u, rfl, exec_cons_eq_some.mpr ⟨t, hstep, hu⟩, hb⟩

/-- What one step does to the measure, added up until the end. -/
theorem exec_measure {down up : α → Nat}
    (hstep : ∀ s a t, I s → step s a = some t →
      ends s a ∨ I t ∧ measure t + down a ≤ measure s + up a)
    {s t : σ} {as : List α} (hs : I s) (h : exec step s as = some t) :
    Ends step ends s as ∨
      I t ∧ measure t + (as.map down).sum ≤ measure s + (as.map up).sum := by
  induction as generalizing s with
  | nil =>
    cases h
    exact Or.inr ⟨hs, Nat.le_refl _⟩
  | cons a as ih =>
    obtain ⟨u, hu, ht⟩ := exec_cons_eq_some.mp h
    cases hstep s a u hs hu with
    | inl hend => exact Or.inl (ends_head as hend)
    | inr hgo =>
      obtain ⟨hIu, hle⟩ := hgo
      cases ih hIu ht with
      | inl hend => exact Or.inl (ends_tail hu hend)
      | inr hrest =>
        obtain ⟨hIt, hrun⟩ := hrest
        refine Or.inr ⟨hIt, ?_⟩
        rw [List.map_cons, List.map_cons, List.sum_cons, List.sum_cons]
        omega

theorem sum_toNat (p : α → Bool) (as : List α) :
    (as.map (fun a => (p a).toNat)).sum = as.countP p := by
  induction as with
  | nil => rfl
  | cons a as ih =>
    rw [List.map_cons, List.sum_cons, ih, List.countP_cons]
    cases p a <;> simp
    omega

theorem ends_of_count (measure : σ → Nat) {down up : α → Bool}
    (hstep : ∀ s a t, I s → step s a = some t →
      ends s a ∨ I t ∧ measure t + (down a).toNat ≤ measure s + (up a).toNat)
    {s t : σ} {as : List α} (hs : I s) (h : exec step s as = some t)
    (hcount : measure s + as.countP up < as.countP down) : Ends step ends s as := by
  cases exec_measure hstep hs h with
  | inl hend => exact hend
  | inr hrun =>
    have hle := hrun.2
    rw [sum_toNat, sum_toNat] at hle
    omega

end Measure

section Count
variable {σ α : Type*} (step : σ → α → Option σ) (kind : σ → α → Bool)

/-- How many actions of the run are of the kind, each in the state it is taken in. -/
def countSteps : σ → List α → Nat
  | _, [] => 0
  | s, a :: as =>
    (kind s a).toNat + match step s a with
      | none => 0
      | some t => countSteps t as

variable {step kind}

/-- A number that grows by one with each action of the kind, and with no other. -/
theorem exec_count {I : σ → Prop} {number : σ → Nat}
    (hstep : ∀ s a t, I s → step s a = some t → I t ∧ number t = number s + (kind s a).toNat)
    {s t : σ} {as : List α} (hs : I s) (h : exec step s as = some t) :
    I t ∧ number t = number s + countSteps step kind s as := by
  induction as generalizing s with
  | nil =>
    cases h
    exact ⟨hs, rfl⟩
  | cons a as ih =>
    obtain ⟨u, hu, ht⟩ := exec_cons_eq_some.mp h
    obtain ⟨hIu, hone⟩ := hstep s a u hs hu
    obtain ⟨hIt, hrest⟩ := ih hIu ht
    refine ⟨hIt, ?_⟩
    simp only [countSteps, hu]
    omega

/-- As long as all actions are of a sort, those of the kind are paid for by a measure. -/
theorem countSteps_le_of_measure {sort : α → Prop} (measure : σ → Nat)
    (hstep : ∀ s a t, sort a → step s a = some t → measure t + (kind s a).toNat ≤ measure s)
    {s t : σ} {as : List α} (hsort : ∀ a ∈ as, sort a) (h : exec step s as = some t) :
    measure t + countSteps step kind s as ≤ measure s := by
  induction as generalizing s with
  | nil =>
    cases h
    exact Nat.le_refl _
  | cons a as ih =>
    obtain ⟨u, hu, ht⟩ := exec_cons_eq_some.mp h
    obtain ⟨ha, has⟩ := List.forall_mem_cons.mp hsort
    have hone := hstep s a u ha hu
    have hrest := ih has ht
    simp only [countSteps, hu]
    omega

end Count

end Foundation
