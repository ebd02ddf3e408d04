import Mathlib.Logic.Function.Basic
import Mathlib.Tactic.Common

/- Runs of a labelled step function. An action carries every choice the
   environment makes (a clock reading, an HTTP answer, which thread moves), so a
   step is a function and a run is a list of actions: it can be executed, and a
   property of every list of actions is a property of every interleaving.
   `Meets ok` collects the assumptions under which a run is considered, each read
   in the state its action is taken in; `Reaches` is reachability by such a run.
   `Reaches.invariant` packages the induction once. -/
namespace Foundation

section Runs
variable {σ α : Type*} (step : σ → α → Option σ) (ok : σ → α → Prop)

/-- Take the actions one after the other; `none` once one is not enabled. -/
def exec : σ → List α → Option σ
  | s, [] => some s
  | s, a :: as => (step s a).bind (fun t => exec t as)

/-- Every action of the run meets `ok` in the state it is taken in. -/
def Meets : σ → List α → Prop
  | _, [] => True
  | s, a :: as => ok s a ∧ ∀ t, step s a = some t → Meets t as

/-- `t` is reached from `s` by a run that meets `ok`. -/
def Reaches (s t : σ) : Prop := ∃ as, Meets step ok s as ∧ exec step s as = some t

/-- `exec` that also stops at an action that does not meet `ok`. -/
def execIf [∀ s a, Decidable (ok s a)] : σ → List α → Option σ
  | s, [] => some s
  | s, a :: as => if ok s a then (step s a).bind (fun t => execIf t as) else none

end Runs

section Lemmas
variable {σ α : Type*} {step : σ → α → Option σ} {ok ok' : σ → α → Prop}

@[simp] theorem exec_nil (s : σ) : exec step s [] = some s := rfl

theorem exec_cons_eq_some {s t : σ} {a : α} {as : List α} :
    exec step s (a :: as) = some t ↔ ∃ u, step s a = some u ∧ exec step u as = some t := by
  simp [exec, Option.bind_eq_some_iff]

theorem exec_append_eq_some {s t : σ} {as bs : List α} :
    exec step s (as ++ bs) = some t ↔ ∃ u, exec step s as = some u ∧ exec step u bs = some t := by
  induction as generalizing s with
  | nil => simp
  | cons a as ih =>
    simp only [List.cons_append, exec_cons_eq_some, ih]
    constructor
    · rintro ⟨u, hu, v, hv, ht⟩
      exact ⟨v, ⟨u, hu, hv⟩, ht⟩
    · rintro ⟨v, ⟨u, hu, hv⟩, ht⟩
      exact ⟨u, hu, v, hv, ht⟩

/-- Along a run it is enough to compare the assumptions in states with the invariant. -/
theorem Meets.mono_of_invariant {I : σ → Prop}
    (hstep : ∀ s a t, I s → ok s a → step s a = some t → I t)
    (h : ∀ s a, I s → ok s a → ok' s a) {s : σ} {as : List α} (hs : I s)
    (hm : Meets step ok s as) : Meets step ok' s as := by
  induction as generalizing s with
  | nil => trivial
  | cons a as ih =>
    refine ⟨h s a hs hm.1, ?_⟩
    intro t ht
    exact ih (hstep s a t hs hm.1 ht) (hm.2 t ht)

theorem meets_append {s : σ} {as bs : List α} :
    Meets step ok s (as ++ bs) ↔
      Meets step ok s as ∧ ∀ u, exec step s as = some u → Meets step ok u bs := by
  induction as generalizing s with
  | nil => simp [Meets]
  | cons a as ih =>
    simp only [List.cons_append, Meets, ih, exec_cons_eq_some]
    constructor
    · rintro ⟨ha, h⟩
      exact ⟨⟨ha, fun t ht => (h t ht).1⟩, fun u ⟨t, ht, hu⟩ => (h t ht).2 u hu⟩
    · rintro ⟨⟨ha, h⟩, h'⟩
      exact ⟨ha, fun t ht => ⟨h t ht, fun u hu => h' u ⟨t, ht, hu⟩⟩⟩

theorem meets_true (s : σ) (as : List α) : Meets step (fun _ _ => True) s as := by
  induction as generalizing s with
  | nil => trivial
  | cons a as ih => exact ⟨trivial, fun t _ => ih t⟩

/-- With a condition on the actions alone. -/
theorem meets_and_forall {p : α → Prop} {s : σ} {as : List α} (h : Meets step ok s as)
    (hp : ∀ a ∈ as, p a) : Meets step (fun s a => ok s a ∧ p a) s as := by
  induction as generalizing s with
  | nil => trivial
  | cons a as ih =>
    obtain ⟨ha, has⟩ := List.forall_mem_cons.mp hp
    exact ⟨⟨h.1, ha⟩, fun t ht => ih (h.2 t ht) has⟩

/-- A condition on the actions alone. -/
theorem meets_of_forall {p : α → Prop} {as : List α} (h : ∀ a ∈ as, p a) (s : σ) :
    Meets step (fun _ a => p a) s as := by
  induction as generalizing s with
  | nil => trivial
  | cons a as ih =>
    obtain ⟨ha, has⟩ := List.forall_mem_cons.mp h
    exact ⟨ha, fun t _ => ih has t⟩

theorem execIf_cons_eq_some [∀ s a, Decidable (ok s a)] {s t : σ} {a : α} {as : List α} :
    execIf step ok s (a :: as) = some t ↔
      ok s a ∧ ∃ u, step s a = some u ∧ execIf step ok u as = some t := by
  by_cases ha : ok s a <;> simp [execIf, ha, Option.bind_eq_some_iff]

theorem exec_of_execIf [∀ s a, Decidable (ok s a)] {s t : σ} {as : List α}
    (h : execIf step ok s as = some t) : exec step s as = some t := by
  induction as generalizing s with
  | nil => exact h
  | cons a as ih =>
    obtain ⟨_, u, hu, ht⟩ := execIf_cons_eq_some.mp h
    exact exec_cons_eq_some.mpr ⟨u, hu, ih ht⟩

theorem meets_of_execIf [∀ s a, Decidable (ok s a)] {s t : σ} {as : List α}
    (h : execIf step ok s as = some t) : Meets step ok s as := by
  induction as generalizing s with
  | nil => trivial
  | cons a as ih =>
    obtain ⟨ha, u, hu, ht⟩ := execIf_cons_eq_some.mp h
    refine ⟨ha, ?_⟩
    intro v hv
    rw [hu] at hv
    cases hv
    exact ih ht

/-- What a run that does not meet its assumptions leaves behind: if each step within `dom`
    makes `F` true exactly when it does not meet `ok`, and `F` stays, so does the run. -/
theorem exec_latch_within {F I : σ → Prop} {dom : σ → α → Prop}
    (hI : ∀ s a t, I s → dom s a → step s a = some t → I t)
    (hF : ∀ s a t, I s → dom s a → step s a = some t → (F t ↔ F s ∨ ¬ ok s a)) {s t : σ}
    {as : List α} (hs : I s) (hd : Meets step dom s as) (h : exec step s as = some t) :
    F t ↔ F s ∨ ¬ Meets step ok s as := by
  induction as generalizing s with
  | nil =>
    cases h
    exact ⟨Or.inl, fun h => h.resolve_right (fun hn => hn trivial)⟩
  | cons a as ih =>
    obtain ⟨u, hu, ht⟩ := exec_cons_eq_some.mp h
    have hmeets : Meets step ok s (a :: as) ↔ ok s a ∧ Meets step ok u as := by
      refine and_congr_right (fun _ => ⟨fun h => h u hu, ?_⟩)
      intro h v hv
      rw [hu] at hv
      cases hv
      exact h
    rw [ih (hI s a u hs hd.1 hu) (hd.2 u hu) ht, hF s a u hs hd.1 hu, hmeets, not_and_or, or_assoc]

theorem exec_latch {F I : σ → Prop} (hI : ∀ s a t, I s → step s a = some t → I t)
    (hF : ∀ s a t, I s → step s a = some t → (F t ↔ F s ∨ ¬ ok s a)) {s t : σ} {as : List α}
    (hs : I s) (h : exec step s as = some t) : F t ↔ F s ∨ ¬ Meets step ok s as :=
  exec_latch_within (fun s a t hs _ ht => hI s a t hs ht) (fun s a t hs _ ht => hF s a t hs ht) hs
    (meets_true s as) h

/-- When one process of a family moves, each phase is the new one or that of another process. -/
theorem update_cases {ι β : Type*} [DecidableEq ι] (phase : ι → β) (i : ι) (new : β) (j : ι) :
    (j = i ∧ Function.update phase i new j = new) ∨
      (j ≠ i ∧ Function.update phase i new j = phase j) := by
  by_cases hj : j = i
  · rw [hj, Function.update_self]
    exact Or.inl ⟨rfl, rfl⟩
  · rw [Function.update_of_ne hj]
    exact Or.inr ⟨hj, rfl⟩

namespace Reaches

theorem refl (s : σ) : Reaches step ok s s := ⟨[], trivial, rfl⟩

theorem trans {s t u : σ} (h₁ : Reaches step ok s t) (h₂ : Reaches step ok t u) :
    Reaches step ok s u := by
  obtain ⟨as, ma, ea⟩ := h₁
  obtain ⟨bs, mb, eb⟩ := h₂
  refine ⟨as ++ bs, meets_append.mpr ⟨ma, ?_⟩, exec_append_eq_some.mpr ⟨t, ea, eb⟩⟩
  intro v hv
  rw [ea] at hv
  cases hv
  exact mb

theorem single {s t : σ} {a : α} (ha : ok s a) (h : step s a = some t) :
    Reaches step ok s t :=
  ⟨[a], ⟨ha, fun _ _ => trivial⟩, by simp [exec, h]⟩

theorem of_execIf [∀ s a, Decidable (ok s a)] {s t : σ} {as : List α}
    (h : execIf step ok s as = some t) : Reaches step ok s t :=
  ⟨as, meets_of_execIf h, exec_of_execIf h⟩

/-- What holds at the start and is kept by every step holds in every reachable state. -/
theorem invariant {I : σ → Prop}
    (hstep : ∀ s a t, I s → ok s a → step s a = some t → I t)
    {s t : σ} (hr : Reaches step ok s t) (hs : I s) : I t := by
  obtain ⟨as, hm, he⟩ := hr
  induction as generalizing s with
  | nil => cases he; exact hs
  | cons a as ih =>
    obtain ⟨u, hu, ht⟩ := exec_cons_eq_some.mp he
    exact ih (hstep s a u hs hm.1 hu) (hm.2 u hu) ht

end Reaches

end Lemmas

end Foundation
