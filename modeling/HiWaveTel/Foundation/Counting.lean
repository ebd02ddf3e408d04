import Mathlib.Algebra.BigOperators.Group.Finset.Basic
import Mathlib.Algebra.GroupWithZero.Nat
import Mathlib.Data.List.Basic
import Mathlib.Tactic.Common

/- Counts of a list by two predicates. They differ by the elements that only one of the two
   takes, so a count that takes some elements wrongly is right exactly when it misses as
   many (`countP_eq_iff`). What a loop adds up by value is a sum over the values
   (`sum_count_mul`). -/
namespace Foundation

section Counting
variable {α : Type*} (p q : α → Bool) (l : List α)

theorem countP_add_countP_diff :
    l.countP p + l.countP (fun x => q x && !p x) =
      l.countP q + l.countP (fun x => p x && !q x) := by
  induction l with
  | nil => rfl
  | cons x l ih =>
    simp only [List.countP_cons]
    cases p x <;> cases q x <;> simp <;> omega

theorem countP_eq_iff :
    l.countP p = l.countP q ↔
      l.countP (fun x => p x && !q x) = l.countP (fun x => q x && !p x) := by
  have h := countP_add_countP_diff p q l
  omega

/-- What `p` takes, and what `q` takes of the rest. -/
theorem countP_add_countP_filter :
    l.countP p + (l.filter (fun x => !p x)).countP q = l.countP (fun x => p x || q x) := by
  induction l with
  | nil => rfl
  | cons x l ih =>
    rw [List.countP_cons, List.countP_cons, ← ih, List.filter_cons]
    cases p x
    · simp [List.countP_cons]
      omega
    · simp
      omega

/-- A loop that counts. -/
theorem foldl_countP {σ : Type*} {step : σ → α → σ} (count : σ → Nat)
    (h : ∀ s x, count (step s x) = count s + if p x then 1 else 0) (s : σ) :
    count (l.foldl step s) = count s + l.countP p := by
  induction l generalizing s with
  | nil => rfl
  | cons x l ih =>
    rw [List.foldl_cons, ih, h, List.countP_cons]
    omega

/-- A sum over a list, value by value. -/
theorem sum_count_mul {ι : Type*} [DecidableEq ι] {is : List ι} {S : Finset ι}
    (hS : ∀ i ∈ is, i ∈ S) (f : ι → Nat) : ∑ i ∈ S, is.count i * f i = (is.map f).sum := by
  rw [Finset.sum_list_map_count]
  symm
  apply Finset.sum_subset
  · intro i hi
    exact hS i (List.mem_toFinset.mp hi)
  · intro i _ hi
    rw [List.count_eq_zero_of_not_mem (fun h => hi (List.mem_toFinset.mpr h)), zero_nsmul]

end Counting

end Foundation
