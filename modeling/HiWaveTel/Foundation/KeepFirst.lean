import Mathlib.Data.List.Induction
import Mathlib.Tactic.Common

/- A loop over rows that collects their keys, the unwanted ones left out and each key
   once, at its first occurrence. The order of the result is that of the first rows:
   `keepFirst_order` says so for any relation the rows are sorted by. -/
namespace Foundation

section KeepFirst
variable {ρ α : Type*} [DecidableEq α] (key : ρ → α) (wanted : α → Prop) [DecidablePred wanted]

/-- The loop body. -/
def keepKey (keys : List α) (r : ρ) : List α :=
  if wanted (key r) ∧ key r ∉ keys then keys ++ [key r] else keys

def keepFirst (rows : List ρ) : List α := rows.foldl (keepKey key wanted) []

theorem keepFirst_concat (rows : List ρ) (r : ρ) :
    keepFirst key wanted (rows ++ [r]) = keepKey key wanted (keepFirst key wanted rows) r := by
  simp [keepFirst, List.foldl_append]

/-- The loop reads of the rows only their keys. -/
theorem keepFirst_map (rows : List ρ) :
    keepFirst key wanted rows = keepFirst id wanted (rows.map key) := by
  unfold keepFirst
  rw [List.foldl_map]
  rfl

variable {key wanted}

theorem mem_keepKey {keys : List α} {r : ρ} {a : α} :
    a ∈ keepKey key wanted keys r ↔ a ∈ keys ∨ (wanted a ∧ key r = a) := by
  unfold keepKey
  split
  · next h =>
    rw [List.mem_append, List.mem_singleton]
    refine or_congr_right ⟨?_, fun ha => ha.2.symm⟩
    rintro rfl
    exact ⟨h.1, rfl⟩
  · next h =>
    refine ⟨Or.inl, ?_⟩
    rintro (ha | ⟨hw, rfl⟩)
    · exact ha
    · by_contra hnew
      exact h ⟨hw, hnew⟩

theorem mem_keepFirst {rows : List ρ} {a : α} :
    a ∈ keepFirst key wanted rows ↔ wanted a ∧ ∃ r ∈ rows, key r = a := by
  induction rows using List.reverseRecOn with
  | nil => simp [keepFirst]
  | append_singleton rows r ih =>
    rw [keepFirst_concat, mem_keepKey, ih]
    simp only [List.mem_append, List.mem_singleton]
    constructor
    · rintro (⟨hw, s, hs, he⟩ | ⟨hw, he⟩)
      · exact ⟨hw, s, Or.inl hs, he⟩
      · exact ⟨hw, r, Or.inr rfl, he⟩
    · rintro ⟨hw, s, hs | rfl, he⟩
      · exact Or.inl ⟨hw, s, hs, he⟩
      · exact Or.inr ⟨hw, he⟩

/-- Where all keys are wanted and different, the loop keeps them all. -/
theorem keepFirst_eq_map {rows : List ρ} (hwanted : ∀ r ∈ rows, wanted (key r))
    (hnodup : (rows.map key).Nodup) : keepFirst key wanted rows = rows.map key := by
  induction rows using List.reverseRecOn with
  | nil => rfl
  | append_singleton rows r ih =>
    rw [List.map_append, List.nodup_append] at hnodup
    obtain ⟨hrows, _, hnew⟩ := hnodup
    have hnot : key r ∉ rows.map key := by
      intro hmem
      exact hnew _ hmem _ (by simp) rfl
    rw [keepFirst_concat, ih (fun s hs => hwanted s (List.mem_append_left _ hs)) hrows, keepKey,
      if_pos ⟨hwanted r (by simp), hnot⟩, List.map_append]
    rfl

/-- A key that comes first has a row before every row of the other. -/
theorem keepFirst_order {R : ρ → ρ → Prop} {rows : List ρ} (h : rows.Pairwise R) :
    (keepFirst key wanted rows).Pairwise
      (fun a b => ∃ r ∈ rows, key r = a ∧ ∀ s ∈ rows, key s = b → R r s) := by
  induction rows using List.reverseRecOn with
  | nil => exact List.Pairwise.nil
  | append_singleton rows x ih =>
    rw [List.pairwise_append] at h
    obtain ⟨hrows, _, hlast⟩ := h
    have hbefore : ∀ r ∈ rows, R r x := fun r hr => hlast r hr x (List.mem_singleton.mpr rfl)
    have hold : (keepFirst key wanted rows).Pairwise
        (fun a b => ∃ r ∈ rows ++ [x], key r = a ∧ ∀ s ∈ rows ++ [x], key s = b → R r s) := by
      refine (ih hrows).imp ?_
      rintro a b ⟨r, hr, hra, hall⟩
      refine ⟨r, List.mem_append_left _ hr, hra, ?_⟩
      intro s hs hsb
      rcases List.mem_append.mp hs with hs | hs
      · exact hall s hs hsb
      · rw [List.mem_singleton.mp hs]
        exact hbefore r hr
    rw [keepFirst_concat]
    unfold keepKey
    split
    · next hnew =>
      rw [List.pairwise_append]
      refine ⟨hold, List.pairwise_singleton _ _, ?_⟩
      intro a ha b hb
      rw [List.mem_singleton.mp hb]
      obtain ⟨_, r, hr, hra⟩ := mem_keepFirst.mp ha
      refine ⟨r, List.mem_append_left _ hr, hra, ?_⟩
      intro s hs hsx
      rcases List.mem_append.mp hs with hs | hs
      · -- the key of `x` is new
        exact absurd (mem_keepFirst.mpr ⟨hnew.1, s, hs, hsx⟩) hnew.2
      · rw [List.mem_singleton.mp hs]
        exact hbefore r hr
    · exact hold

end KeepFirst

end Foundation
