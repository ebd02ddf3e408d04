import Mathlib.Data.ENat.Lattice

/- The position of the first success of a sequence of attempts, counted from one, and
   `⊤` if every attempt fails. A loop of at most `n` attempts that stops at its first
   success makes `min (firstSuccess ok) n` of them: `eq_min_firstSuccess` gives that
   from what the loop does at each attempt. -/
namespace Foundation

noncomputable def firstSuccess (ok : Nat → Bool) : ℕ∞ :=
  ⨅ i ∈ {i | ok i = true}, ((i + 1 : Nat) : ℕ∞)

theorem firstSuccess_le_iff {ok : Nat → Bool} {n : Nat} :
    firstSuccess ok ≤ n ↔ ∃ i < n, ok i = true := by
  constructor
  · intro h
    by_contra hnone
    have hlater : ((n + 1 : Nat) : ℕ∞) ≤ firstSuccess ok := by
      refine le_iInf₂ ?_
      intro i hi
      have hni : n ≤ i := by
        by_contra hlt
        exact hnone ⟨i, Nat.lt_of_not_le hlt, hi⟩
      exact Nat.cast_le.mpr (Nat.succ_le_succ hni)
    have hsucc : n + 1 ≤ n := Nat.cast_le.mp (hlater.trans h)
    omega
  · intro h
    obtain ⟨i, hi, hok⟩ := h
    exact (iInf₂_le i hok).trans (Nat.cast_le.mpr hi)

/-- The attempts of a bounded loop: it goes on while they fail, and stops before the bound
    only at a success. -/
theorem eq_min_firstSuccess {ok : Nat → Bool} {n count : Nat} (hle : count ≤ n)
    (hbefore : ∀ i, i + 1 < count → ok i = false) (hstop : count < n → ∃ i < count, ok i = true) :
    (count : ℕ∞) = min (firstSuccess ok) n := by
  apply le_antisymm
  · refine le_min ?_ (Nat.cast_le.mpr hle)
    refine le_iInf₂ ?_
    intro i hi
    have hcount : count ≤ i + 1 := by
      by_contra hlt
      have hfails := hbefore i (Nat.lt_of_not_le hlt)
      rw [show ok i = true from hi] at hfails
      cases hfails
    exact Nat.cast_le.mpr hcount
  · rcases Nat.lt_or_ge count n with hlt | hge
    · exact (min_le_left _ _).trans (firstSuccess_le_iff.mpr (hstop hlt))
    · exact (min_le_right _ _).trans (Nat.cast_le.mpr hge)

end Foundation
