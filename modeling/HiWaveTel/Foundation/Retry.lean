import Mathlib.Tactic.Common

/- Bounded retry. `retry` makes up to `n` attempts, each on the state the one before
   left, and goes on only after a transient error. An attempt that fails may still have
   changed the state: a `saving` attempt changes memory first and then saves, and only
   the save can fail. `retry_saving` says what is left then: there is a result exactly
   when the faults are `Absorbed`, and it is that of one save, after as many changes of
   memory as there were attempts. -/
namespace Foundation

section Retry
variable {σ ε β : Type*} (transient : ε → Bool) (exhausted : ε)

/-- Up to `n` attempts of `run`, the first with number `i`. -/
def retry (run : Nat → σ → σ × Except ε β) : Nat → Nat → σ → σ × Except ε β
  | 0, _, s => (s, .error exhausted)
  | n + 1, i, s =>
    match run i s with
    | (s', .ok b) => (s', .ok b)
    | (s', .error e) =>
      if n = 0 ∨ transient e = false then (s', .error e) else retry run n (i + 1) s'

/-- From number `i` on, the first of `n` faults that is not transient is no fault. -/
def Absorbed (fault : Nat → Option ε) (n i : Nat) : Prop :=
  ∃ k < n, fault (i + k) = none ∧ ∀ j < k, (fault (i + j)).any transient = true

/-- Change memory, then save; a fault of the save leaves the change. -/
def saving (change : Nat → σ → σ) (save : Nat → σ → σ × β) (fault : Nat → Option ε) (i : Nat)
    (s : σ) : σ × Except ε β :=
  match fault i with
  | none => ((save i (change i s)).1, .ok (save i (change i s)).2)
  | some e => (change i s, .error e)

/-- Memory after the changes number `i` to `i + k - 1`. -/
def changes (change : Nat → σ → σ) : Nat → Nat → σ → σ
  | 0, _, s => s
  | k + 1, i, s => changes change k (i + 1) (change i s)

end Retry

section Lemmas
variable {σ ε β : Type*} {transient : ε → Bool} {exhausted : ε}

theorem absorbed_succ {fault : Nat → Option ε} {n i : Nat} :
    Absorbed transient fault (n + 1) i ↔ fault i = none ∨
      ((fault i).any transient = true ∧ Absorbed transient fault n (i + 1)) := by
  constructor
  · intro h
    obtain ⟨k, hk, hnone, hbefore⟩ := h
    cases k with
    | zero => exact Or.inl hnone
    | succ k =>
      refine Or.inr ⟨hbefore 0 (Nat.succ_pos k), k, by omega, ?_, ?_⟩
      · rw [show i + 1 + k = i + (k + 1) by omega]
        exact hnone
      · intro j hj
        rw [show i + 1 + j = i + (j + 1) by omega]
        exact hbefore (j + 1) (by omega)
  · intro h
    rcases h with hnone | ⟨ht, k, hk, hnone, hbefore⟩
    · exact ⟨0, Nat.succ_pos n, hnone, fun j hj => absurd hj (Nat.not_lt_zero j)⟩
    · refine ⟨k + 1, by omega, ?_, ?_⟩
      · rw [show i + (k + 1) = i + 1 + k by omega]
        exact hnone
      · intro j hj
        cases j with
        | zero => exact ht
        | succ j =>
          rw [show i + (j + 1) = i + 1 + j by omega]
          exact hbefore j (by omega)

section Saving
variable {change : Nat → σ → σ} {save : Nat → σ → σ × β} {fault : Nat → Option ε}

theorem retry_saving_none {n i : Nat} {s : σ} (hf : fault i = none) :
    retry transient exhausted (saving change save fault) (n + 1) i s =
      ((save i (change i s)).1, .ok (save i (change i s)).2) := by
  simp only [retry, saving, hf]

theorem retry_saving_stop {n i : Nat} {s : σ} {e : ε} (hf : fault i = some e)
    (hstop : n = 0 ∨ transient e = false) :
    retry transient exhausted (saving change save fault) (n + 1) i s =
      (change i s, .error e) := by
  simp only [retry, saving, hf, if_pos hstop]

theorem retry_saving_next {n i : Nat} {s : σ} {e : ε} (hf : fault i = some e)
    (hgo : ¬ (n = 0 ∨ transient e = false)) :
    retry transient exhausted (saving change save fault) (n + 1) i s =
      retry transient exhausted (saving change save fault) n (i + 1) (change i s) := by
  simp only [retry, saving, hf, if_neg hgo]

variable (transient exhausted change save fault) in
/-- The two ends of retried saves: one save after `k` absorbed faults, or none. -/
theorem retry_saving (n i : Nat) (s : σ) :
    (∃ k < n, fault (i + k) = none ∧ (∀ j < k, (fault (i + j)).any transient = true) ∧
        retry transient exhausted (saving change save fault) n i s =
          ((save (i + k) (changes change (k + 1) i s)).1,
            .ok (save (i + k) (changes change (k + 1) i s)).2)) ∨
    (¬ Absorbed transient fault n i ∧ ∃ k e,
        retry transient exhausted (saving change save fault) n i s =
          (changes change k i s, .error e)) := by
  induction n generalizing i s with
  | zero =>
    refine Or.inr ⟨?_, 0, exhausted, rfl⟩
    intro h
    obtain ⟨k, hk, _⟩ := h
    exact Nat.not_lt_zero k hk
  | succ n ih =>
    cases hf : fault i with
    | none =>
      refine Or.inl ⟨0, Nat.succ_pos n, hf, fun j hj => absurd hj (Nat.not_lt_zero j), ?_⟩
      exact retry_saving_none hf
    | some e =>
      by_cases hstop : n = 0 ∨ transient e = false
      · refine Or.inr ⟨?_, 1, e, retry_saving_stop hf hstop⟩
        rw [absorbed_succ, hf]
        intro h
        rcases h with h | ⟨ht, k, hk, _⟩
        · cases h
        · rcases hstop with hn | he
          · omega
          · rw [Option.any_some, he] at ht
            exact Bool.noConfusion ht
      · rw [retry_saving_next hf hstop]
        have ht : transient e = true := by simpa using (not_or.mp hstop).2
        rcases ih (i + 1) (change i s) with ⟨k, hk, hnone, hbefore, he⟩ | ⟨hnot, k, d, he⟩
        · refine Or.inl ⟨k + 1, by omega, ?_, ?_, ?_⟩
          · rw [show i + (k + 1) = i + 1 + k by omega]
            exact hnone
          · intro j hj
            cases j with
            | zero => rw [Nat.add_zero, hf, Option.any_some, ht]
            | succ j =>
              rw [show i + (j + 1) = i + 1 + j by omega]
              exact hbefore j (by omega)
          · rw [he, show i + (k + 1) = i + 1 + k by omega]
            rfl
        · refine Or.inr ⟨?_, k + 1, d, he⟩
          rw [absorbed_succ, hf]
          intro h
          rcases h with h | ⟨_, habs⟩
          · cases h
          · exact hnot habs

end Saving

end Lemmas

/-! ## Attempts that answers decide -/

section Answers
variable {ρ ε β : Type*} (attempt : ρ → Except ε β) (transient : ε → Bool)

/-- The attempt fails for a moment. -/
def FailsForNow (r : ρ) : Prop := ∃ e, attempt r = .error e ∧ transient e = true

/-- All attempts before the last one fail for a moment; the last one decides, and it fails so
    only where it is number `n`. -/
def Retried (n : Nat) (rs : List ρ) (res : Except ε β) (rest : List ρ) : Prop :=
  ∃ before r, rs = before ++ r :: rest ∧ before.length < n ∧
    (∀ q ∈ before, FailsForNow attempt transient q) ∧ res = attempt r ∧
    (FailsForNow attempt transient r → before.length + 1 = n)

/-- A bad answer comes while there is an attempt left after it. -/
def AnsweredEarly (bad : ρ → Prop) (n : Nat) (rs : List ρ) : Prop :=
  ∃ before r rest, rs = before ++ r :: rest ∧ before.length + 1 < n ∧
    (∀ q ∈ before, FailsForNow attempt transient q) ∧ bad r

variable {attempt transient} {bad : ρ → Prop} {n : Nat} {r : ρ} {rs rest : List ρ}
  {res : Except ε β}

/-- The first answer decides, or the answers after it do. -/
theorem retried_cons : Retried attempt transient (n + 1) (r :: rs) res rest ↔
    (res = attempt r ∧ rest = rs ∧ (FailsForNow attempt transient r → n = 0)) ∨
      (FailsForNow attempt transient r ∧ Retried attempt transient n rs res rest) := by
  constructor
  · intro h
    obtain ⟨before, r', hrs, hlt, hbefore, hres, hlast⟩ := h
    cases before with
    | nil =>
      cases hrs
      refine Or.inl ⟨hres, rfl, ?_⟩
      intro hfails
      simpa using (hlast hfails).symm
    | cons q before =>
      cases hrs
      refine Or.inr ⟨hbefore r (by simp), before, r', rfl, ?_, ?_, hres, ?_⟩
      · simpa using hlt
      · exact fun q hq => hbefore q (by simp [hq])
      · intro hfails
        simpa using hlast hfails
  · intro h
    rcases h with ⟨hres, rfl, hlast⟩ | ⟨hfails, before, r', rfl, hlt, hbefore, hres, hlast⟩
    · refine ⟨[], r, rfl, by simp, by simp, hres, ?_⟩
      intro hfails
      simp [hlast hfails]
    · refine ⟨r :: before, r', rfl, by simpa using hlt, ?_, hres, ?_⟩
      · simpa using ⟨hfails, hbefore⟩
      · intro hfails'
        simpa using hlast hfails'

theorem answeredEarly_cons : AnsweredEarly attempt transient bad (n + 1) (r :: rs) ↔
    (bad r ∧ 0 < n) ∨
      (FailsForNow attempt transient r ∧ AnsweredEarly attempt transient bad n rs) := by
  constructor
  · intro h
    obtain ⟨before, r', rest', hrs, hlt, hbefore, hbad⟩ := h
    cases before with
    | nil =>
      cases hrs
      exact Or.inl ⟨hbad, by simpa using hlt⟩
    | cons q before =>
      cases hrs
      refine Or.inr ⟨hbefore r (by simp), before, r', rest', rfl, by simpa using hlt, ?_, hbad⟩
      exact fun q hq => hbefore q (by simp [hq])
  · intro h
    rcases h with ⟨hbad, hpos⟩ | ⟨hfails, before, r', rest', rfl, hlt, hbefore, hbad⟩
    · exact ⟨[], r, rs, rfl, by simpa using hpos, by simp, hbad⟩
    · refine ⟨r :: before, r', rest', rfl, by simpa using hlt, ?_, hbad⟩
      simpa using ⟨hfails, hbefore⟩

/-- What is left is shorter. -/
theorem length_lt_of_retried (h : Retried attempt transient n rs res rest) :
    rest.length < rs.length := by
  obtain ⟨before, r, rfl, _⟩ := h
  rw [List.length_append, List.length_cons]
  omega

theorem lt_of_answeredEarly (h : AnsweredEarly attempt transient bad n rs) : 1 < n := by
  obtain ⟨before, _, _, _, hlt, _⟩ := h
  omega

end Answers

end Foundation
