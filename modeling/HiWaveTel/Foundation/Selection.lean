import Mathlib.Data.List.MinMax
import Mathlib.Data.List.Perm.Basic
import Mathlib.Tactic.Common

/- Selection by rank. A register that replaces its value by one of a strictly higher
   rank, fed a sequence of values one after the other, ends with the earliest value of
   maximal rank (`argmax_cons_eq_pickAll`). So its final rank does not depend on the order
   (`rank_pickAll_of_perm`), and where some rank cannot be exceeded it is the first value
   that has it (`pickAll_eq_of_find?`).

   Selection with a fallback: each value stands for itself when it is good, and for the first
   good one otherwise. That keeps the values apart exactly when they are all good or none is
   (`injOn_orFirst_iff`). -/
namespace Foundation

theorem argmax_congr {α β : Type*} [DecidableEq α] [LinearOrder β] {f g : α → β} {l : List α}
    (h : ∀ x ∈ l, f x = g x) : l.argmax f = l.argmax g := by
  cases hf : l.argmax f with
  | none =>
    rw [List.argmax_eq_none.mp hf]
    rfl
  | some m =>
    obtain ⟨hm, hmax, hfirst⟩ := List.argmax_eq_some_iff.mp hf
    symm
    apply List.argmax_eq_some_iff.mpr
    refine ⟨hm, ?_, ?_⟩
    · intro a ha
      rw [← h a ha, ← h m hm]
      exact hmax a ha
    · intro a ha hle
      rw [← h a ha, ← h m hm] at hle
      exact hfirst a ha hle

section Pick
variable {α β : Type*} [LinearOrder β] (rank : α → β)

/-- The register after one more value. -/
def pick (cur x : α) : α := if rank cur < rank x then x else cur

/-- The register after a sequence of values. -/
def pickAll (a : α) (l : List α) : α := l.foldl (pick rank) a

@[simp] theorem pickAll_cons (a b : α) (l : List α) :
    pickAll rank a (b :: l) = pickAll rank (pick rank a b) l := rfl

theorem pickAll_concat (a b : α) (l : List α) :
    pickAll rank a (l ++ [b]) = pick rank (pickAll rank a l) b := by
  unfold pickAll
  rw [List.foldl_append]
  rfl

/-- The register holds the earliest value of maximal rank. -/
theorem argmax_cons_eq_pickAll (a : α) (l : List α) :
    (a :: l).argmax rank = some (pickAll rank a l) := by
  induction l using List.reverseRecOn with
  | nil => rfl
  | append_singleton l b ih =>
    rw [← List.cons_append, List.argmax_concat, ih, pickAll_concat]
    show (if rank (pickAll rank a l) < rank b then some b else some (pickAll rank a l)) = _
    unfold pick
    split <;> rfl

theorem rank_le_pickAll {a x : α} {l : List α} (hx : x ∈ a :: l) :
    rank x ≤ rank (pickAll rank a l) :=
  List.le_of_mem_argmax hx (Option.mem_def.mpr (argmax_cons_eq_pickAll rank a l))

theorem pickAll_mem (a : α) (l : List α) : pickAll rank a l ∈ a :: l :=
  List.argmax_mem (Option.mem_def.mpr (argmax_cons_eq_pickAll rank a l))

/-- The final rank is a property of the values, not of their order. -/
theorem rank_pickAll_of_perm {a b : α} {l m : List α} (h : (a :: l).Perm (b :: m)) :
    rank (pickAll rank a l) = rank (pickAll rank b m) := by
  apply le_antisymm
  · exact rank_le_pickAll rank (h.subset (pickAll_mem rank a l))
  · exact rank_le_pickAll rank (h.symm.subset (pickAll_mem rank b m))

/-- Where no value has a rank above `k`, the first one of rank `k` stays. -/
theorem pickAll_eq_of_find? {k : β} {a x : α} {l : List α} (htop : ∀ v ∈ a :: l, rank v ≤ k)
    (hfind : (a :: l).find? (fun v => decide (k ≤ rank v)) = some x) : pickAll rank a l = x := by
  induction l generalizing a with
  | nil =>
    have hx := List.mem_of_find?_eq_some hfind
    rw [List.mem_singleton.mp hx]
    rfl
  | cons b l ih =>
    have hb : rank b ≤ k := htop b (by simp)
    rw [pickAll_cons]
    apply ih
    · intro v hv
      rcases List.mem_cons.mp hv with rfl | hv
      · unfold pick
        split
        · exact hb
        · exact htop a (by simp)
      · exact htop v (by simp [hv])
    · unfold pick
      by_cases ha : k ≤ rank a
      · -- the register is full already
        have hnot : ¬ rank a < rank b := not_lt.mpr (le_trans hb ha)
        rw [if_neg hnot]
        rw [List.find?_cons_of_pos (by simpa using ha)] at hfind ⊢
        exact hfind
      · rw [List.find?_cons_of_neg (by simpa using ha)] at hfind
        by_cases hab : rank a < rank b
        · rw [if_pos hab]
          exact hfind
        · rw [if_neg hab, List.find?_cons_of_neg (by simpa using ha)]
          have hb' : ¬ k ≤ rank b := fun h => ha (le_trans h (not_lt.mp hab))
          rw [List.find?_cons_of_neg (by simpa using hb')] at hfind
          exact hfind

/-! As an operation on values it is associative and idempotent, and a value of least rank is
    neutral. -/

@[simp] theorem pick_self (a : α) : pick rank a a = a := if_neg (lt_irrefl _)

theorem pick_assoc (a b c : α) :
    pick rank (pick rank a b) c = pick rank a (pick rank b c) := by
  unfold pick
  by_cases hab : rank a < rank b
  · by_cases hbc : rank b < rank c
    · simp only [if_pos hab, if_pos hbc, if_pos (hab.trans hbc)]
    · simp only [if_pos hab, if_neg hbc]
  · by_cases hbc : rank b < rank c
    · simp only [if_neg hab, if_pos hbc]
    · have hac : ¬ rank a < rank c := not_lt.mpr ((not_lt.mp hbc).trans (not_lt.mp hab))
      simp only [if_neg hab, if_neg hbc, if_neg hac]

/-- `e` is the only value of its rank, and that is the least one. -/
def Least (e : α) : Prop := ∀ x, rank x ≤ rank e → x = e

section Least
variable {rank} {e : α} (he : Least rank e)
include he

theorem pick_least (x : α) : pick rank e x = x := by
  unfold pick
  split
  · rfl
  · next hnot => exact (he x (not_lt.mp hnot)).symm

theorem pick_least_right (x : α) : pick rank x e = x := by
  unfold pick
  split
  · next hlt => exact (he x hlt.le).symm
  · rfl

theorem pickAll_eq_pick (a : α) (l : List α) :
    pickAll rank a l = pick rank a (pickAll rank e l) := by
  induction l generalizing a with
  | nil => exact (pick_least_right he a).symm
  | cons b l ih =>
    rw [pickAll_cons, pickAll_cons, ih, ih (pick rank e b), pick_least he, pick_assoc]

theorem pickAll_append (l m : List α) :
    pickAll rank e (l ++ m) = pick rank (pickAll rank e l) (pickAll rank e m) := by
  rw [← pickAll_eq_pick he]
  exact List.foldl_append

/-- A part of the values may be replaced by the value picked from it. -/
theorem pickAll_nested (l m r : List α) :
    pickAll rank e (l ++ pickAll rank e m :: r) = pickAll rank e (l ++ m ++ r) := by
  have hright : pickAll rank e (pickAll rank e m :: r) =
      pick rank (pickAll rank e m) (pickAll rank e r) := by
    rw [pickAll_cons, pick_least he, pickAll_eq_pick he (pickAll rank e m) r]
  rw [pickAll_append he, hright, pickAll_append he, pickAll_append he, pick_assoc]

end Least

/-- The picked value is the first one of its rank. -/
theorem find?_pickAll (a : α) (l : List α) :
    (a :: l).find? (fun v => decide (rank (pickAll rank a l) ≤ rank v)) =
      some (pickAll rank a l) := by
  have hsome : ((a :: l).find? (fun v => decide (rank (pickAll rank a l) ≤ rank v))).isSome :=
    List.find?_isSome.mpr ⟨_, pickAll_mem rank a l, by simp⟩
  obtain ⟨x, hx⟩ := Option.isSome_iff_exists.mp hsome
  rw [hx, ← pickAll_eq_of_find? rank (fun v hv => rank_le_pickAll rank hv) hx]

omit [LinearOrder β] in
/-- A search that leaves out both of two values does not see their exchange. -/
theorem find?_exchange_of_not {p : α → Bool} {x y : α} (l m r : List α) (hx : p x = false)
    (hy : p y = false) :
    (l ++ x :: (m ++ y :: r)).find? p = (l ++ y :: (m ++ x :: r)).find? p := by
  simp only [List.find?_append, List.find?_cons, hx, hy]

omit [LinearOrder β] in
/-- Nor does one that takes one of them and leaves out all between them. -/
theorem find?_exchange {p : α → Bool} {x y : α} {m : List α} (l r : List α) (hx : p x = true)
    (hy : p y = false) (hm : ∀ z ∈ m, p z = false) :
    (l ++ x :: (m ++ y :: r)).find? p = (l ++ y :: (m ++ x :: r)).find? p := by
  have hnone : m.find? p = none := List.find?_eq_none.mpr (fun z hz => by simp [hm z hz])
  simp only [List.find?_append, List.find?_cons, hx, hy, hnone, Option.none_or]

/-- An exchange of two values shows only where one of them has the highest rank, and so has the
    other one or a value between them. -/
theorem pickAll_exchange {e x y : α} {l m r : List α}
    (h : pickAll rank e (l ++ x :: (m ++ y :: r)) ≠ pickAll rank e (l ++ y :: (m ++ x :: r))) :
    (rank x = rank (pickAll rank e (l ++ x :: (m ++ y :: r))) ∨
      rank y = rank (pickAll rank e (l ++ x :: (m ++ y :: r)))) ∧
    ((rank x = rank y) ∨
      ∃ z ∈ m, rank z = rank (pickAll rank e (l ++ x :: (m ++ y :: r)))) := by
  have hperm : (e :: (l ++ x :: (m ++ y :: r))).Perm (e :: (l ++ y :: (m ++ x :: r))) := by
    refine List.Perm.cons e (List.Perm.append_left l ?_)
    calc (x :: (m ++ y :: r)).Perm (x :: y :: (m ++ r)) := List.Perm.cons x List.perm_middle
      _ |>.Perm (y :: x :: (m ++ r)) := List.Perm.swap y x _
      _ |>.Perm (y :: (m ++ x :: r)) := List.Perm.cons y List.perm_middle.symm
  have hleft := find?_pickAll rank e (l ++ x :: (m ++ y :: r))
  have hright := find?_pickAll rank e (l ++ y :: (m ++ x :: r))
  have hmax : ∀ v ∈ e :: (l ++ x :: (m ++ y :: r)),
      rank v ≤ rank (pickAll rank e (l ++ x :: (m ++ y :: r))) :=
    fun v hv => rank_le_pickAll rank hv
  rw [← rank_pickAll_of_perm rank hperm] at hright
  generalize rank (pickAll rank e (l ++ x :: (m ++ y :: r))) = top at *
  have htop : ∀ {v}, v ∈ e :: (l ++ x :: (m ++ y :: r)) → rank v ≠ top →
      decide (top ≤ rank v) = false := by
    intro v hv hne
    exact decide_eq_false (fun hle => hne (le_antisymm (hmax v hv) hle))
  have hsame : (e :: (l ++ x :: (m ++ y :: r))).find? (fun v => decide (top ≤ rank v)) ≠
      (e :: (l ++ y :: (m ++ x :: r))).find? (fun v => decide (top ≤ rank v)) := by
    rw [hleft, hright]
    exact fun hsome => h (Option.some.inj hsome)
  by_contra hnot
  by_cases hx : rank x = top
  · by_cases hy : rank y = top
    · exact hnot ⟨Or.inl hx, Or.inl (hx.trans hy.symm)⟩
    · have hm : ∀ z ∈ m, decide (top ≤ rank z) = false := fun z hz =>
        htop (by simp [hz]) (fun heq => hnot ⟨Or.inl hx, Or.inr ⟨z, hz, heq⟩⟩)
      exact hsame (find?_exchange (e :: l) r (decide_eq_true hx.ge) (htop (by simp) hy) hm)
  · by_cases hy : rank y = top
    · have hm : ∀ z ∈ m, decide (top ≤ rank z) = false := fun z hz =>
        htop (by simp [hz]) (fun heq => hnot ⟨Or.inr hy, Or.inr ⟨z, hz, heq⟩⟩)
      exact hsame (find?_exchange (e :: l) r (decide_eq_true hy.ge) (htop (by simp) hx) hm).symm
    · exact hsame (find?_exchange_of_not (e :: l) m r (htop (by simp) hx) (htop (by simp) hy))

end Pick

section Fallback
variable {α : Type*} (good : α → Bool)

/-- `a` when it is good, or else the first good value of the list, if there is one. -/
def orFirst (l : List α) (a : α) : α := if good a then a else (l.find? good).getD a

variable {good} {l : List α} {a b : α}

theorem orFirst_of_good (h : good a = true) : orFirst good l a = a := if_pos h

theorem orFirst_of_none (h : ∀ c ∈ l, good c = false) : orFirst good l a = a := by
  unfold orFirst
  have hfind : l.find? good = none := List.find?_eq_none.mpr (fun c hc => by simp [h c hc])
  rw [hfind]
  split <;> rfl

/-- The first good value stands for every value that is not good. -/
theorem orFirst_of_not_good (h : good a = false) {c : α} (hc : l.find? good = some c) :
    orFirst good l a = c := by
  unfold orFirst
  rw [if_neg (by simp [h]), hc]
  rfl

theorem orFirst_mem (ha : a ∈ l) : orFirst good l a ∈ l := by
  cases h : good a with
  | true => exact (orFirst_of_good h).symm ▸ ha
  | false =>
    cases hfind : l.find? good with
    | none =>
      rw [orFirst_of_none (fun c hc => by simpa using List.find?_eq_none.mp hfind c hc)]
      exact ha
    | some c =>
      rw [orFirst_of_not_good h hfind]
      exact List.mem_of_find?_eq_some hfind

theorem good_orFirst (h : ∃ c ∈ l, good c = true) : good (orFirst good l a) = true := by
  cases ha : good a with
  | true => rw [orFirst_of_good ha, ha]
  | false =>
    obtain ⟨c, hfind⟩ := Option.isSome_iff_exists.mp (List.find?_isSome.mpr h)
    rw [orFirst_of_not_good ha hfind]
    exact List.find?_some hfind

/-- In a sorted list it is the least good one. -/
theorem orFirst_le [LinearOrder α] (hsorted : l.Pairwise (· ≤ ·)) (ha : good a = false)
    (hb : b ∈ l) (hgood : good b = true) : orFirst good l a ≤ b := by
  obtain ⟨c, hfind⟩ := Option.isSome_iff_exists.mp (List.find?_isSome.mpr ⟨b, hb, hgood⟩)
  rw [orFirst_of_not_good ha hfind]
  obtain ⟨_, before, after, rfl, hbefore⟩ := List.find?_eq_some_iff_append.mp hfind
  rcases List.mem_append.mp hb with hb | hb
  · have hnot := hbefore b hb
    rw [hgood] at hnot
    cases hnot
  · rcases List.mem_cons.mp hb with rfl | hb
    · exact le_refl _
    · exact (List.pairwise_cons.mp (List.pairwise_append.mp hsorted).2.1).1 b hb

variable (good l) in
/-- The values are all good, or none is. -/
def AllOrNone : Prop := (∀ c ∈ l, good c = true) ∨ (∀ c ∈ l, good c = false)

theorem exists_mixed (h : ¬ AllOrNone good l) :
    (∃ c ∈ l, good c = true) ∧ (∃ c ∈ l, good c = false) := by
  obtain ⟨hall, hnone⟩ := not_or.mp h
  constructor
  · by_contra hno
    exact hnone (fun c hc => by simpa using fun hgood => hno ⟨c, hc, hgood⟩)
  · by_contra hno
    exact hall (fun c hc => by simpa using fun hbad => hno ⟨c, hc, hbad⟩)

theorem orFirst_of_allOrNone (h : AllOrNone good l) (ha : a ∈ l) : orFirst good l a = a := by
  rcases h with hall | hnone
  · exact orFirst_of_good (hall a ha)
  · exact orFirst_of_none hnone

/-- A bad value and the one that stands for it meet. -/
theorem injOn_orFirst_iff :
    (∀ a ∈ l, ∀ b ∈ l, orFirst good l a = orFirst good l b → a = b) ↔ AllOrNone good l := by
  constructor
  · intro hinj
    by_contra hmixed
    obtain ⟨hgood, c, hc, hbad⟩ := exists_mixed hmixed
    have hstand : good (orFirst good l c) = true := good_orFirst hgood
    have heq := hinj c hc _ (orFirst_mem hc) (orFirst_of_good hstand).symm
    rw [← heq, hbad] at hstand
    cases hstand
  · intro h a ha b hb heq
    rwa [orFirst_of_allOrNone h ha, orFirst_of_allOrNone h hb] at heq

/-- No value stands for a bad one once there is a good one. -/
theorem surjOn_orFirst_iff :
    (∀ b ∈ l, ∃ a ∈ l, orFirst good l a = b) ↔ AllOrNone good l := by
  constructor
  · intro hsurj
    by_contra hmixed
    obtain ⟨hgood, c, hc, hbad⟩ := exists_mixed hmixed
    obtain ⟨a, _, ha⟩ := hsurj c hc
    have hstand : good (orFirst good l a) = true := good_orFirst hgood
    rw [ha, hbad] at hstand
    cases hstand
  · intro h b hb
    exact ⟨b, hb, orFirst_of_allOrNone h hb⟩

end Fallback

end Foundation
