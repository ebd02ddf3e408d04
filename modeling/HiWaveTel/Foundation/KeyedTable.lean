import Mathlib.Data.List.Nodup
import Mathlib.Tactic.Common

/- Tables with a key that the program chooses. No two rows have one key, so a table is known by
   the row it has under each key, and the lemmas say what every statement does to that lookup:
   an UPDATE of some rows, an upsert of one, and a loop of upserts. -/
namespace Foundation

section KeyedTable
variable {ρ κ : Type} [DecidableEq κ]

structure KeyedTable (key : ρ → κ) where
  rows : List ρ
  distinct : (rows.map key).Nodup

/-- The SET clause of an UPDATE, which leaves the key alone. -/
structure KeyedUpdate (key : ρ → κ) where
  set : ρ → ρ
  key_set : ∀ r, key (set r) = key r

/-- The row of a key that is new. -/
structure KeyedRow (key : ρ → κ) (k : κ) where
  row : ρ
  key_row : key row = k

namespace KeyedTable
variable {key : ρ → κ}

/-- `SELECT ... WHERE key = k`. -/
def get? (t : KeyedTable key) (k : κ) : Option ρ := t.rows.find? (fun r => decide (key r = k))

/-- `UPDATE ... WHERE q`. -/
def updateWhere (t : KeyedTable key) (q : ρ → Bool) (u : KeyedUpdate key) : KeyedTable key where
  rows := t.rows.map (fun r => if q r then u.set r else r)
  distinct := by
    have hkeys : (t.rows.map (fun r => if q r then u.set r else r)).map key = t.rows.map key := by
      rw [List.map_map]
      apply List.map_congr_left
      intro r _
      simp only [Function.comp_apply]
      split
      · exact u.key_set r
      · rfl
    rw [hkeys]
    exact t.distinct

/-- `INSERT` of a row whose key no row has. -/
def insert (t : KeyedTable key) {k : κ} (new : KeyedRow key k) (h : t.get? k = none) :
    KeyedTable key where
  rows := t.rows ++ [new.row]
  distinct := by
    rw [List.map_append, List.nodup_append]
    refine ⟨t.distinct, by simp, ?_⟩
    intro a ha b hb heq
    obtain ⟨r, hr, rfl⟩ := List.mem_map.mp ha
    have hnone := List.find?_eq_none.mp h r hr
    rw [List.map_singleton, List.mem_singleton, new.key_row] at hb
    exact hnone (decide_eq_true (heq.trans hb))

/-- `get_or_create`, and an UPDATE of the row that was there. -/
def upsert (t : KeyedTable key) (k : κ) (u : KeyedUpdate key) (new : KeyedRow key k) :
    KeyedTable key :=
  match h : t.get? k with
  | some _ => t.updateWhere (fun r => decide (key r = k)) u
  | none => t.insert new h

theorem get?_eq_some {t : KeyedTable key} {k : κ} {r : ρ} :
    t.get? k = some r ↔ r ∈ t.rows ∧ key r = k := by
  constructor
  · intro h
    exact ⟨List.mem_of_find?_eq_some h, by simpa using List.find?_some h⟩
  · rintro ⟨hr, rfl⟩
    obtain ⟨s, hs⟩ := Option.isSome_iff_exists.mp
      (List.find?_isSome.mpr ⟨r, hr, by simp⟩ : (t.get? (key r)).isSome)
    have hkey : key s = key r := by simpa using List.find?_some hs
    rw [get?, hs, List.inj_on_of_nodup_map t.distinct (List.mem_of_find?_eq_some hs) hr hkey]

theorem get?_of_mem {t : KeyedTable key} {r : ρ} (h : r ∈ t.rows) : t.get? (key r) = some r :=
  get?_eq_some.mpr ⟨h, rfl⟩

theorem get?_updateWhere (t : KeyedTable key) (q : ρ → Bool) (u : KeyedUpdate key) (k : κ) :
    (t.updateWhere q u).get? k = (t.get? k).map (fun r => if q r then u.set r else r) := by
  have hsame : (fun r => decide (key r = k)) ∘ (fun r => if q r then u.set r else r) =
      fun r => decide (key r = k) := by
    funext r
    simp only [Function.comp_apply]
    split
    · rw [u.key_set]
    · rfl
  rw [get?, updateWhere, List.find?_map, hsame]
  rfl

theorem get?_insert (t : KeyedTable key) {k : κ} (new : KeyedRow key k) (h : t.get? k = none)
    (k' : κ) : (t.insert new h).get? k' = if k' = k then some new.row else t.get? k' := by
  have happend : (t.insert new h).get? k' =
      (t.get? k').or (if key new.row = k' then some new.row else none) := by
    rw [get?, insert, List.find?_append, List.find?_singleton]
    simp [get?]
  rw [happend, new.key_row]
  by_cases hk : k' = k
  · rw [hk, h, if_pos rfl]
    rfl
  · rw [if_neg hk, if_neg (fun heq => hk heq.symm), Option.or_none]

/-- The two ways of an upsert. -/
theorem upsert_of_some {t : KeyedTable key} {k : κ} {r : ρ} (h : t.get? k = some r)
    (u : KeyedUpdate key) (new : KeyedRow key k) :
    t.upsert k u new = t.updateWhere (fun r => decide (key r = k)) u := by
  unfold upsert
  split
  · rfl
  · next hnone =>
    rw [h] at hnone
    cases hnone

theorem upsert_of_none {t : KeyedTable key} {k : κ} (h : t.get? k = none) (u : KeyedUpdate key)
    (new : KeyedRow key k) : t.upsert k u new = t.insert new h := by
  unfold upsert
  split
  · next r hr =>
    rw [h] at hr
    cases hr
  · rfl

theorem get?_upsert (t : KeyedTable key) (k : κ) (u : KeyedUpdate key) (new : KeyedRow key k)
    (k' : κ) :
    (t.upsert k u new).get? k' =
      if k' = k then some ((t.get? k).elim new.row u.set) else t.get? k' := by
  unfold upsert
  split
  · next r hr =>
    rw [get?_updateWhere]
    by_cases hk : k' = k
    · subst hk
      have hkey := (get?_eq_some.mp hr).2
      rw [if_pos rfl, hr, Option.map_some, if_pos (decide_eq_true hkey)]
      rfl
    · rw [if_neg hk]
      cases hget : t.get? k' with
      | none => rfl
      | some s =>
        have hne : key s ≠ k := fun heq => hk ((get?_eq_some.mp hget).2.symm.trans heq)
        rw [Option.map_some, if_neg (by simpa using hne)]
  · next hnone =>
    have happend : (t.insert new hnone).get? k' =
        (t.get? k').or (if key new.row = k' then some new.row else none) := by
      rw [get?, insert, List.find?_append, List.find?_singleton]
      simp [get?]
    rw [happend, new.key_row]
    by_cases hk : k' = k
    · subst hk
      rw [hnone, if_pos rfl, if_pos rfl]
      rfl
    · rw [if_neg hk, if_neg (fun heq => hk heq.symm), Option.or_none]

/-- A loop of upserts. -/
def upsertAll (u : κ → KeyedUpdate key) (new : ∀ k, KeyedRow key k) (t : KeyedTable key)
    (ks : List κ) : KeyedTable key :=
  ks.foldl (fun t k => t.upsert k (u k) (new k)) t

theorem get?_upsertAll {u : κ → KeyedUpdate key} {new : ∀ k, KeyedRow key k}
    (t : KeyedTable key) {ks : List κ} (hks : ks.Nodup) (k : κ) :
    (t.upsertAll u new ks).get? k =
      if k ∈ ks then some ((t.get? k).elim (new k).row (u k).set) else t.get? k := by
  induction ks generalizing t with
  | nil => rfl
  | cons k₁ ks ih =>
    obtain ⟨hnot, hks⟩ := List.nodup_cons.mp hks
    have hstep : t.upsertAll u new (k₁ :: ks) = (t.upsert k₁ (u k₁) (new k₁)).upsertAll u new ks :=
      rfl
    rw [hstep, ih _ hks, get?_upsert]
    by_cases hk : k = k₁
    · subst hk
      rw [if_neg hnot, if_pos rfl, if_pos List.mem_cons_self]
    · rw [if_neg hk]
      simp only [List.mem_cons, hk, false_or]

end KeyedTable

end KeyedTable

end Foundation
