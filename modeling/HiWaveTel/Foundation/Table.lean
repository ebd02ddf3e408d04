import Mathlib.Data.List.Pairwise
import Mathlib.Data.List.Nodup
import Mathlib.Tactic.Common

/- Relational tables. A table has an AUTOINCREMENT primary key, which is never
   used twice, and UNIQUE constraints, given by the pairs of rows they forbid.
   Both are fields of the table, so that every statement below keeps them: an
   UPDATE is a `RowUpdate`, which cannot touch the key or a unique column, and a
   get_or_create is a `NewRow`, whose lookup finds every row it could clash with. -/
namespace Foundation

/-- A record type stored in a table: its primary key, and the pairs of rows a
    UNIQUE constraint forbids. -/
class Row (ρ : Type) where
  pk : ρ → Nat
  Clash : ρ → ρ → Prop
  clash_symm : ∀ a b, Clash a b → Clash b a

structure Table (ρ : Type) [Row ρ] where
  rows : List ρ
  nextPk : Nat
  pk_lt : ∀ r ∈ rows, Row.pk r < nextPk
  pk_ne : rows.Pairwise (fun a b => Row.pk a ≠ Row.pk b)
  unique : rows.Pairwise (fun a b => ¬ Row.Clash a b)

/-- The SET clause of an UPDATE. -/
structure RowUpdate (ρ : Type) [Row ρ] where
  set : ρ → ρ
  pk_set : ∀ r, Row.pk (set r) = Row.pk r
  clash_left : ∀ r s, Row.Clash (set r) s ↔ Row.Clash r s
  clash_right : ∀ r s, Row.Clash r (set s) ↔ Row.Clash r s

/-- The lookup and the defaults of a get_or_create. -/
structure NewRow (ρ : Type) [Row ρ] where
  sought : ρ → Bool
  make : Nat → ρ
  pk_make : ∀ n, Row.pk (make n) = n
  sought_make : ∀ n, sought (make n) = true
  clash_sought : ∀ r n, Row.Clash r (make n) → sought r = true

/-- One SET clause after the other. -/
def RowUpdate.comp {ρ : Type} [Row ρ] (u v : RowUpdate ρ) : RowUpdate ρ where
  set r := v.set (u.set r)
  pk_set r := (v.pk_set _).trans (u.pk_set r)
  clash_left r s := (v.clash_left _ s).trans (u.clash_left r s)
  clash_right r s := (v.clash_right r _).trans (u.clash_right r s)

namespace Table
variable {ρ : Type} [Row ρ]

theorem ext {t t' : Table ρ} (hrows : t.rows = t'.rows) (hpk : t.nextPk = t'.nextPk) : t = t' := by
  cases t
  cases t'
  cases hrows
  cases hpk
  rfl

def empty : Table ρ := ⟨[], 1, by simp, List.Pairwise.nil, List.Pairwise.nil⟩

instance : Inhabited (Table ρ) := ⟨empty⟩

/-- `SELECT ... WHERE pk = p`. -/
def get? (t : Table ρ) (p : Nat) : Option ρ := t.rows.find? (fun r => Row.pk r == p)

/-- `UPDATE ... WHERE q`. -/
def updateWhere (t : Table ρ) (q : ρ → Bool) (u : RowUpdate ρ) : Table ρ where
  rows := t.rows.map (fun r => if q r then u.set r else r)
  nextPk := t.nextPk
  pk_lt := by
    intro r hr
    obtain ⟨s, hs, rfl⟩ := List.mem_map.mp hr
    split
    · rw [u.pk_set]; exact t.pk_lt s hs
    · exact t.pk_lt s hs
  pk_ne := by
    rw [List.pairwise_map]
    refine t.pk_ne.imp ?_
    intro a b hab
    split <;> split <;> simpa only [u.pk_set] using hab
  unique := by
    rw [List.pairwise_map]
    refine t.unique.imp ?_
    intro a b hab
    split <;> split <;> simpa only [u.clash_left, u.clash_right] using hab

/-- `UPDATE ... WHERE pk = p`: what a `save(update_fields=...)` sends. -/
def update (t : Table ρ) (p : Nat) (u : RowUpdate ρ) : Table ρ :=
  t.updateWhere (fun r => Row.pk r == p) u

/-- `DELETE ... WHERE q`. -/
def deleteWhere (t : Table ρ) (q : ρ → Bool) : Table ρ where
  rows := t.rows.filter (fun r => !q r)
  nextPk := t.nextPk
  pk_lt := fun r hr => t.pk_lt r (List.mem_filter.mp hr).1
  pk_ne := t.pk_ne.filter _
  unique := t.unique.filter _

/-- `INSERT` of a row that no unique constraint forbids. -/
def insert (t : Table ρ) (n : NewRow ρ) (h : ∀ r ∈ t.rows, n.sought r = false) : Table ρ where
  rows := t.rows ++ [n.make t.nextPk]
  nextPk := t.nextPk + 1
  pk_lt := by
    intro r hr
    rcases List.mem_append.mp hr with hr | hr
    · exact Nat.lt_succ_of_lt (t.pk_lt r hr)
    · rw [List.mem_singleton.mp hr, n.pk_make]; exact Nat.lt_succ_self _
  pk_ne := by
    rw [List.pairwise_append]
    refine ⟨t.pk_ne, List.pairwise_singleton _ _, ?_⟩
    intro a ha b hb
    rw [List.mem_singleton.mp hb, n.pk_make]
    exact Nat.ne_of_lt (t.pk_lt a ha)
  unique := by
    rw [List.pairwise_append]
    refine ⟨t.unique, List.pairwise_singleton _ _, ?_⟩
    intro a ha b hb
    rw [List.mem_singleton.mp hb]
    intro hclash
    have hs := n.clash_sought a _ hclash
    rw [h a ha] at hs
    exact Bool.noConfusion hs

/-- `INSERT` of a row that clashes with no other. -/
def create (t : Table ρ) (make : Nat → ρ) (hpk : ∀ n, Row.pk (make n) = n)
    (h : ∀ r ∈ t.rows, ¬ Row.Clash r (make t.nextPk)) : Table ρ where
  rows := t.rows ++ [make t.nextPk]
  nextPk := t.nextPk + 1
  pk_lt := by
    intro r hr
    rcases List.mem_append.mp hr with hr | hr
    · exact Nat.lt_succ_of_lt (t.pk_lt r hr)
    · rw [List.mem_singleton.mp hr, hpk]; exact Nat.lt_succ_self _
  pk_ne := by
    rw [List.pairwise_append]
    refine ⟨t.pk_ne, List.pairwise_singleton _ _, ?_⟩
    intro a ha b hb
    rw [List.mem_singleton.mp hb, hpk]
    exact Nat.ne_of_lt (t.pk_lt a ha)
  unique := by
    rw [List.pairwise_append]
    refine ⟨t.unique, List.pairwise_singleton _ _, ?_⟩
    intro a ha b hb
    rw [List.mem_singleton.mp hb]
    exact h a ha

/-- `get_or_create`: the table afterwards, the row, and whether it was created. -/
def getOrCreate (t : Table ρ) (n : NewRow ρ) : Table ρ × ρ × Bool :=
  match h : t.rows.find? n.sought with
  | some r => (t, r, false)
  | none =>
    (t.insert n (by simpa using h), n.make t.nextPk, true)

/-! ## Keys -/

theorem pk_injOn (t : Table ρ) {a b : ρ} (ha : a ∈ t.rows) (hb : b ∈ t.rows)
    (h : Row.pk a = Row.pk b) : a = b := by
  have hnd : (t.rows.map Row.pk).Nodup := List.pairwise_map.mpr t.pk_ne
  exact List.inj_on_of_nodup_map hnd ha hb h

/-- Two rows that a UNIQUE constraint forbids side by side are one row. -/
theorem eq_of_clash (t : Table ρ) {a b : ρ} (ha : a ∈ t.rows) (hb : b ∈ t.rows)
    (h : Row.Clash a b) : a = b := by
  by_contra hne
  have hsymm : Std.Symm (fun x y : ρ => ¬ Row.Clash x y) :=
    ⟨fun x y hxy hyx => hxy (Row.clash_symm y x hyx)⟩
  exact t.unique.forall ha hb hne h

theorem get?_eq_some {t : Table ρ} {p : Nat} {r : ρ} :
    t.get? p = some r ↔ r ∈ t.rows ∧ Row.pk r = p := by
  constructor
  · intro h
    exact ⟨List.mem_of_find?_eq_some h, by simpa using List.find?_some h⟩
  · rintro ⟨hr, rfl⟩
    obtain ⟨s, hs⟩ : ∃ s, t.get? (Row.pk r) = some s := by
      rw [← Option.isSome_iff_exists, get?, List.find?_isSome]
      exact ⟨r, hr, by simp⟩
    have hsr : s = r := by
      refine t.pk_injOn (List.mem_of_find?_eq_some hs) hr ?_
      simpa using List.find?_some hs
    rw [hs, hsr]

/-! ## UPDATE -/

theorem mem_updateWhere {t : Table ρ} {q : ρ → Bool} {u : RowUpdate ρ} {r : ρ} :
    r ∈ (t.updateWhere q u).rows ↔ ∃ s ∈ t.rows, r = if q s then u.set s else s := by
  simp only [updateWhere, List.mem_map, eq_comm]

theorem mem_update {t : Table ρ} {p : Nat} {u : RowUpdate ρ} {r : ρ} :
    r ∈ (t.update p u).rows ↔
      (∃ s ∈ t.rows, Row.pk s = p ∧ r = u.set s) ∨ (r ∈ t.rows ∧ Row.pk r ≠ p) := by
  simp only [update, mem_updateWhere, beq_iff_eq]
  constructor
  · rintro ⟨s, hs, rfl⟩
    by_cases h : Row.pk s = p
    · exact Or.inl ⟨s, hs, h, by rw [if_pos h]⟩
    · rw [if_neg h]; exact Or.inr ⟨hs, h⟩
  · rintro (⟨s, hs, hp, rfl⟩ | ⟨hr, hp⟩)
    · exact ⟨s, hs, by rw [if_pos hp]⟩
    · exact ⟨r, hr, by rw [if_neg hp]⟩

/-- What becomes of a row in an UPDATE. -/
theorem mem_update_of_mem {t : Table ρ} {r : ρ} (hr : r ∈ t.rows) (p : Nat) (u : RowUpdate ρ) :
    (if Row.pk r == p then u.set r else r) ∈ (t.update p u).rows :=
  mem_updateWhere.mpr ⟨r, hr, rfl⟩

/-- The row of an UPDATE by key, and the others. -/
theorem mem_update_self {t : Table ρ} {a : ρ} (ha : a ∈ t.rows) {u : RowUpdate ρ} {r : ρ} :
    r ∈ (t.update (Row.pk a) u).rows ↔ r = u.set a ∨ (r ∈ t.rows ∧ Row.pk r ≠ Row.pk a) := by
  rw [mem_update]
  refine or_congr_left ⟨?_, fun h => ⟨a, ha, rfl, h⟩⟩
  intro h
  obtain ⟨s, hs, hpk, rfl⟩ := h
  rw [t.pk_injOn hs ha hpk]

/-- Two UPDATEs of one row are one. -/
theorem update_update (t : Table ρ) (p : Nat) (u v : RowUpdate ρ) :
    (t.update p u).update p v = t.update p (u.comp v) := by
  have hrows : ((t.update p u).update p v).rows = (t.update p (u.comp v)).rows := by
    simp only [update, updateWhere, List.map_map]
    apply List.map_congr_left
    intro r _
    by_cases hp : Row.pk r = p
    · simp [hp, u.pk_set, RowUpdate.comp]
    · simp [hp]
  exact ext hrows rfl

/-- A property an UPDATE does not touch is there afterwards if it was before. -/
theorem exists_mem_update {t : Table ρ} {p : Nat} {u : RowUpdate ρ} {P : ρ → Prop}
    (hP : ∀ r, P (u.set r) ↔ P r) : (∃ r ∈ (t.update p u).rows, P r) ↔ ∃ r ∈ t.rows, P r := by
  simp only [mem_update]
  constructor
  · intro h
    obtain ⟨r, ⟨s, hs, _, rfl⟩ | ⟨hr, _⟩, h⟩ := h
    · exact ⟨s, hs, (hP s).mp h⟩
    · exact ⟨r, hr, h⟩
  · intro h
    obtain ⟨r, hr, h⟩ := h
    by_cases hp : Row.pk r = p
    · exact ⟨u.set r, Or.inl ⟨r, hr, hp, rfl⟩, (hP r).mpr h⟩
    · exact ⟨r, Or.inr ⟨hr, hp⟩, h⟩

/-- A selection that the SET clause cannot change, before and after an UPDATE. -/
theorem filter_update (t : Table ρ) (p : Nat) (u : RowUpdate ρ) {q : ρ → Bool}
    (hq : ∀ r, q (u.set r) = q r) :
    (t.update p u).rows.filter q =
      (t.rows.filter q).map (fun r => if Row.pk r == p then u.set r else r) := by
  show (t.rows.map _).filter q = _
  rw [List.filter_map]
  congr 1
  apply List.filter_congr
  intro r _
  simp only [Function.comp]
  split
  · exact hq r
  · rfl

/-- An UPDATE of rows outside a selection leaves the selection alone. -/
theorem filter_update_of_not (t : Table ρ) (p : Nat) (u : RowUpdate ρ) {q : ρ → Bool}
    (hq : ∀ r, q (u.set r) = q r) (hp : ∀ r ∈ t.rows, Row.pk r = p → q r = false) :
    (t.update p u).rows.filter q = t.rows.filter q := by
  have hid : ∀ r ∈ t.rows.filter q, (if Row.pk r == p then u.set r else r) = r := by
    intro r hr
    obtain ⟨hr, hqr⟩ := List.mem_filter.mp hr
    have hne : Row.pk r ≠ p := by
      intro hpk
      rw [hp r hr hpk] at hqr
      exact Bool.noConfusion hqr
    rw [if_neg (by simpa using hne)]
  rw [filter_update t p u hq, List.map_congr_left hid, List.map_id']

/-- A selection of rows that forbid each other has one row at most. -/
theorem filter_eq_singleton {t : Table ρ} {q : ρ → Bool} {r : ρ} (hr : r ∈ t.rows)
    (hqr : q r = true) (hq : ∀ a b, q a = true → q b = true → Row.Clash a b) :
    t.rows.filter q = [r] := by
  have hmem : r ∈ t.rows.filter q := List.mem_filter.mpr ⟨hr, hqr⟩
  have hpw := t.unique.filter q
  match hf : t.rows.filter q with
  | [] => rw [hf] at hmem; cases hmem
  | [a] => rw [hf] at hmem; rw [List.mem_singleton.mp hmem]
  | a :: b :: rest =>
    rw [hf] at hpw
    have ha : a ∈ t.rows.filter q := by rw [hf]; simp
    have hb : b ∈ t.rows.filter q := by rw [hf]; simp
    have hclash := hq a b (List.mem_filter.mp ha).2 (List.mem_filter.mp hb).2
    exact absurd hclash ((List.pairwise_cons.mp hpw).1 b (by simp))

/-! ## DELETE -/

theorem mem_deleteWhere {t : Table ρ} {q : ρ → Bool} {r : ρ} :
    r ∈ (t.deleteWhere q).rows ↔ r ∈ t.rows ∧ q r = false := by
  simp [deleteWhere]

/-! ## get_or_create -/

/-- The two outcomes of a get_or_create, with all it changes. -/
theorem getOrCreate_cases (t : Table ρ) (n : NewRow ρ) :
    (∃ r, t.rows.find? n.sought = some r ∧ t.getOrCreate n = (t, r, false)) ∨
    (∃ h : ∀ r ∈ t.rows, n.sought r = false,
      t.getOrCreate n = (t.insert n h, n.make t.nextPk, true)) := by
  unfold getOrCreate
  split
  · next r hr => exact Or.inl ⟨r, hr, rfl⟩
  · next hn => exact Or.inr ⟨by simpa using hn, rfl⟩

@[simp] theorem insert_rows (t : Table ρ) (n : NewRow ρ) (h) :
    (t.insert n h).rows = t.rows ++ [n.make t.nextPk] := rfl

/-- A get_or_create removes and changes no row. -/
theorem mem_getOrCreate_of_mem {t : Table ρ} {n : NewRow ρ} {r : ρ} (hr : r ∈ t.rows) :
    r ∈ (t.getOrCreate n).1.rows := by
  rcases t.getOrCreate_cases n with ⟨s, _, he⟩ | ⟨h, he⟩
  · rw [he]; exact hr
  · rw [he]; exact List.mem_append_left _ hr

end Table

end Foundation
