import HiWaveTel.Foundation.Table

/- Objects that are saved as they are. An object with a primary key is written back as a whole
   row: by an UPDATE of all columns where the row is still there, and otherwise by an INSERT
   under the old key. `Fits` is what the UNIQUE constraints ask of it. -/
namespace Foundation

namespace Table
variable {ρ : Type} [Row ρ]

/-- No row of another key forbids `r`. -/
def Fits (t : Table ρ) (r : ρ) : Prop := ∀ s ∈ t.rows, Row.pk s ≠ Row.pk r → ¬ Row.Clash s r

instance (t : Table ρ) (r : ρ) [∀ s, Decidable (Row.Clash s r)] : Decidable (t.Fits r) :=
  List.decidableBAll (fun s => Row.pk s ≠ Row.pk r → ¬ Row.Clash s r) t.rows

/-- `UPDATE` of all columns: nothing where the key is gone. -/
def replace (t : Table ρ) (r : ρ) (h : t.Fits r) : Table ρ where
  rows := t.rows.map (fun s => if Row.pk s = Row.pk r then r else s)
  nextPk := t.nextPk
  pk_lt := by
    intro s hs
    obtain ⟨q, hq, rfl⟩ := List.mem_map.mp hs
    split
    · next hpk => exact hpk ▸ t.pk_lt q hq
    · exact t.pk_lt q hq
  pk_ne := by
    rw [List.pairwise_map]
    apply t.pk_ne.imp
    intro a b hab
    split <;> split <;> simp_all
  unique := by
    rw [List.pairwise_map]
    refine (t.pk_ne.and t.unique).imp_of_mem ?_
    intro a b ha hb hab
    split
    · next hpa =>
      have hpb : Row.pk b ≠ Row.pk r := fun hpb => hab.1 (hpa.trans hpb.symm)
      rw [if_neg hpb]
      exact fun hclash => h b hb hpb (Row.clash_symm r b hclash)
    · next hpa =>
      split
      · exact h a ha hpa
      · exact hab.2

/-- `INSERT` under a key that the table had before. -/
def reinsert (t : Table ρ) (r : ρ) (h : t.Fits r) (hfree : ∀ s ∈ t.rows, Row.pk s ≠ Row.pk r) :
    Table ρ where
  rows := t.rows ++ [r]
  nextPk := max t.nextPk (Row.pk r + 1)
  pk_lt := by
    intro s hs
    cases List.mem_append.mp hs with
    | inl hs => exact Nat.lt_of_lt_of_le (t.pk_lt s hs) (Nat.le_max_left _ _)
    | inr hs =>
      rw [List.mem_singleton.mp hs]
      exact Nat.le_max_right _ _
  pk_ne := by
    rw [List.pairwise_append]
    refine ⟨t.pk_ne, List.pairwise_singleton _ _, ?_⟩
    intro a ha b hb
    rw [List.mem_singleton.mp hb]
    exact hfree a ha
  unique := by
    rw [List.pairwise_append]
    refine ⟨t.unique, List.pairwise_singleton _ _, ?_⟩
    intro a ha b hb
    rw [List.mem_singleton.mp hb]
    exact h a ha (hfree a ha)

theorem mem_replace {t : Table ρ} {r : ρ} {h : t.Fits r} {s : ρ} :
    s ∈ (t.replace r h).rows ↔
      (s = r ∧ ∃ q ∈ t.rows, Row.pk q = Row.pk r) ∨ (s ∈ t.rows ∧ Row.pk s ≠ Row.pk r) := by
  simp only [replace, List.mem_map]
  constructor
  · intro hs
    obtain ⟨q, hq, rfl⟩ := hs
    by_cases hpk : Row.pk q = Row.pk r
    · rw [if_pos hpk]
      exact Or.inl ⟨rfl, q, hq, hpk⟩
    · rw [if_neg hpk]
      exact Or.inr ⟨hq, hpk⟩
  · intro hs
    cases hs with
    | inl hs =>
      obtain ⟨rfl, q, hq, hpk⟩ := hs
      exact ⟨q, hq, if_pos hpk⟩
    | inr hs => exact ⟨s, hs.1, if_neg hs.2⟩

/-- The table as a reader of some columns sees it. -/
def view {ρ' : Type} [Row ρ'] (t : Table ρ) (f : ρ → ρ') (hpk : ∀ r, Row.pk (f r) = Row.pk r)
    (hclash : ∀ r s, Row.Clash (f r) (f s) → Row.Clash r s) : Table ρ' where
  rows := t.rows.map f
  nextPk := t.nextPk
  pk_lt := by
    intro s hs
    obtain ⟨r, hr, rfl⟩ := List.mem_map.mp hs
    rw [hpk]
    exact t.pk_lt r hr
  pk_ne := by
    rw [List.pairwise_map]
    apply t.pk_ne.imp
    intro a b hab
    rwa [hpk, hpk]
  unique := by
    rw [List.pairwise_map]
    apply t.unique.imp
    intro a b hab hclash'
    exact hab (hclash a b hclash')

end Table

end Foundation
