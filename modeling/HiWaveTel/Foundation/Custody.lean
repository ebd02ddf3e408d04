import Mathlib.Data.Finset.Basic
import Mathlib.Data.List.Perm.Basic

/- Keys in custody. A set of reserved keys guards a population of items that are passed
   from hand to hand: each item has a key, a key is reserved before its item comes into
   being and released after it is gone. While that discipline is kept, each reserved key
   is held exactly once, wherever the item is at the moment. -/
namespace Foundation

/-- Each reserved key is held once, and no other key is held. -/
structure Custody {α : Type} [DecidableEq α] (held : List α) (reserved : Finset α) : Prop where
  nodup : held.Nodup
  mem_iff : ∀ a, a ∈ reserved ↔ a ∈ held

namespace Custody
variable {α : Type} [DecidableEq α] {held held' : List α} {reserved : Finset α} {a : α}

theorem empty : Custody ([] : List α) ∅ := ⟨List.nodup_nil, by simp⟩

theorem count [BEq α] [LawfulBEq α] (h : Custody held reserved) (a : α) :
    held.count a = if a ∈ reserved then 1 else 0 := by
  rw [h.nodup.count]
  simp only [h.mem_iff]

/-- An item changes hands. -/
theorem perm (h : Custody held reserved) (hp : held.Perm held') : Custody held' reserved :=
  ⟨hp.nodup_iff.mp h.nodup, fun a => (h.mem_iff a).trans hp.mem_iff⟩

/-- A free key is reserved for a new item. -/
theorem reserve (h : Custody held reserved) (ha : a ∉ reserved) :
    Custody (a :: held) (insert a reserved) := by
  refine ⟨List.nodup_cons.mpr ⟨?_, h.nodup⟩, ?_⟩
  · rw [← h.mem_iff]
    exact ha
  · intro b
    rw [Finset.mem_insert, List.mem_cons, h.mem_iff]

/-- An item is gone, and its key is released. -/
theorem release (h : Custody (a :: held) reserved) : Custody held (reserved.erase a) := by
  obtain ⟨hnot, hnodup⟩ := List.nodup_cons.mp h.nodup
  refine ⟨hnodup, ?_⟩
  intro b
  rw [Finset.mem_erase, h.mem_iff, List.mem_cons]
  constructor
  · exact fun hb => hb.2.resolve_left hb.1
  · intro hb
    refine ⟨?_, Or.inr hb⟩
    intro heq
    exact hnot (heq ▸ hb)

end Custody

/-! ## Items in a list -/

section Items
variable {α : Type}

theorem perm_set {l : List α} {i : Nat} {x : α} (hx : l[i]? = some x) (y : α) :
    (l.set i y).Perm (y :: l.eraseIdx i) := by
  obtain ⟨hi, _⟩ := List.getElem?_eq_some_iff.mp hx
  exact List.set_perm_cons_eraseIdx hi y

theorem perm_eraseIdx {l : List α} {i : Nat} {x : α} (hx : l[i]? = some x) :
    l.Perm (x :: l.eraseIdx i) := by
  obtain ⟨hi, rfl⟩ := List.getElem?_eq_some_iff.mp hx
  exact (List.getElem_cons_eraseIdx_perm hi).symm

end Items

end Foundation
