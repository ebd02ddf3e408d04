import Mathlib.Data.List.Induction
import Mathlib.Data.List.Nodup
import Mathlib.Data.Option.Basic
import Mathlib.Tactic.Common

/- Dictionaries as association lists, in insertion order. A key is looked up at its
   first pair; `set` replaces the value in place and `setDefault` keeps the first one,
   so that a loop of `setDefault` over pairs is looked up in the pairs themselves. -/
namespace Foundation

namespace Dict

section Dict
variable {κ β : Type*} [BEq κ] [LawfulBEq κ]

/-- `d.get(k)`. -/
def get (d : List (κ × β)) (k : κ) : Option β := (d.find? (fun kv => kv.1 == k)).map Prod.snd

/-- `d.setdefault(k, v)`. -/
def setDefault (d : List (κ × β)) (k : κ) (v : β) : List (κ × β) :=
  if (get d k).isSome then d else d ++ [(k, v)]

/-- `d[k] = v`. -/
def set (d : List (κ × β)) (k : κ) (v : β) : List (κ × β) :=
  if (get d k).isSome then d.map (fun kv => if kv.1 == k then (k, v) else kv) else d ++ [(k, v)]

/-- `dict(items)`. -/
def ofItems (items : List (κ × β)) : List (κ × β) :=
  items.foldl (fun d kv => set d kv.1 kv.2) []

omit [LawfulBEq κ] in
@[simp] theorem get_nil (k : κ) : get ([] : List (κ × β)) k = none := rfl

omit [LawfulBEq κ] in
theorem get_cons (kv : κ × β) (d : List (κ × β)) (k : κ) :
    get (kv :: d) k = if kv.1 == k then some kv.2 else get d k := by
  unfold get
  rw [List.find?_cons]
  cases kv.1 == k <;> rfl

omit [LawfulBEq κ] in
theorem get_append (d e : List (κ × β)) (k : κ) : get (d ++ e) k = (get d k).or (get e k) := by
  induction d with
  | nil => rfl
  | cons kv d ih =>
    rw [List.cons_append, get_cons, get_cons, ih]
    split <;> rfl

/-- What is looked up is in the dictionary. -/
theorem mem_of_get {d : List (κ × β)} {k : κ} {v : β} (h : get d k = some v) : (k, v) ∈ d := by
  induction d with
  | nil => cases h
  | cons kv d ih =>
    rw [get_cons] at h
    split at h
    · next hk =>
      cases h
      rw [← eq_of_beq hk]
      exact List.mem_cons_self
    · exact List.mem_cons_of_mem _ (ih h)

theorem get_eq_none {d : List (κ × β)} {k : κ} : get d k = none ↔ ∀ kv ∈ d, kv.1 ≠ k := by
  simp [get]

theorem get_setDefault (d : List (κ × β)) (k : κ) (v : β) (k' : κ) :
    get (setDefault d k v) k' = (get d k').or (get [(k, v)] k') := by
  unfold setDefault
  split
  · next hin =>
    rw [get_cons]
    split
    · next hk =>
      obtain ⟨w, hw⟩ := Option.isSome_iff_exists.mp hin
      rw [← eq_of_beq (show (k == k') = true from hk), hw]
      rfl
    · rw [get_nil, Option.or_none]
  · exact get_append d _ k'

/-- A loop of `setdefault` keeps the first value of each key. -/
theorem get_foldl_setDefault (items d : List (κ × β)) (k : κ) :
    get (items.foldl (fun d kv => setDefault d kv.1 kv.2) d) k = (get d k).or (get items k) := by
  induction items generalizing d with
  | nil => rw [List.foldl_nil, get_nil, Option.or_none]
  | cons kv items ih =>
    rw [List.foldl_cons, ih, get_setDefault, Option.or_assoc, ← get_append]
    rfl

theorem get_map_replace (d : List (κ × β)) (k : κ) (v : β) (k' : κ) :
    get (d.map (fun kv => if kv.1 == k then (k, v) else kv)) k' =
      if k == k' then (get d k).map (fun _ => v) else get d k' := by
  induction d with
  | nil => simp
  | cons kv d ih =>
    rw [List.map_cons]
    by_cases hkv : kv.1 = k
    · subst hkv
      rw [if_pos (beq_self_eq_true kv.1), get_cons, get_cons, get_cons, ih]
      by_cases hk : kv.1 = k'
      · simp [hk]
      · simp [hk]
    · rw [if_neg (by simpa using hkv), get_cons, get_cons, get_cons, ih]
      by_cases hk : k = k'
      · subst hk
        simp [hkv]
      · simp [hk]

theorem get_set (d : List (κ × β)) (k : κ) (v : β) (k' : κ) :
    get (set d k v) k' = if k == k' then some v else get d k' := by
  unfold set
  split
  · next hin =>
    obtain ⟨w, hw⟩ := Option.isSome_iff_exists.mp hin
    rw [get_map_replace, hw]
    rfl
  · next hnot =>
    rw [get_append, get_cons, get_nil]
    split
    · next hk =>
      have hnone : get d k' = none := by
        rw [← eq_of_beq (show (k == k') = true from hk)]
        exact Option.not_isSome_iff_eq_none.mp hnot
      rw [hnone, Option.none_or]
    · rw [Option.or_none]

omit [LawfulBEq κ] in
/-- An assignment brings no key but its own. -/
theorem forall_keys_set {P : κ → Prop} {d : List (κ × β)} {k : κ} (v : β)
    (hd : ∀ kv ∈ d, P kv.1) (hk : P k) : ∀ kv ∈ set d k v, P kv.1 := by
  intro kv hkv
  unfold set at hkv
  split at hkv
  · obtain ⟨old, hold, rfl⟩ := List.mem_map.mp hkv
    split
    · exact hk
    · exact hd old hold
  · rcases List.mem_append.mp hkv with hkv | hkv
    · exact hd kv hkv
    · rw [List.mem_singleton.mp hkv]
      exact hk

omit [LawfulBEq κ] in
theorem forall_keys_ofItems {P : κ → Prop} {items : List (κ × β)} (h : ∀ kv ∈ items, P kv.1) :
    ∀ kv ∈ ofItems items, P kv.1 := by
  unfold ofItems
  induction items using List.reverseRecOn with
  | nil => simp
  | append_singleton items kv ih =>
    have hkeys := ih (fun kv' hkv' => h kv' (List.mem_append_left _ hkv'))
    rw [List.foldl_append]
    exact forall_keys_set kv.2 hkeys (h kv (by simp))

/-- A loop of assignments keeps the last value of each key. -/
theorem get_foldl_set (items d : List (κ × β)) (k : κ) :
    get (items.foldl (fun d kv => set d kv.1 kv.2) d) k = (get items.reverse k).or (get d k) := by
  induction items generalizing d with
  | nil => rfl
  | cons kv items ih =>
    rw [List.foldl_cons, ih, get_set, List.reverse_cons, get_append, get_cons, get_nil,
      Option.or_assoc]
    split <;> rfl

theorem get_ofItems (items : List (κ × β)) (k : κ) :
    get (ofItems items) k = get items.reverse k := by
  rw [ofItems, get_foldl_set, get_nil, Option.or_none]

theorem isSome_get {d : List (κ × β)} {k : κ} : (get d k).isSome ↔ k ∈ d.map Prod.fst := by
  rw [← not_iff_not, Option.not_isSome_iff_eq_none, get_eq_none, List.mem_map]
  push Not
  rfl

theorem mem_keys_ofItems {items : List (κ × β)} {k : κ} :
    k ∈ (ofItems items).map Prod.fst ↔ k ∈ items.map Prod.fst := by
  rw [← isSome_get, get_ofItems, isSome_get, List.map_reverse, List.mem_reverse]

/-- All values of a key are the same one. -/
theorem get_eq_some {d : List (κ × β)} {k : κ} {v : β} (hin : ∃ kv ∈ d, kv.1 = k)
    (hsame : ∀ kv ∈ d, kv.1 = k → kv.2 = v) : get d k = some v := by
  cases hget : get d k with
  | none =>
    obtain ⟨kv, hmem, hk⟩ := hin
    exact absurd hk (get_eq_none.mp hget kv hmem)
  | some w => exact congrArg some (hsame (k, w) (mem_of_get hget) rfl)

/-- A comprehension `{k: f(k) for k in ks}` that leaves some keys out. -/
theorem get_filterMap (ks : List κ) (f : κ → Option β) (k : κ) (h : k ∉ ks → f k = none) :
    get (ks.filterMap (fun k => (f k).map (fun v => (k, v)))) k = f k := by
  induction ks with
  | nil => exact (h List.not_mem_nil).symm
  | cons k₁ ks ih =>
    rw [List.filterMap_cons]
    by_cases hk : k₁ = k
    · subst hk
      cases hf : f k₁ with
      | none => exact (ih (fun _ => hf)).trans hf
      | some v => simp [get_cons]
    · have htail := ih (fun hnot => h (List.not_mem_cons_of_ne_of_not_mem (Ne.symm hk) hnot))
      cases hf : f k₁ with
      | none => exact htail
      | some v => simpa [get_cons, hk] using htail

theorem get_of_mem {d : List (κ × β)} (hnodup : (d.map Prod.fst).Nodup) {kv : κ × β}
    (h : kv ∈ d) : get d kv.1 = some kv.2 := by
  apply get_eq_some ⟨kv, h, rfl⟩
  intro kv' h' hkey
  rw [List.inj_on_of_nodup_map hnodup h' h hkey]

theorem nodup_keys_set {d : List (κ × β)} (hd : (d.map Prod.fst).Nodup) (k : κ) (v : β) :
    ((set d k v).map Prod.fst).Nodup := by
  unfold set
  split
  · rw [List.map_map]
    have hsame : (Prod.fst ∘ fun kv : κ × β => if (kv.1 == k) = true then (k, v) else kv) =
        Prod.fst := by
      funext kv
      by_cases hk : (kv.1 == k) = true
      · simp [eq_of_beq hk]
      · simp [hk]
    rwa [hsame]
  · next hnot =>
    rw [isSome_get] at hnot
    rw [List.map_append, List.nodup_append]
    refine ⟨hd, List.nodup_singleton k, ?_⟩
    intro a ha b hb hab
    have hbk : b = k := List.mem_singleton.mp hb
    rw [hab, hbk] at ha
    exact hnot ha

theorem nodup_keys_ofItems (items : List (κ × β)) : ((ofItems items).map Prod.fst).Nodup := by
  induction items using List.reverseRecOn with
  | nil => exact List.nodup_nil
  | append_singleton items kv ih =>
    have hitems : ofItems (items ++ [kv]) = set (ofItems items) kv.1 kv.2 := by
      rw [ofItems, List.foldl_append]
      rfl
    rw [hitems]
    exact nodup_keys_set ih kv.1 kv.2

/-- No value of a dictionary comes from elsewhere. -/
theorem forall_values_ofItems {P : β → Prop} {items : List (κ × β)} (h : ∀ kv ∈ items, P kv.2) :
    ∀ kv ∈ ofItems items, P kv.2 := by
  intro kv hkv
  have hget := get_of_mem (nodup_keys_ofItems items) hkv
  rw [get_ofItems] at hget
  exact h _ (List.mem_reverse.mp (mem_of_get hget))

/-- Where the keys are distinct the order of the pairs does not matter. -/
theorem get_of_perm {d e : List (κ × β)} (hnodup : (d.map Prod.fst).Nodup) (hperm : d.Perm e)
    (k : κ) : get d k = get e k := by
  have hnodup' : (e.map Prod.fst).Nodup := (hperm.map Prod.fst).nodup_iff.mp hnodup
  by_cases hin : ∃ kv ∈ d, kv.1 = k
  · obtain ⟨kv, hmem, rfl⟩ := hin
    rw [get_of_mem hnodup hmem, get_of_mem hnodup' (hperm.subset hmem)]
  · have hout : ¬ ∃ kv ∈ e, kv.1 = k := fun ⟨kv, hmem, hkey⟩ =>
      hin ⟨kv, hperm.symm.subset hmem, hkey⟩
    rw [get_eq_none.mpr (fun kv hmem hkey => hin ⟨kv, hmem, hkey⟩),
      get_eq_none.mpr (fun kv hmem hkey => hout ⟨kv, hmem, hkey⟩)]

/-- And `dict` keeps all of them. -/
theorem ofItems_of_nodup {items : List (κ × β)} (hnodup : (items.map Prod.fst).Nodup) :
    ofItems items = items := by
  induction items using List.reverseRecOn with
  | nil => rfl
  | append_singleton items kv ih =>
    rw [List.map_append, List.nodup_append] at hnodup
    have hnew : get items kv.1 = none := by
      apply get_eq_none.mpr
      intro old hold heq
      exact hnodup.2.2 old.1 (List.mem_map_of_mem hold) kv.1 (by simp) heq
    have hitems : ofItems (items ++ [kv]) = set (ofItems items) kv.1 kv.2 := by
      rw [ofItems, List.foldl_append]
      rfl
    rw [hitems, ih hnodup.1, set, hnew]
    rfl

end Dict

end Dict

end Foundation
