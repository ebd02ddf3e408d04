import Mathlib.Data.List.Sort
import Mathlib.Data.List.Nodup
import Mathlib.Data.List.Perm.Subperm
import Mathlib.Tactic.Common

/- Retention: a list of entries with a name each, of which the newest by a key are to stay.
   `KeepsNewest` says what a cut to the `n` newest is. Two ways to get there:

     - to drop the oldest `k` in the order of a key without ties, all at once or part
       by part (`keepsNewest_without_oldest`, `oldestFirst_without`);
     - to take a slice behind the newest `n` off, over and over (`trim`), with the ties of
       the key in any order. `keepsNewest_iterate_trim_iff`: this gets there exactly when the
       slices are long enough together. -/
namespace Foundation

/-! ## Taking entries off by name -/

section Without
variable {α ι : Type*} [DecidableEq ι] (name : α → ι)

/-- The list without the entries that have a name from `names`. -/
def without (names : List ι) (l : List α) : List α := l.filter (fun a => !names.contains (name a))

variable {name}

theorem mem_without {names : List ι} {l : List α} {a : α} :
    a ∈ without name names l ↔ a ∈ l ∧ name a ∉ names := by
  simp [without]

theorem without_sublist (names : List ι) (l : List α) : (without name names l).Sublist l :=
  List.filter_sublist

theorem without_without (ms ns : List ι) (l : List α) :
    without name ns (without name ms l) = without name (ms ++ ns) l := by
  rw [without, without, without, List.filter_filter]
  apply List.filter_congr
  intro a _
  rw [List.contains_eq_any_beq, List.contains_eq_any_beq, List.contains_eq_any_beq,
    List.any_append, Bool.not_or, Bool.and_comm]

omit [DecidableEq ι] in
/-- Names tell the entries of a list apart. -/
theorem mem_of_name_mem {l s : List α} (hl : (l.map name).Nodup) (hs : s ⊆ l) {a : α} (ha : a ∈ l) :
    name a ∈ s.map name ↔ a ∈ s := by
  constructor
  · intro h
    obtain ⟨b, hb, hname⟩ := List.mem_map.mp h
    rw [← List.inj_on_of_nodup_map hl (hs hb) ha hname]
    exact hb
  · exact List.mem_map_of_mem

theorem length_without {l s : List α} (hl : (l.map name).Nodup) (hs : s.Subperm l) :
    (without name (s.map name) l).length + s.length = l.length := by
  have hsnodup : s.Nodup := by
    obtain ⟨s', hperm, hsub⟩ := hs
    exact hperm.nodup_iff.mp (hsub.nodup (List.Nodup.of_map _ hl))
  have hgone : (l.filter (fun a => (s.map name).contains (name a))).Perm s := by
    apply (List.perm_ext_iff_of_nodup ((List.Nodup.of_map _ hl).filter _) hsnodup).mpr
    intro a
    rw [List.mem_filter, List.contains_iff_mem]
    constructor
    · intro h
      exact (mem_of_name_mem hl hs.subset h.1).mp h.2
    · intro ha
      exact ⟨hs.subset ha, List.mem_map_of_mem ha⟩
  calc (without name (s.map name) l).length + s.length
      = (l.filter (fun a => (s.map name).contains (name a))).length +
          (l.filter (fun a => !(s.map name).contains (name a))).length := by
        rw [hgone.length_eq, Nat.add_comm]
        rfl
    _ = l.length := (List.length_eq_length_filter_add _).symm

end Without

/-! ## The newest entries -/

section Newest
variable {α κ : Type*} [LinearOrder κ] (key : α → κ)

/-- A cut to the `n` newest entries: no entry that is gone is newer than one that is left. -/
structure KeepsNewest (n : Nat) (before after : List α) : Prop where
  sublist : after.Sublist before
  length : after.length = min n before.length
  newest : ∀ a ∈ before, a ∉ after → ∀ b ∈ after, key a ≤ key b

/-- `ORDER BY key`. -/
def oldestFirst (l : List α) : List α := l.insertionSort (fun a b => key a ≤ key b)

theorem oldestFirst_perm (l : List α) : (oldestFirst key l).Perm l := List.perm_insertionSort _ _

theorem oldestFirst_sorted (l : List α) :
    (oldestFirst key l).Pairwise (fun a b => key a ≤ key b) := by
  have htotal : Std.Total (fun a b : α => key a ≤ key b) := ⟨fun a b => le_total (key a) (key b)⟩
  have htrans : IsTrans α (fun a b => key a ≤ key b) := ⟨fun _ _ _ => le_trans⟩
  exact List.pairwise_insertionSort _ l

variable {key}

/-- A key without ties has one order. -/
theorem oldestFirst_eq {l m : List α} (hl : (l.map key).Nodup) (hperm : m.Perm l)
    (hsorted : m.Pairwise (fun a b => key a ≤ key b)) : oldestFirst key l = m := by
  have hantisymm : ∀ a b, a ∈ oldestFirst key l → b ∈ m → key a ≤ key b → key b ≤ key a →
      a = b := by
    intro a b ha hb hab hba
    have ha := (oldestFirst_perm key l).subset ha
    exact List.inj_on_of_nodup_map hl ha (hperm.subset hb) (le_antisymm hab hba)
  exact List.Perm.eq_of_pairwise hantisymm (oldestFirst_sorted key l) hsorted
    ((oldestFirst_perm key l).trans hperm.symm)

theorem oldestFirst_filter {l : List α} (hl : (l.map key).Nodup) (p : α → Bool) :
    oldestFirst key (l.filter p) = (oldestFirst key l).filter p := by
  apply oldestFirst_eq
  · exact (List.filter_sublist.map key).nodup hl
  · exact (oldestFirst_perm key l).filter p
  · exact (oldestFirst_sorted key l).filter p

section Names
variable {ι : Type*} [DecidableEq ι] {name : α → ι}

/-- What follows in the order once the oldest `k` are gone. -/
theorem oldestFirst_without {l : List α} (hkey : (l.map key).Nodup) (hname : (l.map name).Nodup)
    (k : Nat) : oldestFirst key (without name (((oldestFirst key l).take k).map name) l) =
      (oldestFirst key l).drop k := by
  have hnodup : ((oldestFirst key l).map name).Nodup :=
    ((oldestFirst_perm key l).map name).nodup_iff.mpr hname
  rw [without, oldestFirst_filter hkey]
  revert hnodup
  generalize oldestFirst key l = m
  intro hnodup
  rw [← List.take_append_drop k m, List.map_append] at hnodup
  obtain ⟨_, _, hapart⟩ := List.nodup_append.mp hnodup
  calc m.filter (fun a => !((m.take k).map name).contains (name a))
      = (m.take k ++ m.drop k).filter (fun a => !((m.take k).map name).contains (name a)) := by
        rw [List.take_append_drop]
    _ = m.drop k := by
        rw [List.filter_append, List.filter_eq_nil_iff.mpr, List.nil_append,
          List.filter_eq_self.mpr]
        · intro a ha
          rw [Bool.not_eq_true', ← Bool.not_eq_true, List.contains_iff_mem]
          intro hmem
          exact hapart _ hmem _ (List.mem_map_of_mem ha) rfl
        · intro a ha
          rw [Bool.not_eq_true', Bool.not_eq_false, List.contains_iff_mem]
          exact List.mem_map_of_mem ha

/-- Without the oldest, the newest are left. -/
theorem keepsNewest_without_oldest {l : List α} (hname : (l.map name).Nodup) (n : Nat) :
    KeepsNewest key n l
      (without name (((oldestFirst key l).take (l.length - n)).map name) l) where
  sublist := without_sublist _ l
  length := by
    have hsub : ((oldestFirst key l).take (l.length - n)).Subperm l :=
      (List.take_sublist _ _).subperm.trans (oldestFirst_perm key l).subperm
    have hlen := length_without hname hsub
    rw [List.length_take, (oldestFirst_perm key l).length_eq] at hlen
    omega
  newest := by
    intro a ha hgone b hb
    have hsub : (oldestFirst key l).take (l.length - n) ⊆ l :=
      fun x hx => (oldestFirst_perm key l).subset (List.mem_of_mem_take hx)
    rw [mem_without, mem_of_name_mem hname hsub ha, not_and_not_right] at hgone
    have hbl := (mem_without.mp hb).1
    rw [mem_without, mem_of_name_mem hname hsub hbl] at hb
    have hbdrop : b ∈ (oldestFirst key l).drop (l.length - n) := by
      have hmem := (oldestFirst_perm key l).symm.subset hb.1
      rw [← List.take_append_drop (l.length - n) (oldestFirst key l), List.mem_append] at hmem
      exact hmem.resolve_left hb.2
    have hsorted := oldestFirst_sorted key l
    rw [← List.take_append_drop (l.length - n) (oldestFirst key l), List.pairwise_append] at hsorted
    exact hsorted.2.2 a (hgone ha) b hbdrop

end Names

/-- The keys in descending order: those that are left, and behind them those that are gone. -/
theorem KeepsNewest.sorted_keys {n : Nat} {l a : List α} (hl : l.Nodup)
    (h : KeepsNewest key n l a) : (a.map key).insertionSort (· ≥ ·) =
      ((l.map key).insertionSort (· ≥ ·)).take (min n l.length) := by
  classical
  let gone := l.filter (fun x => decide (x ∉ a))
  have hsplit : (a ++ gone).Perm l := by
    apply (List.perm_ext_iff_of_nodup ?_ hl).mpr
    · intro x
      by_cases hx : x ∈ a
      · simp [gone, hx, h.sublist.subset hx]
      · simp [gone, hx]
    · apply List.Nodup.append (h.sublist.nodup hl) (hl.filter _)
      intro x hx hgone
      exact absurd hx (by simpa using (List.mem_filter.mp hgone).2)
  have hsorted : ((a.map key).insertionSort (· ≥ ·) ++
      (gone.map key).insertionSort (· ≥ ·)).Pairwise (· ≥ ·) := by
    apply List.pairwise_append.mpr
    refine ⟨List.pairwise_insertionSort _ _, List.pairwise_insertionSort _ _, ?_⟩
    intro x hx y hy
    obtain ⟨b, hb, rfl⟩ := List.mem_map.mp ((List.mem_insertionSort _).mp hx)
    obtain ⟨c, hc, rfl⟩ := List.mem_map.mp ((List.mem_insertionSort _).mp hy)
    obtain ⟨hcl, hca⟩ := List.mem_filter.mp hc
    exact h.newest c hcl (by simpa using hca) b hb
  have hperm : ((l.map key).insertionSort (· ≥ ·)).Perm
      ((a.map key).insertionSort (· ≥ ·) ++ (gone.map key).insertionSort (· ≥ ·)) :=
    calc ((l.map key).insertionSort (· ≥ ·)).Perm (l.map key) := List.perm_insertionSort _ _
      List.Perm _ ((a ++ gone).map key) := (hsplit.map key).symm
      List.Perm _ (a.map key ++ gone.map key) := by rw [List.map_append]
      List.Perm _ _ :=
        ((List.perm_insertionSort _ _).append (List.perm_insertionSort _ _)).symm
  rw [List.Perm.eq_of_pairwise' (List.pairwise_insertionSort _ _) hsorted hperm, ← h.length,
    List.take_append_of_le_length (by simp), List.take_of_length_le (by simp)]

/-- What two cuts leave has the same keys. -/
theorem KeepsNewest.keys_perm {n : Nat} {l a b : List α} (hl : l.Nodup)
    (ha : KeepsNewest key n l a) (hb : KeepsNewest key n l b) : (a.map key).Perm (b.map key) :=
  calc (a.map key).Perm ((a.map key).insertionSort (· ≥ ·)) := (List.perm_insertionSort _ _).symm
    List.Perm _ ((b.map key).insertionSort (· ≥ ·)) := by rw [ha.sorted_keys hl, hb.sorted_keys hl]
    List.Perm _ (b.map key) := List.perm_insertionSort _ _

/-- A coarser key. -/
theorem KeepsNewest.mono {κ' : Type*} [LinearOrder κ'] {key' : α → κ'} {n : Nat}
    {before after : List α} (h : KeepsNewest key n before after)
    (hkey : ∀ a b, key a ≤ key b → key' a ≤ key' b) : KeepsNewest key' n before after where
  sublist := h.sublist
  length := h.length
  newest := fun a ha hgone b hb => hkey a b (h.newest a ha hgone b hb)

end Newest

/-! ## Slices behind the newest -/

section Trim
variable {α ι κ : Type*} [DecidableEq ι] [LinearOrder κ]

/-- `ORDER BY key DESC`: entries with the same key come in any order. -/
structure NewestFirst (key : α → κ) where
  order : List α → List α
  perm : ∀ l, (order l).Perm l
  sorted : ∀ l, (order l).Pairwise (fun a b => key b ≤ key a)

/-- One such order: ties stay as they are. -/
def NewestFirst.stable (key : α → κ) : NewestFirst key where
  order l := l.insertionSort (fun a b => key b ≤ key a)
  perm l := List.perm_insertionSort _ l
  sorted l := by
    have htotal : Std.Total (fun a b : α => key b ≤ key a) :=
      ⟨fun a b => le_total (key b) (key a)⟩
    have htrans : IsTrans α (fun a b => key b ≤ key a) := ⟨fun _ _ _ hab hbc => hbc.trans hab⟩
    exact List.pairwise_insertionSort _ l

variable (name : α → ι) {key : α → κ} (ord : NewestFirst key) (n k : Nat)

/-- Up to `k` entries behind the newest `n`. -/
def slice (l : List α) : List α := ((ord.order l).drop n).take k

def trim (l : List α) : List α := without name ((slice ord n k l).map name) l

variable {ord n k}

theorem slice_subperm (l : List α) : (slice ord n k l).Subperm l :=
  ((List.take_sublist _ _).trans (List.drop_sublist _ _)).subperm.trans (ord.perm l).subperm

theorem length_slice (l : List α) : (slice ord n k l).length = min k (l.length - n) := by
  rw [slice, List.length_take, List.length_drop, (ord.perm l).length_eq]

variable {name}

theorem trim_sublist (l : List α) : (trim name ord n k l).Sublist l := without_sublist _ l

theorem length_trim {l : List α} (hl : (l.map name).Nodup) :
    (trim name ord n k l).length = l.length - min k (l.length - n) := by
  have hsub : (slice ord n k l).Subperm l := slice_subperm l
  have hlen := length_without hl hsub
  rw [length_slice] at hlen
  rw [trim]
  omega

theorem iterate_trim_sublist (l : List α) (j : Nat) : ((trim name ord n k)^[j] l).Sublist l := by
  induction j with
  | zero => exact List.Sublist.refl l
  | succ j ih =>
    rw [Function.iterate_succ_apply']
    exact (trim_sublist _).trans ih

theorem length_iterate_trim {l : List α} (hl : (l.map name).Nodup) (j : Nat) :
    ((trim name ord n k)^[j] l).length = l.length - min (j * k) (l.length - n) := by
  induction j with
  | zero => simp
  | succ j ih =>
    have hj : (((trim name ord n k)^[j] l).map name).Nodup :=
      ((iterate_trim_sublist l j).map name).nodup hl
    rw [Function.iterate_succ_apply', length_trim hj, ih, Nat.succ_mul]
    omega

/-- An entry that is gone has `n` entries left that are as new. -/
def Outranked (key : α → κ) (n : Nat) (before after : List α) : Prop :=
  ∀ a ∈ before, a ∉ after → n ≤ after.countP (fun b => key a ≤ key b)

/-- The newest `n` entries stay, and are as new as anything in the slice. -/
theorem le_countP_trim {l : List α} (hl : (l.map name).Nodup) {s a : α}
    (hs : s ∈ slice ord n k l) (has : key a ≤ key s) :
    n ≤ (trim name ord n k l).countP (fun b => key a ≤ key b) := by
  have hsorted := ord.sorted l
  have hnodup := (ord.perm l).nodup_iff.mpr (List.Nodup.of_map _ hl)
  rw [← List.take_append_drop n (ord.order l)] at hsorted hnodup
  have hsdrop : s ∈ (ord.order l).drop n := List.mem_of_mem_take hs
  have hnew : ∀ b ∈ (ord.order l).take n, key a ≤ key b := fun b hb =>
    has.trans ((List.pairwise_append.mp hsorted).2.2 b hb s hsdrop)
  have hstay : (ord.order l).take n ⊆ trim name ord n k l := by
    intro b hb
    have hbl : b ∈ l := (ord.perm l).subset (List.mem_of_mem_take hb)
    rw [trim, mem_without, mem_of_name_mem hl (slice_subperm l).subset hbl]
    refine ⟨hbl, fun hbs => ?_⟩
    exact (List.nodup_append.mp hnodup).2.2 b hb b (List.mem_of_mem_take hbs) rfl
  have hlen : ((ord.order l).take n).length = n := by
    have hpos := List.length_pos_of_mem hsdrop
    rw [List.length_drop] at hpos
    rw [List.length_take]
    omega
  calc n = ((ord.order l).take n).countP (fun b => key a ≤ key b) := by
        rw [List.countP_eq_length.mpr (by simpa using hnew), hlen]
    _ ≤ (trim name ord n k l).countP (fun b => key a ≤ key b) :=
        List.Subperm.countP_le _
          (List.subperm_of_subset (List.nodup_append.mp hnodup).1 hstay)

theorem outranked_trim {before l : List α} (hl : (l.map name).Nodup)
    (h : Outranked key n before l) : Outranked key n before (trim name ord n k l) := by
  intro a ha hgone
  by_cases hslice : ∃ s ∈ slice ord n k l, key a ≤ key s
  · obtain ⟨s, hs, has⟩ := hslice
    exact le_countP_trim hl hs has
  · -- nothing that counts for the entry is taken off, so it was gone before
    have hstays : ∀ b ∈ l, key a ≤ key b → b ∈ trim name ord n k l := by
      intro b hb hab
      rw [trim, mem_without, mem_of_name_mem hl (slice_subperm l).subset hb]
      exact ⟨hb, fun hbs => hslice ⟨b, hbs, hab⟩⟩
    have hal : a ∉ l := fun hal => hgone (hstays a hal le_rfl)
    calc n ≤ l.countP (fun b => key a ≤ key b) := h a ha hal
      _ ≤ l.countP (fun b => decide (key a ≤ key b) &&
            !((slice ord n k l).map name).contains (name b)) := by
          apply List.countP_mono_left
          intro b hb hab
          rw [Bool.and_eq_true]
          exact ⟨hab, (List.mem_filter.mp (hstays b hb (of_decide_eq_true hab))).2⟩
      _ = (trim name ord n k l).countP (fun b => key a ≤ key b) := by
          rw [trim, without, List.countP_filter]

theorem outranked_iterate_trim {l : List α} (hl : (l.map name).Nodup) (j : Nat) :
    Outranked key n l ((trim name ord n k)^[j] l) := by
  induction j with
  | zero => exact fun a ha hgone => absurd ha hgone
  | succ j ih =>
    rw [Function.iterate_succ_apply']
    exact outranked_trim (((iterate_trim_sublist l j).map name).nodup hl) ih

/-- Where `n` entries are left, they are as new as those that are gone. -/
theorem newest_of_outranked {before after : List α} (h : Outranked key n before after)
    (hlen : after.length ≤ n) : ∀ a ∈ before, a ∉ after → ∀ b ∈ after, key a ≤ key b := by
  intro a ha hgone b hb
  have hall : after.countP (fun b => key a ≤ key b) = after.length :=
    Nat.le_antisymm List.countP_le_length (hlen.trans (h a ha hgone))
  simpa using List.countP_eq_length.mp hall b hb

/-- `j` slices of `k` entries make the cut exactly when they are long enough together. -/
theorem keepsNewest_iterate_trim_iff {l : List α} (hl : (l.map name).Nodup) (j : Nat) :
    KeepsNewest key n l ((trim name ord n k)^[j] l) ↔ l.length - n ≤ j * k := by
  have hlength : ((trim name ord n k)^[j] l).length = l.length - min (j * k) (l.length - n) :=
    length_iterate_trim hl j
  constructor
  · intro h
    have hlen := h.length
    omega
  · intro hlong
    refine ⟨iterate_trim_sublist l j, by omega, ?_⟩
    exact newest_of_outranked (outranked_iterate_trim hl j) (by omega)

end Trim

end Foundation
