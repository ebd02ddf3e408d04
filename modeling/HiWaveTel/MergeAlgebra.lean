import HiWaveTel.ModemIdentity
import HiWaveTel.Foundation.Selection

/- The algebra of `_merge_mmcli_sources`. For each key the merge is a selection by length among the
   values of the parts, where a blank value counts as an empty one. Selection is associative and
   idempotent, and the empty value is neutral, so a merge may be nested in any way.

   It does not commute: of values of one length the first stays. Two parts that are exchanged can
   show through a third one between them. -/
namespace HiWaveTel
open Foundation

/-- The value that a part brings to the merge. -/
def mergeValue (k : Str) (p : Details) : Str :=
  if isBlankMmcliValue (partValue p k) then [] else partValue p k

theorem least_nil : Least List.length ([] : Str) := by
  intro s h
  exact List.length_eq_zero_iff.mp (Nat.le_zero.mp h)

theorem longerValue_eq_pick (k best : Str) (p : Details) :
    longerValue k best p = pick List.length best (mergeValue k p) := by
  rw [longerValue_eq, mergeValue]
  cases hblank : isBlankMmcliValue (partValue p k) with
  | true => exact (pick_least_right least_nil best).symm
  | false =>
    have hpos : 0 < (partValue p k).length := List.length_pos_of_ne_nil (ne_nil_of_not_blank hblank)
    rw [if_neg Bool.false_ne_true, if_neg Bool.false_ne_true, pick]
    by_cases hlong : best.length < (partValue p k).length
    · rw [if_pos (Or.inr hlong), if_pos hlong]
    · have hbest : best ≠ [] := by
        rintro rfl
        exact hlong hpos
      rw [if_neg (not_or.mpr ⟨hbest, hlong⟩), if_neg hlong]

/-- The merged value of a key is selected among those of the parts. -/
theorem bestValue_eq_pickAll (parts : List Details) (k : Str) :
    bestValue parts k = pickAll List.length [] (parts.map (mergeValue k)) := by
  rw [bestValue, pickAll, List.foldl_map]
  congr
  funext best p
  exact longerValue_eq_pick k best p

theorem bestValue_eq_nil {parts : List Details} {k : Str} :
    bestValue parts k = [] ↔ ∀ p ∈ parts, isBlankMmcliValue (partValue p k) = true := by
  constructor
  · intro hnil p hp
    by_contra hblank
    have hle := partValue_le_bestValue hp (Bool.not_eq_true _ ▸ hblank)
    rw [hnil, List.length_nil, Nat.le_zero, List.length_eq_zero_iff] at hle
    rw [hle] at hblank
    exact hblank rfl
  · intro hall
    rcases bestValue_cases parts k with hnil | ⟨p, hp, hblank, _⟩
    · exact hnil
    · rw [hall p hp] at hblank
      cases hblank

/-- A merged result brings its value to a further merge. -/
theorem mergeValue_merged (parts : List Details) (k : Str) :
    mergeValue k (mergeMmcliSources parts) = bestValue parts k := by
  rw [mergeValue, partValue, get_mergeMmcliSources]
  rcases bestValue_cases parts k with hnil | ⟨p, _, hblank, hvalue⟩
  · rw [hnil]
    rfl
  · have hne : bestValue parts k ≠ [] := hvalue ▸ ne_nil_of_not_blank hblank
    have hstrip : Text.strip (bestValue parts k) = bestValue parts k := by
      rw [hvalue]
      exact Text.strip_strip _
    rw [if_neg hne, Option.getD_some, hstrip, hvalue, hblank, if_neg Bool.false_ne_true]

theorem mergeValue_empty (k : Str) : mergeValue k [] = [] := rfl

theorem sameDict_of_bestValue {parts parts' : List Details}
    (h : ∀ k, bestValue parts k = bestValue parts' k) :
    SameDict (mergeMmcliSources parts) (mergeMmcliSources parts') := by
  intro k
  rw [get_mergeMmcliSources, get_mergeMmcliSources, h]

/-- Some of the parts may be merged first. -/
theorem merge_nested (before inner after : List Details) :
    SameDict (mergeMmcliSources (before ++ mergeMmcliSources inner :: after))
      (mergeMmcliSources (before ++ inner ++ after)) := by
  apply sameDict_of_bestValue
  intro k
  rw [bestValue_eq_pickAll, bestValue_eq_pickAll, List.map_append, List.map_cons,
    mergeValue_merged, bestValue_eq_pickAll, pickAll_nested least_nil, List.map_append,
    List.map_append]

theorem merge_twice (parts : List Details) :
    SameDict (mergeMmcliSources (parts ++ parts)) (mergeMmcliSources parts) := by
  apply sameDict_of_bestValue
  intro k
  rw [bestValue_eq_pickAll, bestValue_eq_pickAll, List.map_append, pickAll_append least_nil,
    pick_self]

theorem merge_empty (before after : List Details) :
    SameDict (mergeMmcliSources (before ++ [] :: after)) (mergeMmcliSources (before ++ after)) := by
  apply sameDict_of_bestValue
  intro k
  rw [bestValue_eq_pickAll, bestValue_eq_pickAll, List.map_append, List.map_append, List.map_cons,
    mergeValue_empty, pickAll_append least_nil, pickAll_cons, pick_self,
    ← pickAll_append least_nil]

theorem merge_merged (parts : List Details) :
    SameDict (mergeMmcliSources [mergeMmcliSources parts]) (mergeMmcliSources parts) := by
  have hnested := merge_nested [] parts []
  rwa [List.nil_append, List.nil_append, List.append_nil] at hnested

/-- The keys of the result. -/
theorem isSome_get_merge {parts : List Details} {k : Str} :
    ((mergeMmcliSources parts).get k).isSome = true ↔
      ∃ p ∈ parts, isBlankMmcliValue (partValue p k) = false := by
  rw [get_mergeMmcliSources]
  by_cases hnil : bestValue parts k = []
  · rw [if_pos hnil]
    have hall := bestValue_eq_nil.mp hnil
    constructor
    · intro h
      cases h
    · rintro ⟨p, hp, hblank⟩
      rw [hall p hp] at hblank
      cases hblank
  · rw [if_neg hnil]
    refine ⟨fun _ => ?_, fun _ => rfl⟩
    by_contra hno
    refine hnil (bestValue_eq_nil.mpr (fun p hp => ?_))
    by_contra hblank
    exact hno ⟨p, hp, by simpa using hblank⟩

/-- The part has a value for the key, and none is longer. -/
def IsLongest (parts : List Details) (k : Str) (p : Details) : Prop :=
  isBlankMmcliValue (partValue p k) = false ∧
    (partValue p k).length = (bestValue parts k).length

theorem isLongest_of_length {parts : List Details} {k : Str} {p : Details}
    (hne : bestValue parts k ≠ [])
    (h : (mergeValue k p).length = (bestValue parts k).length) : IsLongest parts k p := by
  cases hblank : isBlankMmcliValue (partValue p k) with
  | true =>
    rw [mergeValue, hblank, if_pos rfl] at h
    exact absurd (List.length_eq_zero_iff.mp h.symm) hne
  | false =>
    rw [mergeValue, hblank, if_neg Bool.false_ne_true] at h
    exact ⟨hblank, h⟩

section Exchange
variable {before between after : List Details} {p q : Details} {k : Str}

theorem bestValue_ne_of_get (h : (mergeMmcliSources (before ++ p :: (between ++ q :: after))).get k ≠
    (mergeMmcliSources (before ++ q :: (between ++ p :: after))).get k) :
    bestValue (before ++ p :: (between ++ q :: after)) k ≠ [] ∧
    bestValue (before ++ p :: (between ++ q :: after)) k ≠
      bestValue (before ++ q :: (between ++ p :: after)) k := by
  have hne : bestValue (before ++ p :: (between ++ q :: after)) k ≠
      bestValue (before ++ q :: (between ++ p :: after)) k := by
    intro heq
    apply h
    rw [get_mergeMmcliSources, get_mergeMmcliSources, heq]
  refine ⟨?_, hne⟩
  intro hnil
  have hall := bestValue_eq_nil.mp hnil
  have hnil' : bestValue (before ++ q :: (between ++ p :: after)) k = [] :=
    bestValue_eq_nil.mpr (fun r hr => hall r (by
      simp only [List.mem_append, List.mem_cons] at hr ⊢
      tauto))
  exact hne (hnil.trans hnil'.symm)

/-- An exchange of two parts shows only where one of them has a longest value, and so has the
    other one or a part between them. -/
theorem merge_exchange
    (h : (mergeMmcliSources (before ++ p :: (between ++ q :: after))).get k ≠
      (mergeMmcliSources (before ++ q :: (between ++ p :: after))).get k) :
    (IsLongest (before ++ p :: (between ++ q :: after)) k p ∨
      IsLongest (before ++ p :: (between ++ q :: after)) k q) ∧
    ((IsLongest (before ++ p :: (between ++ q :: after)) k p ∧
      IsLongest (before ++ p :: (between ++ q :: after)) k q) ∨
      ∃ r ∈ between, IsLongest (before ++ p :: (between ++ q :: after)) k r) := by
  obtain ⟨hne, hvalues⟩ := bestValue_ne_of_get h
  have hbest : ∀ p q : Details, pickAll List.length [] (before.map (mergeValue k) ++
      mergeValue k p ::
        (between.map (mergeValue k) ++ mergeValue k q :: after.map (mergeValue k))) =
      bestValue (before ++ p :: (between ++ q :: after)) k := by
    intro p q
    rw [bestValue_eq_pickAll, List.map_append, List.map_cons, List.map_append, List.map_cons]
  rw [← hbest p q, ← hbest q p] at hvalues
  obtain ⟨hone, hother⟩ := pickAll_exchange List.length hvalues
  rw [hbest p q] at hone hother
  refine ⟨?_, ?_⟩
  · rcases hone with hp | hq
    · exact Or.inl (isLongest_of_length hne hp)
    · exact Or.inr (isLongest_of_length hne hq)
  · -- the two are of one length, or a value between them is now the first of its length
    rcases hother with hsame | ⟨_, hbetween, hlength⟩
    · rcases hone with hp | hq
      · exact Or.inl ⟨isLongest_of_length hne hp, isLongest_of_length hne (hsame ▸ hp)⟩
      · exact Or.inl ⟨isLongest_of_length hne (hsame.symm ▸ hq), isLongest_of_length hne hq⟩
    · obtain ⟨r, hr, rfl⟩ := List.mem_map.mp hbetween
      exact Or.inr ⟨r, hr, isLongest_of_length hne hlength⟩

end Exchange

/-- The algebra of the merge, for any number of parts. -/
theorem merge_algebra :
    (∀ before inner after, SameDict
      (mergeMmcliSources (before ++ mergeMmcliSources inner :: after))
      (mergeMmcliSources (before ++ inner ++ after))) ∧
    (∀ a b c, SameDict (mergeMmcliSources [a, b, c])
        (mergeMmcliSources [mergeMmcliSources [a, b], c]) ∧
      SameDict (mergeMmcliSources [a, b, c])
        (mergeMmcliSources [a, mergeMmcliSources [b, c]])) ∧
    (∀ parts, SameDict (mergeMmcliSources (parts ++ parts)) (mergeMmcliSources parts) ∧
      SameDict (mergeMmcliSources [mergeMmcliSources parts]) (mergeMmcliSources parts)) ∧
    (∀ before after, SameDict (mergeMmcliSources (before ++ [] :: after))
      (mergeMmcliSources (before ++ after))) ∧
    (∀ parts, SameDict (mergeMmcliSources [[], mergeMmcliSources parts])
        (mergeMmcliSources parts) ∧
      SameDict (mergeMmcliSources [mergeMmcliSources parts, []]) (mergeMmcliSources parts)) ∧
    (∀ parts k, ((mergeMmcliSources parts).get k).isSome = true ↔
      ∃ p ∈ parts, isBlankMmcliValue (partValue p k) = false) ∧
    (∀ before p between q after k,
      (mergeMmcliSources (before ++ p :: (between ++ q :: after))).get k ≠
        (mergeMmcliSources (before ++ q :: (between ++ p :: after))).get k →
      (IsLongest (before ++ p :: (between ++ q :: after)) k p ∨
        IsLongest (before ++ p :: (between ++ q :: after)) k q) ∧
      ((IsLongest (before ++ p :: (between ++ q :: after)) k p ∧
        IsLongest (before ++ p :: (between ++ q :: after)) k q) ∨
        ∃ r ∈ between, IsLongest (before ++ p :: (between ++ q :: after)) k r)) := by
  refine ⟨merge_nested, ?_, fun parts => ⟨merge_twice parts, merge_merged parts⟩, merge_empty, ?_,
    fun _ _ => isSome_get_merge, fun _ _ _ _ _ _ => merge_exchange⟩
  · intro a b c
    exact ⟨fun k => (merge_nested [] [a, b] [c] k).symm,
      fun k => (merge_nested [a] [b, c] [] k).symm⟩
  · intro parts
    exact ⟨fun k => (merge_empty [] [mergeMmcliSources parts] k).trans (merge_merged parts k),
      fun k => (merge_empty [mergeMmcliSources parts] [] k).trans (merge_merged parts k)⟩

/-- Of three parts the first and the last change places. The last one has a shorter value, and yet
    the merged value becomes that of the part between them. -/
theorem exchange_can_show :
    ¬ ∀ (before : List Details) (p : Details) (between : List Details) (q : Details)
      (after : List Details) (k : Str),
      (mergeMmcliSources (before ++ p :: (between ++ q :: after))).get k ≠
        (mergeMmcliSources (before ++ q :: (between ++ p :: after))).get k →
      IsLongest (before ++ p :: (between ++ q :: after)) k p ∧
        IsLongest (before ++ p :: (between ++ q :: after)) k q := by
  intro h
  have hboth := h [] [("text".toList, "one".toList)] [[("text".toList, "two".toList)]]
    [("text".toList, "3".toList)] [] "text".toList (by decide +kernel)
  have hlength : (partValue [("text".toList, "3".toList)] "text".toList).length ≠
      (bestValue ([] ++ [("text".toList, "one".toList)] :: ([[("text".toList, "two".toList)]] ++
        [("text".toList, "3".toList)] :: [])) "text".toList).length := by decide +kernel
  exact hlength hboth.2.2

end HiWaveTel
