import HiWaveTel.RepeatedDelivery
import HiWaveTel.Foundation.Attempts

/- `webhook_delivery._deliver_payload_to_urls` over all outcomes of its POSTs: how often
   each URL is POSTed to, what the result says, and that the URLs do not depend on each
   other. -/
namespace HiWaveTel
open Foundation

/-- How many POSTs one URL gets. -/
def postCount (http : Http) (retryMax : Nat) (url : Str) : Nat :=
  (postUntilOk (http url) retryMax 0).1

theorem postUntilOk_le (answers : Nat → Bool) (n attempt : Nat) :
    (postUntilOk answers n attempt).1 ≤ n := by
  induction n generalizing attempt with
  | zero => exact Nat.le_refl 0
  | succ n ih =>
    unfold postUntilOk
    split
    · exact Nat.succ_pos n
    · exact Nat.succ_le_succ (ih (attempt + 1))

/-- Attempts are left only after a success. -/
theorem postUntilOk_stops {answers : Nat → Bool} {n attempt : Nat}
    (h : (postUntilOk answers n attempt).1 < n) : (postUntilOk answers n attempt).2 = true := by
  induction n generalizing attempt with
  | zero => exact absurd h (Nat.not_lt_zero _)
  | succ n ih =>
    unfold postUntilOk at h ⊢
    split at h
    · next ha => rw [if_pos ha]
    · next ha =>
      rw [if_neg ha]
      exact ih (Nat.lt_of_succ_lt_succ h)

theorem postCount_eq (http : Http) (retryMax : Nat) (url : Str) :
    (postCount http retryMax url : ℕ∞) = min (firstSuccess (http url)) retryMax := by
  obtain ⟨hbefore, hok⟩ := postUntilOk_spec (http url) retryMax 0
  simp only [Nat.zero_add] at hbefore hok
  refine eq_min_firstSuccess (postUntilOk_le _ _ _) hbefore ?_
  intro hlt
  exact hok.mp (postUntilOk_stops hlt)

/-- A URL is delivered to exactly when one of the allowed attempts succeeds. -/
theorem postUntilOk_ok_iff (answers : Nat → Bool) (n : Nat) :
    (postUntilOk answers n 0).2 = true ↔ ∃ i < n, answers i = true := by
  have hok := (postUntilOk_spec answers n 0).2
  simp only [Nat.zero_add] at hok
  constructor
  · intro h
    obtain ⟨i, hi, ha⟩ := hok.mp h
    exact ⟨i, Nat.lt_of_lt_of_le hi (postUntilOk_le answers n 0), ha⟩
  · intro h
    obtain ⟨i, hi, ha⟩ := h
    by_cases hall : (postUntilOk answers n 0).1 < n
    · exact postUntilOk_stops hall
    · exact hok.mpr ⟨i, by omega, ha⟩

theorem deliverPayloadToUrls_posts (kind : JobKind) (payload : Payload) (retryMax : Nat)
    (http : Http) (urls : List Str) :
    (deliverPayloadToUrls kind payload retryMax http urls).1 =
      urls.flatMap (fun url => List.replicate (postCount http retryMax url) ⟨kind, url, payload⟩) := by
  induction urls with
  | nil => rfl
  | cons url urls ih =>
    rw [List.flatMap_cons, ← ih]
    rfl

/-- The POSTs to one URL are the same whatever the others answer. -/
theorem posts_to_url_congr (kind : JobKind) (payload : Payload) (retryMax : Nat)
    {http http' : Http} (urls : List Str) {url : Str} (h : http' url = http url) :
    (deliverPayloadToUrls kind payload retryMax http' urls).1.filter (fun p => p.url == url) =
      (deliverPayloadToUrls kind payload retryMax http urls).1.filter (fun p => p.url == url) := by
  rw [deliverPayloadToUrls_posts, deliverPayloadToUrls_posts, List.filter_flatMap,
    List.filter_flatMap]
  congr 1
  funext u
  by_cases hu : u = url
  · subst hu
    simp only [postCount, h]
  · -- a POST to another URL is in neither
    simp only [List.filter_replicate, beq_iff_eq, hu, if_false]

end HiWaveTel
