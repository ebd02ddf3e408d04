import Mathlib.Data.List.Basic
import Mathlib.Tactic.Common

/- Histories. A state machine that keeps a log of its events is judged by the order
   of events in it. `Open p q` says that some `p` event has not been followed by a
   `q` event yet; `Answered p q r` says that no `r` event comes after a `p` event
   without a `q` event between the two. The `concat` rules say how one more event
   changes both, which is all that a step of the machine needs. -/
namespace Foundation

section History
variable {ε : Type*} (p q r : ε → Prop)

/-- Some `p` event is followed by no `q` event. -/
def Open (log : List ε) : Prop :=
  ∃ pre a mid, log = pre ++ a :: mid ∧ p a ∧ ∀ x ∈ mid, ¬ q x

/-- Between a `p` event and any later `r` event there is a `q` event. -/
def Answered (log : List ε) : Prop :=
  ∀ pre a mid b post, log = pre ++ a :: mid ++ b :: post → p a → r b → ∃ x ∈ mid, q x

end History

section Lemmas
variable {ε : Type*} {p q r : ε → Prop}

theorem open_concat {log : List ε} {e : ε} :
    Open p q (log ++ [e]) ↔ p e ∨ (Open p q log ∧ ¬ q e) := by
  refine ⟨?_, ?_⟩
  · intro h
    obtain ⟨pre, a, mid, he, ha, hmid⟩ := h
    -- the new event is the `p` event itself, or the last of those after it
    rcases List.eq_nil_or_concat mid with rfl | ⟨mid', x, rfl⟩
    · obtain ⟨_, hx⟩ := List.append_inj' he rfl
      cases hx
      exact Or.inl ha
    · rw [List.concat_eq_append] at he hmid
      rw [← List.cons_append, ← List.append_assoc] at he
      obtain ⟨hlog, hx⟩ := List.append_inj' he rfl
      cases hx
      refine Or.inr ⟨⟨pre, a, mid', hlog, ha, fun y hy => hmid y (by simp [hy])⟩, ?_⟩
      exact hmid e (by simp)
  · intro h
    rcases h with he | ⟨⟨pre, a, mid, rfl, ha, hmid⟩, he⟩
    · exact ⟨log, e, [], by simp, he, by simp⟩
    · refine ⟨pre, a, mid ++ [e], by simp, ha, ?_⟩
      intro x hx
      rcases List.mem_append.mp hx with hx | hx
      · exact hmid x hx
      · rw [List.mem_singleton.mp hx]; exact he

theorem answered_nil : Answered p q r ([] : List ε) := by
  intro pre a mid b post he
  simp at he

theorem answered_concat {log : List ε} {e : ε} :
    Answered p q r (log ++ [e]) ↔ Answered p q r log ∧ (r e → ¬ Open p q log) := by
  refine ⟨?_, ?_⟩
  · intro h
    refine ⟨?_, ?_⟩
    · intro pre a mid b post he
      exact h pre a mid b (post ++ [e]) (by rw [he]; simp)
    · intro he hopen
      obtain ⟨pre, a, mid, rfl, ha, hmid⟩ := hopen
      obtain ⟨x, hx, hq⟩ := h pre a mid e [] (by simp) ha he
      exact hmid x hx hq
  · intro h pre a mid b post he ha hb
    obtain ⟨hlog, hlast⟩ := h
    rcases List.eq_nil_or_concat post with rfl | ⟨post', x, rfl⟩
    · obtain ⟨rfl, hx⟩ := List.append_inj' he rfl
      cases hx
      by_contra hno
      exact hlast hb ⟨pre, a, mid, rfl, ha, fun x hx hq => hno ⟨x, hx, hq⟩⟩
    · rw [List.concat_eq_append, ← List.cons_append, ← List.append_assoc] at he
      obtain ⟨rfl, -⟩ := List.append_inj' he rfl
      exact hlog pre a mid b post' rfl ha hb

end Lemmas

end Foundation
