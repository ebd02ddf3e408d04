import Mathlib.Order.Defs.Unbundled
import Mathlib.Tactic.Common

/- Programs that ask their environment. A `Script` program has a state, can raise, and
   takes the answers to its questions one after the other from a list, so that a
   statement about all lists is one about everything the environment can do; an answer
   that was not taken is left in the list.

   `Ends` is the triple of such programs, and `EndsWithin` bounds the answers they take.
   `Escapes` is one condition for both: of the answers some are bad, and a program lets
   exactly those through to its caller. -/
namespace Foundation

/-- `none` when the list is too short. -/
def Script (σ ρ ε α : Type) : Type := σ → List ρ → Option (Except ε α × σ × List ρ)

namespace Script
variable {σ ρ ε α β : Type}

def pure (a : α) : Script σ ρ ε α := fun s rs => some (.ok a, s, rs)

def bind (m : Script σ ρ ε α) (k : α → Script σ ρ ε β) : Script σ ρ ε β := fun s rs =>
  match m s rs with
  | none => none
  | some (.error e, s', rest) => some (.error e, s', rest)
  | some (.ok a, s', rest) => k a s' rest

instance : Monad (Script σ ρ ε) where
  pure := pure
  bind := bind

def raise (e : ε) : Script σ ρ ε α := fun s rs => some (.error e, s, rs)

/-- The next answer. -/
def next : Script σ ρ ε ρ := fun s rs =>
  match rs with
  | [] => none
  | r :: rest => some (.ok r, s, rest)

def modify (f : σ → σ) : Script σ ρ ε Unit := fun s rs => some (.ok (), f s, rs)

def get : Script σ ρ ε σ := fun s rs => some (.ok s, s, rs)

/-- `try` with an `except` clause that lets an error pass when it gives `none`. -/
def handle (m : Script σ ρ ε α) (clause : ε → Option (Script σ ρ ε α)) : Script σ ρ ε α :=
  fun s rs =>
    match m s rs with
    | some (.error e, s', rest) =>
      match clause e with
      | some k => k s' rest
      | none => some (.error e, s', rest)
    | r => r

/-- A sequence ends with the error of its first part, or as the second one does. -/
theorem bind_cases {m : Script σ ρ ε α} {k : α → Script σ ρ ε β} {s s' : σ} {rs rest : List ρ}
    {res : Except ε β} (h : bind m k s rs = some (res, s', rest)) :
    (∃ e, m s rs = some (.error e, s', rest) ∧ res = .error e) ∨
    (∃ a s₁ rest₁, m s rs = some (.ok a, s₁, rest₁) ∧ k a s₁ rest₁ = some (res, s', rest)) := by
  unfold bind at h
  split at h
  · cases h
  · next e s₁ rest₁ hfirst =>
    cases h
    exact Or.inl ⟨e, hfirst, rfl⟩
  · next a s₁ rest₁ hfirst => exact Or.inr ⟨a, s₁, rest₁, hfirst, h⟩

theorem bind_of_ok {m : Script σ ρ ε α} {k : α → Script σ ρ ε β} {s s₁ : σ} {rs rest₁ : List ρ}
    {a : α} (h : m s rs = some (.ok a, s₁, rest₁)) : bind m k s rs = k a s₁ rest₁ := by
  unfold bind
  rw [h]

theorem bind_assoc {γ : Type} (m : Script σ ρ ε α) (f : α → Script σ ρ ε β)
    (g : β → Script σ ρ ε γ) : bind (bind m f) g = bind m (fun a => bind (f a) g) := by
  funext s rs
  unfold bind
  rcases m s rs with _ | ⟨_ | a, s', rest⟩ <;> rfl

theorem modify_ok {f : σ → σ} {s s' : σ} {rs rest : List ρ} {u : Unit}
    (h : (modify f : Script σ ρ ε Unit) s rs = some (.ok u, s', rest)) : s' = f s ∧ rest = rs := by
  cases h
  exact ⟨rfl, rfl⟩

/-- A `try` ends as its body does, or the clause has caught an error of it. -/
theorem handle_cases {m : Script σ ρ ε α} {clause : ε → Option (Script σ ρ ε α)} {s s' : σ}
    {rs rest : List ρ} {res : Except ε α} (h : handle m clause s rs = some (res, s', rest)) :
    (m s rs = some (res, s', rest) ∧ ∀ e, res = .error e → clause e = none) ∨
    (∃ e c s₁ rest₁, m s rs = some (.error e, s₁, rest₁) ∧ clause e = some c ∧
      c s₁ rest₁ = some (res, s', rest)) := by
  unfold handle at h
  split at h
  · next e s₁ rest₁ hbody =>
    cases hclause : clause e with
    | none =>
      rw [hclause] at h
      cases h
      refine Or.inl ⟨hbody, ?_⟩
      intro e' he
      cases he
      exact hclause
    | some c =>
      rw [hclause] at h
      exact Or.inr ⟨e, c, s₁, rest₁, hbody, hclause, h⟩
  · next r hnot =>
    refine Or.inl ⟨h, ?_⟩
    intro e he
    rw [he] at h
    exact absurd h (hnot e s' rest)

/-- Where the program ends it has taken a first part of the list, and `P` holds. -/
def Ends (m : Script σ ρ ε α) (P : σ → List ρ → Except ε α → σ → Prop) : Prop :=
  ∀ s rs res s' rest, m s rs = some (res, s', rest) → ∃ used, rs = used ++ rest ∧ P s used res s'

theorem ends_pure {a : α} {P : σ → List ρ → Except ε α → σ → Prop} (h : ∀ s, P s [] (.ok a) s) :
    (pure a : Script σ ρ ε α).Ends P := by
  intro s rs res s' rest hrun
  cases hrun
  exact ⟨[], rfl, h s⟩

theorem ends_raise {e : ε} {P : σ → List ρ → Except ε α → σ → Prop}
    (h : ∀ s, P s [] (.error e) s) : (raise e : Script σ ρ ε α).Ends P := by
  intro s rs res s' rest hrun
  cases hrun
  exact ⟨[], rfl, h s⟩

/-- The first program raises, or the second one goes on from where it has ended. -/
theorem ends_bind {m : Script σ ρ ε α} {k : α → Script σ ρ ε β}
    {P : σ → List ρ → Except ε α → σ → Prop} {Q : α → σ → List ρ → Except ε β → σ → Prop}
    {R : σ → List ρ → Except ε β → σ → Prop} (hm : m.Ends P) (hk : ∀ a, (k a).Ends (Q a))
    (hraise : ∀ s used e s', P s used (.error e) s' → R s used (.error e) s')
    (hthen : ∀ s used a s' used' res s'', P s used (.ok a) s' → Q a s' used' res s'' →
      R s (used ++ used') res s'') : (bind m k).Ends R := by
  intro s rs res s' rest hrun
  rcases bind_cases hrun with ⟨e, hfirst, rfl⟩ | ⟨a, s₁, rest₁, hfirst, hthen'⟩
  · obtain ⟨used, hused, hp⟩ := hm _ _ _ _ _ hfirst
    exact ⟨used, hused, hraise _ _ _ _ hp⟩
  · obtain ⟨used, hused, hp⟩ := hm _ _ _ _ _ hfirst
    obtain ⟨used', hused', hq⟩ := hk a _ _ _ _ _ hthen'
    refine ⟨used ++ used', ?_, hthen _ _ _ _ _ _ _ hp hq⟩
    rw [hused, hused', List.append_assoc]

theorem ends_handle {m : Script σ ρ ε α} {clause : ε → Option (Script σ ρ ε α)}
    {P : σ → List ρ → Except ε α → σ → Prop} {Q : ε → σ → List ρ → Except ε α → σ → Prop}
    {R : σ → List ρ → Except ε α → σ → Prop} (hm : m.Ends P)
    (hk : ∀ e k, clause e = some k → k.Ends (Q e))
    (hok : ∀ s used a s', P s used (.ok a) s' → R s used (.ok a) s')
    (hpass : ∀ s used e s', clause e = none → P s used (.error e) s' → R s used (.error e) s')
    (hcaught : ∀ s used e k s' used' res s'', clause e = some k → P s used (.error e) s' →
      Q e s' used' res s'' → R s (used ++ used') res s'') : (handle m clause).Ends R := by
  intro s rs res s' rest hrun
  rcases handle_cases hrun with ⟨hbody, hnot⟩ | ⟨e, c, s₁, rest₁, hbody, hclause, hthen⟩
  · obtain ⟨used, hused, hp⟩ := hm _ _ _ _ _ hbody
    cases res with
    | ok a => exact ⟨used, hused, hok _ _ _ _ hp⟩
    | error e => exact ⟨used, hused, hpass _ _ _ _ (hnot e rfl) hp⟩
  · obtain ⟨used, hused, hp⟩ := hm _ _ _ _ _ hbody
    obtain ⟨used', hused', hq⟩ := hk e c hclause _ _ _ _ _ hthen
    refine ⟨used ++ used', ?_, hcaught _ _ _ _ _ _ _ _ hclause hp hq⟩
    rw [hused, hused', List.append_assoc]

theorem ends_get {P : σ → List ρ → Except ε σ → σ → Prop} (h : ∀ s, P s [] (.ok s) s) :
    (get : Script σ ρ ε σ).Ends P := by
  intro s rs res s' rest hrun
  cases hrun
  exact ⟨[], rfl, h s⟩

theorem ends_modify {f : σ → σ} {P : σ → List ρ → Except ε Unit → σ → Prop}
    (h : ∀ s, P s [] (.ok ()) (f s)) : (modify f : Script σ ρ ε Unit).Ends P := by
  intro s rs res s' rest hrun
  cases hrun
  exact ⟨[], rfl, h s⟩

/-- A sequence has a result when both parts have one. -/
theorem bind_eq_ok {m : Script σ ρ ε α} {k : α → Script σ ρ ε β} {s s' : σ} {rs rest : List ρ}
    {b : β} : bind m k s rs = some (.ok b, s', rest) ↔
      ∃ a s₁ rest₁, m s rs = some (.ok a, s₁, rest₁) ∧ k a s₁ rest₁ = some (.ok b, s', rest) := by
  constructor
  · intro h
    rcases bind_cases h with ⟨e, _, he⟩ | hthen
    · cases he
    · exact hthen
  · rintro ⟨a, s₁, rest₁, hfirst, h⟩
    rw [bind_of_ok hfirst, h]

/-! ## How many answers a program takes -/

/-- With `n` answers at hand the program ends, and it takes no more of them. -/
def EndsWithin (n : Nat) (m : Script σ ρ ε α) : Prop :=
  ∀ s rs, n ≤ rs.length → ∃ res s' rest, m s rs = some (res, s', rest) ∧
    rs.length ≤ n + rest.length

theorem within_pure (n : Nat) (a : α) : (pure a : Script σ ρ ε α).EndsWithin n :=
  fun s rs _ => ⟨.ok a, s, rs, rfl, Nat.le_add_left _ _⟩

theorem within_raise (n : Nat) (e : ε) : (raise e : Script σ ρ ε α).EndsWithin n :=
  fun s rs _ => ⟨.error e, s, rs, rfl, Nat.le_add_left _ _⟩

theorem within_get (n : Nat) : (get : Script σ ρ ε σ).EndsWithin n :=
  fun s rs _ => ⟨.ok s, s, rs, rfl, Nat.le_add_left _ _⟩

theorem within_modify (n : Nat) (f : σ → σ) : (modify f : Script σ ρ ε Unit).EndsWithin n :=
  fun s rs _ => ⟨.ok (), f s, rs, rfl, Nat.le_add_left _ _⟩

theorem within_next : (next : Script σ ρ ε ρ).EndsWithin 1 := by
  intro s rs hlen
  cases rs with
  | nil => cases hlen
  | cons r rest => exact ⟨.ok r, s, rest, rfl, Nat.le_of_eq (Nat.add_comm rest.length 1)⟩

theorem within_bind {n k : Nat} {m : Script σ ρ ε α} {f : α → Script σ ρ ε β}
    (hm : m.EndsWithin n) (hf : ∀ a, (f a).EndsWithin k) : (bind m f).EndsWithin (n + k) := by
  intro s rs hlen
  obtain ⟨res, s₁, rest₁, hfirst, htaken⟩ := hm s rs (by omega)
  unfold bind
  rw [hfirst]
  cases res with
  | error e => exact ⟨.error e, s₁, rest₁, rfl, by omega⟩
  | ok a =>
    obtain ⟨res', s₂, rest₂, hthen, htaken'⟩ := hf a s₁ rest₁ (by omega)
    exact ⟨res', s₂, rest₂, hthen, by omega⟩

theorem within_handle {n k : Nat} {m : Script σ ρ ε α} {clause : ε → Option (Script σ ρ ε α)}
    (hm : m.EndsWithin n) (hk : ∀ e c, clause e = some c → c.EndsWithin k) :
    (handle m clause).EndsWithin (n + k) := by
  intro s rs hlen
  obtain ⟨res, s₁, rest₁, hfirst, htaken⟩ := hm s rs (by omega)
  unfold handle
  rw [hfirst]
  cases res with
  | ok a => exact ⟨.ok a, s₁, rest₁, rfl, by omega⟩
  | error e =>
    cases hclause : clause e with
    | none =>
      refine ⟨.error e, s₁, rest₁, ?_, by omega⟩
      simp only [hclause]
    | some c =>
      obtain ⟨res', s₂, rest₂, hthen, htaken'⟩ := hk e c hclause s₁ rest₁ (by omega)
      refine ⟨res', s₂, rest₂, ?_, by omega⟩
      simp only [hclause]
      exact hthen

/-! ## Programs that do not look at the state -/

/-- It is the same program over every state, and leaves it alone. -/
def Ignores (m : Script σ ρ ε α) (m₀ : Script Unit ρ ε α) : Prop :=
  ∀ s rs, m s rs = (m₀ () rs).map (fun out => (out.1, s, out.2.2))

theorem ignores_pure (a : α) : Ignores (pure a : Script σ ρ ε α) (pure a) := fun _ _ => rfl

theorem ignores_raise (e : ε) : Ignores (raise e : Script σ ρ ε α) (raise e) := fun _ _ => rfl

theorem ignores_next : Ignores (next : Script σ ρ ε ρ) next := by
  intro s rs
  cases rs <;> rfl

theorem ignores_bind {m : Script σ ρ ε α} {m₀ : Script Unit ρ ε α} {k : α → Script σ ρ ε β}
    {k₀ : α → Script Unit ρ ε β} (hm : Ignores m m₀) (hk : ∀ a, Ignores (k a) (k₀ a)) :
    Ignores (bind m k) (bind m₀ k₀) := by
  intro s rs
  unfold bind
  rw [hm s rs]
  cases m₀ () rs with
  | none => rfl
  | some out =>
    obtain ⟨res, s₀, rest⟩ := out
    cases res with
    | error e => rfl
    | ok a => exact hk a s rest

theorem ignores_handle {m : Script σ ρ ε α} {m₀ : Script Unit ρ ε α}
    {clause : ε → Option (Script σ ρ ε α)} {clause₀ : ε → Option (Script Unit ρ ε α)}
    (hm : Ignores m m₀) (hnone : ∀ e, clause e = none ↔ clause₀ e = none)
    (hk : ∀ e k k₀, clause e = some k → clause₀ e = some k₀ → Ignores k k₀) :
    Ignores (handle m clause) (handle m₀ clause₀) := by
  intro s rs
  unfold handle
  rw [hm s rs]
  cases m₀ () rs with
  | none => rfl
  | some out =>
    obtain ⟨res, s₀, rest⟩ := out
    cases res with
    | ok a => rfl
    | error e =>
      simp only [Option.map_some]
      cases hclause : clause e with
      | none => rw [(hnone e).mp hclause]; rfl
      | some k =>
        obtain ⟨k₀, hclause₀⟩ : ∃ k₀, clause₀ e = some k₀ :=
          Option.ne_none_iff_exists'.mp (fun h => by rw [(hnone e).mpr h] at hclause; cases hclause)
        rw [hclause₀]
        exact hk e k k₀ hclause hclause₀ s rest

/-- What it comes to over the state at hand. -/
theorem Ignores.eq_some {m : Script σ ρ ε α} {m₀ : Script Unit ρ ε α} (h : Ignores m m₀)
    {s s' : σ} {rs rest : List ρ} {res : Except ε α} :
    m s rs = some (res, s', rest) ↔ s' = s ∧ m₀ () rs = some (res, (), rest) := by
  rw [h s rs]
  cases m₀ () rs with
  | none => simp
  | some out =>
    obtain ⟨res₀, s₀, rest₀⟩ := out
    simp only [Option.map_some, Option.some.injEq, Prod.mk.injEq]
    constructor
    · rintro ⟨rfl, rfl, rfl⟩
      exact ⟨rfl, rfl, trivial, rfl⟩
    · rintro ⟨rfl, rfl, _, rfl⟩
      exact ⟨rfl, rfl, rfl⟩

/-! ## Bad answers -/

section Escapes
variable (bad : ρ → Prop) (escape proper : ε → Prop) (keeps : σ → σ → Prop)

/-- The program keeps what it must of the state, raises an escaping error exactly when one of the
    answers it has taken is bad, and all other errors it raises are proper. -/
structure EscapesAt (s : σ) (used : List ρ) (res : Except ε α) (s' : σ) : Prop where
  state : keeps s s'
  escaped : (∃ e, res = .error e ∧ escape e) ↔ ∃ r ∈ used, bad r
  raised : ∀ e, res = .error e → escape e ∨ proper e

/-- It does so whenever it ends, and it ends within `n` answers. -/
structure Escapes (n : Nat) (m : Script σ ρ ε α) : Prop where
  within : m.EndsWithin n
  ends : m.Ends (EscapesAt bad escape proper keeps)

variable {bad escape proper keeps}

/-- Nothing escapes from a program that has a result. -/
theorem EscapesAt.no_bad {s s' : σ} {used : List ρ} {a : α}
    (h : EscapesAt bad escape proper keeps s used (.ok a) s') : ¬ ∃ r ∈ used, bad r := by
  rw [← h.escaped]
  rintro ⟨e, he, _⟩
  cases he

theorem bad_append {used used' : List ρ} (hnone : ¬ ∃ r ∈ used, bad r) :
    (∃ r ∈ used ++ used', bad r) ↔ ∃ r ∈ used', bad r := by
  constructor
  · rintro ⟨r, hr, hbad⟩
    rcases List.mem_append.mp hr with hr | hr
    · exact absurd ⟨r, hr, hbad⟩ hnone
    · exact ⟨r, hr, hbad⟩
  · rintro ⟨r, hr, hbad⟩
    exact ⟨r, List.mem_append_right _ hr, hbad⟩

theorem Escapes.le {n n' : Nat} {m : Script σ ρ ε α} (h : m.Escapes bad escape proper keeps n)
    (hle : n ≤ n') : m.Escapes bad escape proper keeps n' := by
  refine ⟨?_, h.ends⟩
  intro s rs hlen
  obtain ⟨res, s', rest, hrun, htaken⟩ := h.within s rs (Nat.le_trans hle hlen)
  exact ⟨res, s', rest, hrun, by omega⟩

theorem Escapes.weaken {keeps' : σ → σ → Prop} {n : Nat} {m : Script σ ρ ε α}
    (h : m.Escapes bad escape proper keeps n) (hkeeps : ∀ s s', keeps s s' → keeps' s s') :
    m.Escapes bad escape proper keeps' n := by
  refine ⟨h.within, ?_⟩
  intro s rs res s' rest hrun
  obtain ⟨used, hused, hat⟩ := h.ends s rs res s' rest hrun
  exact ⟨used, hused, hkeeps s s' hat.state, hat.escaped, hat.raised⟩

theorem escapes_modify {n : Nat} {f : σ → σ} (h : ∀ s, keeps s (f s)) :
    (modify f : Script σ ρ ε Unit).Escapes bad escape proper keeps n :=
  ⟨within_modify n f, ends_modify (fun s => ⟨h s, by simp, by simp⟩)⟩

variable [IsPreorder σ keeps]

theorem escapes_pure (n : Nat) (a : α) :
    (pure a : Script σ ρ ε α).Escapes bad escape proper keeps n :=
  ⟨within_pure n a, ends_pure (fun s => ⟨Std.Refl.refl s, by simp, by simp⟩)⟩

theorem escapes_get (n : Nat) : (get : Script σ ρ ε σ).Escapes bad escape proper keeps n :=
  ⟨within_get n, ends_get (fun s => ⟨Std.Refl.refl s, by simp, by simp⟩)⟩

theorem escapes_raise (n : Nat) {e : ε} (hnot : ¬ escape e) (hproper : proper e) :
    (raise e : Script σ ρ ε α).Escapes bad escape proper keeps n := by
  refine ⟨within_raise n e, ends_raise (fun s => ⟨Std.Refl.refl s, ?_, ?_⟩)⟩
  · simpa using hnot
  · intro e' he
    cases he
    exact Or.inr hproper

theorem escapes_bind {n k : Nat} {m : Script σ ρ ε α} {f : α → Script σ ρ ε β}
    (hm : m.Escapes bad escape proper keeps n) (hf : ∀ a, (f a).Escapes bad escape proper keeps k) :
    (bind m f).Escapes bad escape proper keeps (n + k) := by
  refine ⟨within_bind hm.within (fun a => (hf a).within), ?_⟩
  refine ends_bind hm.ends (fun a => (hf a).ends) ?_ ?_
  · intro s used e s' hp
    refine ⟨hp.state, ?_, ?_⟩
    · rw [← hp.escaped]
      simp
    · intro e' he
      cases he
      exact hp.raised e rfl
  · intro s used a s' used' res s'' hp hq
    refine ⟨IsTrans.trans _ _ _ hp.state hq.state, ?_, hq.raised⟩
    rw [hq.escaped, bad_append hp.no_bad]

/-- A clause that catches no escaping error lets the bad answers through. -/
theorem escapes_handle {n k : Nat} {m : Script σ ρ ε α} {clause : ε → Option (Script σ ρ ε α)}
    (hm : m.Escapes bad escape proper keeps n)
    (hk : ∀ e c, clause e = some c → ¬ escape e ∧ c.Escapes bad escape proper keeps k) :
    (handle m clause).Escapes bad escape proper keeps (n + k) := by
  refine ⟨within_handle hm.within (fun e c he => (hk e c he).2.within), ?_⟩
  refine ends_handle hm.ends (fun e c he => (hk e c he).2.ends) (fun _ _ _ _ hp => hp)
    (fun _ _ _ _ _ hp => hp) ?_
  intro s used e c s' used' res s'' hclause hp hq
  refine ⟨IsTrans.trans _ _ _ hp.state hq.state, ?_, hq.raised⟩
  have hnone : ¬ ∃ r ∈ used, bad r := by
    rw [← hp.escaped]
    rintro ⟨e', he, hescape⟩
    cases he
    exact (hk e c hclause).1 hescape
  rw [hq.escaped, bad_append hnone]

end Escapes

end Script

end Foundation
