import Mathlib.Data.List.Basic
import Mathlib.Tactic.Common

/- Programs that ask one question after the other and go on with the answers. The questions are
   data, so a run is known by its transcript: what was asked, and what was answered.

   `Runs` is every run of a program, whatever the answers are. `Ensures` is the triple of it, with
   a rule for each way to build a program; `AsksOnly` and `CountsWithin` are two instances, which
   say what is asked and how often. `result` and `transcript` are the one run in which every
   question has a fixed answer. -/
namespace Foundation

inductive Dialogue (κ ρ α : Type) where
  | done (a : α)
  | ask (question : κ) (next : ρ → Dialogue κ ρ α)

namespace Dialogue
variable {κ ρ α β : Type}

def bind : Dialogue κ ρ α → (α → Dialogue κ ρ β) → Dialogue κ ρ β
  | .done a, f => f a
  | .ask question next, f => .ask question (fun answer => (next answer).bind f)

instance : Monad (Dialogue κ ρ) where
  pure := .done
  bind := bind

/-! ## Runs -/

/-- The program ends with `a` after these questions and answers. -/
inductive Runs : Dialogue κ ρ α → List (κ × ρ) → α → Prop where
  | done (a : α) : Runs (.done a) [] a
  | ask {question : κ} {next : ρ → Dialogue κ ρ α} {answer : ρ} {tr : List (κ × ρ)} {a : α}
      (h : Runs (next answer) tr a) : Runs (.ask question next) ((question, answer) :: tr) a

theorem runs_done {a b : α} {tr : List (κ × ρ)} :
    Runs (.done a) tr b ↔ tr = [] ∧ b = a := by
  constructor
  · intro h
    cases h
    exact ⟨rfl, rfl⟩
  · rintro ⟨rfl, rfl⟩
    exact .done b

theorem runs_ask {question : κ} {next : ρ → Dialogue κ ρ α} {tr : List (κ × ρ)} {a : α} :
    Runs (.ask question next) tr a ↔
      ∃ answer tr', tr = (question, answer) :: tr' ∧ Runs (next answer) tr' a := by
  constructor
  · intro h
    cases h with
    | @ask _ _ answer tr' _ h => exact ⟨answer, tr', rfl, h⟩
  · rintro ⟨answer, tr', rfl, h⟩
    exact .ask h

/-- A run of a sequence is one of its first part, and one of what that leads to. -/
theorem runs_bind {m : Dialogue κ ρ α} {f : α → Dialogue κ ρ β} {tr : List (κ × ρ)} {b : β} :
    Runs (m >>= f) tr b ↔ ∃ t₁ a t₂, tr = t₁ ++ t₂ ∧ Runs m t₁ a ∧ Runs (f a) t₂ b := by
  show Runs (m.bind f) tr b ↔ _
  induction m generalizing tr with
  | done a =>
    constructor
    · exact fun h => ⟨[], a, tr, rfl, .done a, h⟩
    · rintro ⟨t₁, a', t₂, rfl, hfirst, h⟩
      obtain ⟨rfl, rfl⟩ := runs_done.mp hfirst
      exact h
  | ask question next ih =>
    constructor
    · intro h
      obtain ⟨answer, tr', rfl, hnext⟩ := runs_ask.mp h
      obtain ⟨t₁, a, t₂, rfl, hfirst, hthen⟩ := (ih answer).mp hnext
      exact ⟨(question, answer) :: t₁, a, t₂, rfl, .ask hfirst, hthen⟩
    · rintro ⟨t₁, a, t₂, rfl, hfirst, hthen⟩
      obtain ⟨answer, tr', rfl, hnext⟩ := runs_ask.mp hfirst
      exact .ask ((ih answer).mpr ⟨tr', a, t₂, rfl, hnext, hthen⟩)

/-! ## What holds of every run -/

def Ensures (m : Dialogue κ ρ α) (P : List (κ × ρ) → α → Prop) : Prop :=
  ∀ tr a, Runs m tr a → P tr a

theorem ensures_done {a : α} {P : List (κ × ρ) → α → Prop} (h : P [] a) :
    (pure a : Dialogue κ ρ α).Ensures P := by
  intro tr b hrun
  obtain ⟨rfl, rfl⟩ := runs_done.mp hrun
  exact h

theorem ensures_ask {question : κ} {next : ρ → Dialogue κ ρ α} {P : List (κ × ρ) → α → Prop}
    (h : ∀ answer, (next answer).Ensures (fun tr a => P ((question, answer) :: tr) a)) :
    (ask question next).Ensures P := by
  intro tr a hrun
  obtain ⟨answer, tr', rfl, hnext⟩ := runs_ask.mp hrun
  exact h answer tr' a hnext

theorem ensures_bind {m : Dialogue κ ρ α} {f : α → Dialogue κ ρ β} {P : List (κ × ρ) → α → Prop}
    {Q : α → List (κ × ρ) → β → Prop} {R : List (κ × ρ) → β → Prop} (hm : m.Ensures P)
    (hf : ∀ a, (f a).Ensures (Q a))
    (hthen : ∀ t₁ a t₂ b, P t₁ a → Q a t₂ b → R (t₁ ++ t₂) b) : (m >>= f).Ensures R := by
  intro tr b hrun
  obtain ⟨t₁, a, t₂, rfl, hfirst, hnext⟩ := runs_bind.mp hrun
  exact hthen t₁ a t₂ b (hm t₁ a hfirst) (hf a t₂ b hnext)

/-- All questions are of a kind. -/
def AsksOnly (P : κ → Prop) (m : Dialogue κ ρ α) : Prop :=
  m.Ensures (fun tr _ => ∀ x ∈ tr, P x.1)

section AsksOnly
variable {P : κ → Prop}

theorem asksOnly_done (a : α) : (pure a : Dialogue κ ρ α).AsksOnly P :=
  ensures_done (fun _ hx => absurd hx List.not_mem_nil)

theorem asksOnly_ask {question : κ} {next : ρ → Dialogue κ ρ α} (hquestion : P question)
    (h : ∀ answer, (next answer).AsksOnly P) : (ask question next).AsksOnly P := by
  apply ensures_ask
  intro answer tr a hrun x hx
  cases hx with
  | head => exact hquestion
  | tail _ hx => exact h answer tr a hrun x hx

theorem asksOnly_bind {m : Dialogue κ ρ α} {f : α → Dialogue κ ρ β} (hm : m.AsksOnly P)
    (hf : ∀ a, (f a).AsksOnly P) : (m >>= f).AsksOnly P := by
  refine ensures_bind hm hf ?_
  intro t₁ a t₂ b h₁ h₂ x hx
  exact (List.mem_append.mp hx).elim (h₁ x) (h₂ x)

theorem AsksOnly.mono {Q : κ → Prop} {m : Dialogue κ ρ α} (h : m.AsksOnly P)
    (hPQ : ∀ q, P q → Q q) : m.AsksOnly Q :=
  fun tr a hrun x hx => hPQ x.1 (h tr a hrun x hx)

end AsksOnly

/-! ## What comes before a question -/

/-- Each question of a transcript is one that what came before it justifies. -/
def Justified (J : List (κ × ρ) → κ → Prop) : List (κ × ρ) → List (κ × ρ) → Prop
  | _, [] => True
  | seen, x :: tr => J seen x.1 ∧ Justified J (seen ++ [x]) tr

section Justified
variable {J : List (κ × ρ) → κ → Prop}

theorem justified_append {seen t₁ t₂ : List (κ × ρ)} :
    Justified J seen (t₁ ++ t₂) ↔ Justified J seen t₁ ∧ Justified J (seen ++ t₁) t₂ := by
  induction t₁ generalizing seen with
  | nil => simp [Justified]
  | cons x t₁ ih => simp [Justified, ih, and_assoc]

theorem justified_of_forall {seen tr : List (κ × ρ)} (h : ∀ x ∈ tr, ∀ seen, J seen x.1) :
    Justified J seen tr := by
  induction tr generalizing seen with
  | nil => trivial
  | cons x tr ih =>
    obtain ⟨hx, htr⟩ := List.forall_mem_cons.mp h
    exact ⟨hx seen, ih htr⟩

/-- The justifications stay when more has been asked before. -/
def Lasting (J : List (κ × ρ) → κ → Prop) : Prop :=
  ∀ seen seen' question, seen ⊆ seen' → J seen question → J seen' question

theorem Justified.mono (hJ : Lasting J) {seen seen' tr : List (κ × ρ)} (h : Justified J seen tr)
    (hsub : seen ⊆ seen') : Justified J seen' tr := by
  induction tr generalizing seen seen' with
  | nil => trivial
  | cons x tr ih =>
    refine ⟨hJ seen seen' x.1 hsub h.1, ih h.2 ?_⟩
    exact List.append_subset.mpr
      ⟨fun y hy => List.mem_append_left _ (hsub hy), List.subset_append_right seen' [x]⟩

/-- All questions of a program are justified, after what was asked before it. -/
def AsksJustified (J : List (κ × ρ) → κ → Prop) (seen : List (κ × ρ)) (m : Dialogue κ ρ α) : Prop :=
  m.Ensures (fun tr _ => Justified J seen tr)

theorem justified_done (seen : List (κ × ρ)) (a : α) :
    (pure a : Dialogue κ ρ α).AsksJustified J seen := ensures_done trivial

theorem justified_of_asksOnly {P : κ → Prop} {m : Dialogue κ ρ α} (h : m.AsksOnly P)
    (hP : ∀ q, P q → ∀ seen, J seen q) (seen : List (κ × ρ)) : m.AsksJustified J seen :=
  fun tr a hrun => justified_of_forall (fun x hx => hP x.1 (h tr a hrun x hx))

/-- The second part may need what the first one was told. -/
theorem justified_bind_told {seen : List (κ × ρ)} {m : Dialogue κ ρ α} {f : α → Dialogue κ ρ β}
    (hm : m.AsksJustified J seen)
    (hf : ∀ a tr, Runs m tr a → (f a).AsksJustified J (seen ++ tr)) :
    (m >>= f).AsksJustified J seen := by
  intro tr b hrun
  obtain ⟨t₁, a, t₂, rfl, hfirst, hnext⟩ := runs_bind.mp hrun
  exact justified_append.mpr ⟨hm t₁ a hfirst, hf a t₁ hfirst t₂ b hnext⟩

theorem justified_bind (hJ : Lasting J) {seen : List (κ × ρ)} {m : Dialogue κ ρ α}
    {f : α → Dialogue κ ρ β} (hm : m.AsksJustified J seen)
    (hf : ∀ a, (f a).AsksJustified J seen) : (m >>= f).AsksJustified J seen :=
  justified_bind_told hm
    (fun a _ _ t₂ b hnext => (hf a t₂ b hnext).mono hJ (List.subset_append_left _ _))

end Justified

/-- Where the transcript meets a condition, at most `n` of its entries are counted. -/
def CountsWithin (C : List (κ × ρ) → Prop) (p : κ × ρ → Bool) (n : Nat) (m : Dialogue κ ρ α) :
    Prop :=
  m.Ensures (fun tr _ => C tr → tr.countP p ≤ n)

section CountsWithin
variable {C : List (κ × ρ) → Prop} {p : κ × ρ → Bool} {n k : Nat}

theorem countsWithin_done (n : Nat) (a : α) : (pure a : Dialogue κ ρ α).CountsWithin C p n :=
  ensures_done (fun _ => Nat.zero_le n)

theorem countsWithin_bind (hC : ∀ t₁ t₂, C (t₁ ++ t₂) → C t₁ ∧ C t₂) {m : Dialogue κ ρ α}
    {f : α → Dialogue κ ρ β} (hm : m.CountsWithin C p n) (hf : ∀ a, (f a).CountsWithin C p k) :
    (m >>= f).CountsWithin C p (n + k) := by
  refine ensures_bind hm hf ?_
  intro t₁ a t₂ b h₁ h₂ h
  obtain ⟨hC₁, hC₂⟩ := hC t₁ t₂ h
  rw [List.countP_append]
  exact Nat.add_le_add (h₁ hC₁) (h₂ hC₂)

theorem CountsWithin.mono {m : Dialogue κ ρ α} (h : m.CountsWithin C p n) (hle : n ≤ k) :
    m.CountsWithin C p k :=
  fun tr a hrun hC => Nat.le_trans (h tr a hrun hC) hle

/-- Questions that are not counted. -/
theorem countP_of_asksOnly {P : κ → Prop} {m : Dialogue κ ρ α} (h : m.AsksOnly P)
    (hp : ∀ x, P x.1 → p x = false) {tr : List (κ × ρ)} {a : α} (hrun : Runs m tr a) :
    tr.countP p = 0 := by
  rw [List.countP_eq_zero]
  intro x hx hcounted
  rw [hp x (h tr a hrun x hx)] at hcounted
  cases hcounted

theorem countsWithin_of_asksOnly {P : κ → Prop} {m : Dialogue κ ρ α} (h : m.AsksOnly P)
    (hp : ∀ x, P x.1 → p x = false) : m.CountsWithin C p 0 :=
  fun _ _ hrun _ => Nat.le_of_eq (countP_of_asksOnly h hp hrun)

end CountsWithin

/-! ## Fixed answers -/

section World
variable (world : κ → ρ)

def result : Dialogue κ ρ α → α
  | .done a => a
  | .ask question next => (next (world question)).result

def transcript : Dialogue κ ρ α → List (κ × ρ)
  | .done _ => []
  | .ask question next => (question, world question) :: (next (world question)).transcript

theorem runs_transcript (m : Dialogue κ ρ α) : Runs m (m.transcript world) (m.result world) := by
  induction m with
  | done a => exact .done a
  | ask question next ih => exact .ask (ih (world question))

@[simp] theorem result_pure (a : α) : (pure a : Dialogue κ ρ α).result world = a := rfl

@[simp] theorem result_bind (m : Dialogue κ ρ α) (f : α → Dialogue κ ρ β) :
    (m >>= f).result world = (f (m.result world)).result world := by
  show (m.bind f).result world = _
  induction m with
  | done a => rfl
  | ask question next ih => exact ih (world question)

@[simp] theorem transcript_bind (m : Dialogue κ ρ α) (f : α → Dialogue κ ρ β) :
    (m >>= f).transcript world =
      m.transcript world ++ (f (m.result world)).transcript world := by
  show (m.bind f).transcript world = _
  induction m with
  | done a => rfl
  | ask question next ih => exact congrArg (_ :: ·) (ih (world question))

end World

end Dialogue

end Foundation
