import Mathlib.Tactic.Common

/- Statements with exceptions. A statement changes the locals, and ends normally, with a `break`,
   with a `return` or with an exception. `forElse` is the loop whose `else` clause a `break` skips.

   `forElse_rule` is the rule of that loop: an invariant over the items that are left, and a
   postcondition for each way out of the body. -/
namespace Foundation

/-- How a statement ends. -/
inductive Flow (ε β : Type) where
  | normal
  | brk
  | ret (value : β)
  | exc (error : ε)
  deriving DecidableEq, Repr

/-- A statement over the locals `σ`, which raises `ε` and returns `β`. -/
def Stmt (σ ε β : Type) : Type := σ → σ × Flow ε β

namespace Stmt
variable {σ ε β α ι : Type}

def skip : Stmt σ ε β := fun s => (s, .normal)

def assign (f : σ → σ) : Stmt σ ε β := fun s => (f s, .normal)

def breakLoop : Stmt σ ε β := fun s => (s, .brk)

def return_ (value : β) : Stmt σ ε β := fun s => (s, .ret value)

def raise (error : ε) : Stmt σ ε β := fun s => (s, .exc error)

/-- The value of an expression is used; its exception is that of the statement. -/
def evaluate (expr : σ → σ × Except ε α) (use : α → Stmt σ ε β) : Stmt σ ε β := fun s =>
  match expr s with
  | (s', .ok value) => use value s'
  | (s', .error error) => (s', .exc error)

def seq (first second : Stmt σ ε β) : Stmt σ ε β := fun s =>
  match first s with
  | (s', .normal) => second s'
  | out => out

def cond (test : Bool) (yes no : Stmt σ ε β) : Stmt σ ε β := if test then yes else no

/-- A statement that looks at the locals first. -/
def reading (view : σ → α) (k : α → Stmt σ ε β) : Stmt σ ε β := fun s => k (view s) s

/-- `try` with `except` clauses; `none` where no clause is for the exception. -/
def tryExcept (body : Stmt σ ε β) (clauses : ε → Option (Stmt σ ε β)) : Stmt σ ε β := fun s =>
  match body s with
  | (s', .exc error) =>
    match clauses error with
    | some clause => clause s'
    | none => (s', .exc error)
  | out => out

/-- `for item in items: body`, with an `else` clause for the end of the items. -/
def forElse (body : ι → Stmt σ ε β) (orElse : Stmt σ ε β) : List ι → Stmt σ ε β
  | [] => orElse
  | item :: items => fun s =>
    match body item s with
    | (s', .normal) => forElse body orElse items s'
    | (s', .brk) => (s', .normal)      -- past the `else` clause
    | out => out

@[simp] theorem seq_normal {first second : Stmt σ ε β} {s s' : σ} (h : first s = (s', .normal)) :
    seq first second s = second s' := by
  unfold seq
  rw [h]

@[simp] theorem seq_ret {first second : Stmt σ ε β} {s s' : σ} {value : β}
    (h : first s = (s', .ret value)) : seq first second s = (s', .ret value) := by
  unfold seq
  rw [h]

@[simp] theorem seq_exc {first second : Stmt σ ε β} {s s' : σ} {error : ε}
    (h : first s = (s', .exc error)) : seq first second s = (s', .exc error) := by
  unfold seq
  rw [h]

section ForElse
variable {body : ι → Stmt σ ε β} {orElse : Stmt σ ε β} {item : ι} {items : List ι} {s s' : σ}

theorem forElse_normal (h : body item s = (s', .normal)) :
    forElse body orElse (item :: items) s = forElse body orElse items s' := by
  rw [forElse]
  simp only [h]

theorem forElse_brk (h : body item s = (s', .brk)) :
    forElse body orElse (item :: items) s = (s', .normal) := by
  rw [forElse]
  simp only [h]

theorem forElse_ret {value : β} (h : body item s = (s', .ret value)) :
    forElse body orElse (item :: items) s = (s', .ret value) := by
  rw [forElse]
  simp only [h]

theorem forElse_exc {error : ε} (h : body item s = (s', .exc error)) :
    forElse body orElse (item :: items) s = (s', .exc error) := by
  rw [forElse]
  simp only [h]

end ForElse

/-- What a turn of a loop leads to: the invariant for the items that are left, or what has to hold
    after the loop. -/
def AfterTurn (inv : σ → Prop) (post : σ → Flow ε β → Prop) : σ × Flow ε β → Prop
  | (s, .normal) => inv s
  | (s, .brk) => post s .normal
  | (s, out) => post s out

theorem AfterTurn.mono {inv inv' : σ → Prop} {post post' : σ → Flow ε β → Prop}
    {end_ : σ × Flow ε β} (h : AfterTurn inv post end_) (hinv : ∀ s, inv s → inv' s)
    (hpost : ∀ s out, post s out → post' s out) : AfterTurn inv' post' end_ := by
  obtain ⟨s, out⟩ := end_
  cases out with
  | normal => exact hinv s h
  | brk => exact hpost s .normal h
  | ret value => exact hpost s (.ret value) h
  | exc error => exact hpost s (.exc error) h

/-- The rule of the loop. -/
theorem forElse_rule {body : ι → Stmt σ ε β} {orElse : Stmt σ ε β} (inv : List ι → σ → Prop)
    (post : σ → Flow ε β → Prop)
    (hturn : ∀ item items s, inv (item :: items) s → AfterTurn (inv items) post (body item s))
    (helse : ∀ s, inv [] s → post (orElse s).1 (orElse s).2) {items : List ι} {s : σ}
    (h : inv items s) :
    post (forElse body orElse items s).1 (forElse body orElse items s).2 := by
  induction items generalizing s with
  | nil => exact helse s h
  | cons item items ih =>
    have hafter := hturn item items s h
    cases hbody : body item s with
    | mk s' out =>
      rw [hbody] at hafter
      cases out with
      | normal =>
        rw [forElse_normal hbody]
        exact ih hafter
      | brk =>
        rw [forElse_brk hbody]
        exact hafter
      | ret value =>
        rw [forElse_ret hbody]
        exact hafter
      | exc error =>
        rw [forElse_exc hbody]
        exact hafter

end Stmt

end Foundation
