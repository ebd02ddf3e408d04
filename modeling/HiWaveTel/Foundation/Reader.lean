import Mathlib.Data.List.Infix
import Mathlib.Data.List.TakeWhile

/- Readers of a format. A `Reader` takes a value off the front of a list of tokens and leaves
   the rest. One that calls itself is a `fix`: `fix_eq` unfolds it when each call comes after a
   token was taken (`Productive`), so that no proof sees how the recursion is cut off.

   `Reads` is what a round trip needs of a reader: the value it takes off a printed text, in
   front of all that may follow. `Yields` is the other side, what holds of every value that a
   reader gives. `items` reads a list with its separators. -/
namespace Foundation

/-- The value that is read, and what is left. -/
def Reader (τ α : Type) : Type := List τ → Option (α × List τ)

namespace Reader
variable {τ α β : Type}

def pure (a : α) : Reader τ α := fun s => some (a, s)

def bind (p : Reader τ α) (k : α → Reader τ β) : Reader τ β := fun s =>
  match p s with
  | none => none
  | some (a, rest) => k a rest

instance instMonadReader : Monad (Reader τ) where
  pure := pure
  bind := bind

def fail : Reader τ α := fun _ => none

/-- The next token. -/
def next : Reader τ τ
  | [] => none
  | c :: rest => some (c, rest)

def takeWhile (p : τ → Bool) : Reader τ (List τ) := fun s => some (s.takeWhile p, s.dropWhile p)

/-- Exactly these tokens. -/
def literal [BEq τ] (w : List τ) : Reader τ (List τ) := fun s =>
  if w.isPrefixOf s then some (w, s.drop w.length) else none

/-- The second one, where the first one fails. -/
def orElse (p q : Reader τ α) : Reader τ α := fun s => (p s).or (q s)

/-- Nothing is taken where the reader fails. -/
def optional (p : Reader τ (List α)) : Reader τ (List α) := orElse p (pure [])

theorem bind_eq_some {p : Reader τ α} {k : α → Reader τ β} {s rest : List τ} {b : β}
    (h : bind p k s = some (b, rest)) :
    ∃ a mid, p s = some (a, mid) ∧ k a mid = some (b, rest) := by
  unfold bind at h
  split at h
  · cases h
  · next a mid hfirst => exact ⟨a, mid, hfirst, h⟩

theorem orElse_eq_some {p q : Reader τ α} {s rest : List τ} {a : α}
    (h : orElse p q s = some (a, rest)) : p s = some (a, rest) ∨ q s = some (a, rest) := by
  unfold orElse at h
  cases hp : p s with
  | none =>
    rw [hp] at h
    exact Or.inr h
  | some r =>
    rw [hp] at h
    exact Or.inl h

/-! ## What is taken -/

def Keeps (p : Reader τ α) : Prop := ∀ s a rest, p s = some (a, rest) → rest.length ≤ s.length

def Shrinks (p : Reader τ α) : Prop := ∀ s a rest, p s = some (a, rest) → rest.length < s.length

theorem Shrinks.keeps {p : Reader τ α} (h : Shrinks p) : Keeps p :=
  fun s a rest hread => Nat.le_of_lt (h s a rest hread)

theorem shrinks_fail : Shrinks (fail : Reader τ α) := by
  intro s a rest h
  cases h

theorem keeps_pure (a : α) : Keeps (pure a : Reader τ α) := by
  intro s b rest h
  cases h
  exact Nat.le_refl _

theorem shrinks_next : Shrinks (next : Reader τ τ) := by
  intro s c rest h
  cases s with
  | nil => cases h
  | cons d s =>
    cases h
    exact Nat.lt_succ_self _

theorem keeps_takeWhile (p : τ → Bool) : Keeps (takeWhile p) := by
  intro s u rest h
  cases h
  exact (List.dropWhile_suffix p).length_le

theorem keeps_literal [BEq τ] (w : List τ) : Keeps (literal w) := by
  intro s u rest h
  unfold literal at h
  split at h
  · cases h
    rw [List.length_drop]
    exact Nat.sub_le _ _
  · cases h

theorem shrinks_literal [BEq τ] [LawfulBEq τ] {w : List τ} (hw : w ≠ []) :
    Shrinks (literal w) := by
  intro s u rest h
  unfold literal at h
  split at h
  · next hpre =>
    cases h
    have hle := (List.isPrefixOf_iff_prefix.mp hpre).length_le
    have hpos := List.length_pos_of_ne_nil hw
    rw [List.length_drop]
    omega
  · cases h

theorem keeps_bind {p : Reader τ α} {k : α → Reader τ β} (hp : Keeps p) (hk : ∀ a, Keeps (k a)) :
    Keeps (p >>= k) := by
  intro s b rest h
  obtain ⟨a, mid, hfirst, hsecond⟩ := bind_eq_some h
  exact Nat.le_trans (hk a mid b rest hsecond) (hp s a mid hfirst)

theorem shrinks_bind {p : Reader τ α} {k : α → Reader τ β} (hp : Shrinks p)
    (hk : ∀ a, Keeps (k a)) : Shrinks (p >>= k) := by
  intro s b rest h
  obtain ⟨a, mid, hfirst, hsecond⟩ := bind_eq_some h
  exact Nat.lt_of_le_of_lt (hk a mid b rest hsecond) (hp s a mid hfirst)

/-- The second part takes something. -/
theorem shrinks_then {p : Reader τ α} {k : α → Reader τ β} (hp : Keeps p)
    (hk : ∀ a, Shrinks (k a)) : Shrinks (p >>= k) := by
  intro s b rest h
  obtain ⟨a, mid, hfirst, hsecond⟩ := bind_eq_some h
  exact Nat.lt_of_lt_of_le (hk a mid b rest hsecond) (hp s a mid hfirst)

theorem keeps_orElse {p q : Reader τ α} (hp : Keeps p) (hq : Keeps q) : Keeps (orElse p q) := by
  intro s a rest h
  cases orElse_eq_some h with
  | inl h => exact hp s a rest h
  | inr h => exact hq s a rest h

theorem shrinks_orElse {p q : Reader τ α} (hp : Shrinks p) (hq : Shrinks q) :
    Shrinks (orElse p q) := by
  intro s a rest h
  cases orElse_eq_some h with
  | inl h => exact hp s a rest h
  | inr h => exact hq s a rest h

theorem keeps_ite {c : Prop} [Decidable c] {p q : Reader τ α} (hp : Keeps p) (hq : Keeps q) :
    Keeps (if c then p else q) := by
  split
  · exact hp
  · exact hq

theorem keeps_optional {p : Reader τ (List α)} (hp : Keeps p) : Keeps (optional p) :=
  keeps_orElse hp (keeps_pure [])

/-! ## Readers that call themselves -/

/-- The reader with that many calls of itself. -/
def approx (f : Reader τ α → Reader τ α) : Nat → Reader τ α
  | 0 => fail
  | n + 1 => f (approx f n)

/-- No more calls are needed than there are tokens. -/
def fix (f : Reader τ α → Reader τ α) : Reader τ α := fun s => approx f (s.length + 1) s

def AgreeBelow (n : Nat) (p q : Reader τ α) : Prop := ∀ s, s.length < n → p s = q s

/-- It takes something before it calls what it is given. -/
structure Productive (f : Reader τ α → Reader τ α) : Prop where
  shrinks : ∀ p, Shrinks p → Shrinks (f p)
  agree : ∀ n p q, Shrinks p → Shrinks q → AgreeBelow n p q → AgreeBelow (n + 1) (f p) (f q)

theorem agree_refl (n : Nat) (p : Reader τ α) : AgreeBelow n p p := fun _ _ => rfl

theorem AgreeBelow.le {n m : Nat} {p q : Reader τ α} (h : AgreeBelow m p q) (hle : n ≤ m) :
    AgreeBelow n p q :=
  fun s hs => h s (Nat.lt_of_lt_of_le hs hle)

theorem agree_bind {n : Nat} {p q : Reader τ α} {k l : α → Reader τ β} (hp : Keeps p)
    (hpq : AgreeBelow n p q) (hkl : ∀ a, AgreeBelow n (k a) (l a)) :
    AgreeBelow n (p >>= k) (q >>= l) := by
  intro s hs
  show bind p k s = bind q l s
  unfold bind
  rw [← hpq s hs]
  cases hread : p s with
  | none => rfl
  | some r => exact hkl r.1 r.2 (Nat.lt_of_le_of_lt (hp s r.1 r.2 hread) hs)

/-- After a token the other parts may differ on the longer texts. -/
theorem agree_after {n : Nat} {p : Reader τ α} {k l : α → Reader τ β} (hp : Shrinks p)
    (hkl : ∀ a, AgreeBelow n (k a) (l a)) : AgreeBelow (n + 1) (p >>= k) (p >>= l) := by
  intro s hs
  show bind p k s = bind p l s
  unfold bind
  cases hread : p s with
  | none => rfl
  | some r =>
    exact hkl r.1 r.2 (Nat.lt_of_lt_of_le (hp s r.1 r.2 hread) (Nat.le_of_lt_succ hs))

theorem agree_ite {n : Nat} {c : Prop} [Decidable c] {p q p' q' : Reader τ α}
    (hp : AgreeBelow n p p') (hq : AgreeBelow n q q') :
    AgreeBelow n (if c then p else q) (if c then p' else q') := by
  split
  · exact hp
  · exact hq

theorem agree_orElse {n : Nat} {p q p' q' : Reader τ α} (hp : AgreeBelow n p p')
    (hq : AgreeBelow n q q') : AgreeBelow n (orElse p q) (orElse p' q') := by
  intro s hs
  unfold orElse
  rw [hp s hs, hq s hs]

section Fix
variable {f : Reader τ α → Reader τ α} (hf : Productive f)
include hf

theorem shrinks_approx (n : Nat) : Shrinks (approx f n) := by
  induction n with
  | zero => exact shrinks_fail
  | succ n ih => exact hf.shrinks _ ih

theorem shrinks_fix : Shrinks (fix f) :=
  fun s a rest h => shrinks_approx hf (s.length + 1) s a rest h

theorem approx_agree {n m : Nat} (hle : n ≤ m) : AgreeBelow n (approx f n) (approx f m) := by
  induction n generalizing m with
  | zero => exact fun s hs => absurd hs (Nat.not_lt_zero _)
  -- each call of itself comes behind a token, so one call more is enough for one token more
  | succ n ih =>
    cases m with
    | zero => cases hle
    | succ m =>
      exact hf.agree n _ _ (shrinks_approx hf n) (shrinks_approx hf m)
        (ih (Nat.le_of_succ_le_succ hle))

/-- The reader is what it calls. -/
theorem fix_eq : fix f = f (fix f) := by
  funext s
  refine hf.agree s.length _ _ (shrinks_approx hf s.length) (shrinks_fix hf) ?_ s
    (Nat.lt_succ_self _)
  -- `fix` allows fewer calls on a shorter text, and there they are enough
  intro t ht
  exact (approx_agree hf ht t (Nat.lt_succ_self _)).symm

end Fix

/-! ## What is read -/

/-- In front of whatever may follow, the reader takes this text for this value. -/
def Reads (p : Reader τ α) (u : List τ) (a : α) (follow : List τ → Prop) : Prop :=
  ∀ rest, follow rest → p (u ++ rest) = some (a, rest)

/-- What follows begins with no token of the kind. -/
def HeadNot (kind : τ → Bool) (rest : List τ) : Prop := ∀ c ∈ rest.head?, kind c = false

theorem headNot_cons {kind : τ → Bool} {c : τ} {rest : List τ} :
    HeadNot kind (c :: rest) ↔ kind c = false := by
  simp [HeadNot]

theorem Reads.weaken {p : Reader τ α} {u : List τ} {a : α} {follow follow' : List τ → Prop}
    (h : Reads p u a follow) (hle : ∀ rest, follow' rest → follow rest) : Reads p u a follow' :=
  fun rest hrest => h rest (hle rest hrest)

theorem reads_pure (a : α) (follow : List τ → Prop) : Reads (pure a) [] a follow := fun _ _ => rfl

theorem reads_bind {p : Reader τ α} {k : α → Reader τ β} {u v : List τ} {a : α} {b : β}
    {follow follow' : List τ → Prop} (hp : Reads p u a follow) (hk : Reads (k a) v b follow')
    (hnext : ∀ rest, follow' rest → follow (v ++ rest)) : Reads (p >>= k) (u ++ v) b follow' := by
  intro rest hrest
  show bind p k (u ++ v ++ rest) = _
  unfold bind
  rw [List.append_assoc, hp (v ++ rest) (hnext rest hrest)]
  exact hk rest hrest

/-- The first part takes nothing back: it reads in front of any text. -/
theorem reads_seq {p : Reader τ α} {k : α → Reader τ β} {u v : List τ} {a : α} {b : β}
    {follow : List τ → Prop} (hp : Reads p u a fun _ => True) (hk : Reads (k a) v b follow) :
    Reads (p >>= k) (u ++ v) b follow :=
  reads_bind hp hk (fun _ _ => trivial)

/-- The last part only makes a value of what was read. -/
theorem reads_map {p : Reader τ α} {k : α → Reader τ β} {u : List τ} {a : α} {b : β}
    {follow : List τ → Prop} (hp : Reads p u a follow) (hk : ∀ s, k a s = some (b, s)) :
    Reads (p >>= k) u b follow := by
  intro rest hrest
  show bind p k (u ++ rest) = _
  unfold bind
  rw [hp rest hrest]
  exact hk rest

theorem reads_next (c : τ) : Reads next [c] c fun _ => True := fun _ _ => rfl

theorem reads_literal [BEq τ] [LawfulBEq τ] (w : List τ) :
    Reads (literal w) w w fun _ => True := by
  intro rest _
  unfold literal
  rw [if_pos (List.isPrefixOf_iff_prefix.mpr (List.prefix_append w rest)), List.drop_left]

theorem reads_takeWhile {kind : τ → Bool} {u : List τ} (h : ∀ c ∈ u, kind c = true) :
    Reads (takeWhile kind) u u (HeadNot kind) := by
  intro rest hrest
  unfold takeWhile
  rw [List.takeWhile_append_of_pos h, List.dropWhile_append_of_pos h]
  cases rest with
  | nil => simp
  | cons c rest =>
    have hc : kind c = false := hrest c rfl
    rw [List.takeWhile_cons_of_neg (by simp [hc]), List.dropWhile_cons_of_neg (by simp [hc]),
      List.append_nil]

theorem reads_orElse {p q : Reader τ α} {u : List τ} {a : α} {follow : List τ → Prop}
    (h : Reads p u a follow) : Reads (orElse p q) u a follow := by
  intro rest hrest
  unfold orElse
  rw [h rest hrest]
  rfl

theorem reads_second {p q : Reader τ α} {u : List τ} {a : α} {follow : List τ → Prop}
    (hfail : ∀ rest, follow rest → p (u ++ rest) = none) (h : Reads q u a follow) :
    Reads (orElse p q) u a follow := by
  intro rest hrest
  unfold orElse
  -- the first reader fails, so the second one begins where it began
  rw [hfail rest hrest, h rest hrest]
  rfl

/-- Nothing is read where nothing can be. -/
theorem reads_absent {p : Reader τ (List α)} {follow : List τ → Prop}
    (hfail : ∀ rest, follow rest → p rest = none) : Reads (optional p) [] [] follow :=
  reads_second hfail (reads_pure [] follow)

theorem bind_fail {p : Reader τ α} {k : α → Reader τ β} {s : List τ} (h : p s = none) :
    (p >>= k) s = none := by
  show bind p k s = none
  unfold bind
  rw [h]

theorem literal_fail [BEq τ] [LawfulBEq τ] {c : τ} {w s : List τ} (h : s.head? ≠ some c) :
    literal (c :: w) s = none := by
  unfold literal
  rw [if_neg]
  intro hpre
  obtain ⟨rest, hrest⟩ := List.isPrefixOf_iff_prefix.mp hpre
  rw [← hrest] at h
  exact h rfl

theorem orElse_fail {p q : Reader τ α} {s : List τ} (hp : p s = none) (hq : q s = none) :
    orElse p q s = none := by
  unfold orElse
  rw [hp, hq]
  rfl

/-! ## Every value that is read -/

def Yields (p : Reader τ α) (P : α → Prop) : Prop := ∀ s a rest, p s = some (a, rest) → P a

theorem yields_pure {a : α} {P : α → Prop} (h : P a) : Yields (pure a : Reader τ α) P := by
  intro s b rest hread
  cases hread
  exact h

theorem yields_fail {P : α → Prop} : Yields (fail : Reader τ α) P := by
  intro s a rest h
  cases h

theorem yields_true (p : Reader τ α) : Yields p fun _ => True := fun _ _ _ _ => trivial

theorem yields_takeWhile (kind : τ → Bool) :
    Yields (takeWhile kind) fun u => ∀ c ∈ u, kind c = true := by
  intro s u rest h
  cases h
  exact fun c hc => List.mem_takeWhile_imp hc

theorem yields_literal [BEq τ] (w : List τ) : Yields (literal w) (· = w) := by
  intro s u rest h
  unfold literal at h
  split at h
  · cases h
    rfl
  · cases h

theorem yields_bind {p : Reader τ α} {k : α → Reader τ β} {P : α → Prop} {Q : β → Prop}
    (hp : Yields p P) (hk : ∀ a, P a → Yields (k a) Q) : Yields (p >>= k) Q := by
  intro s b rest h
  obtain ⟨a, mid, hfirst, hsecond⟩ := bind_eq_some h
  exact hk a (hp s a mid hfirst) mid b rest hsecond

theorem yields_ite {c : Prop} [Decidable c] {p q : Reader τ α} {P : α → Prop}
    (hp : c → Yields p P) (hq : ¬ c → Yields q P) : Yields (if c then p else q) P := by
  split
  · next hc => exact hp hc
  · next hc => exact hq hc

theorem yields_orElse {p q : Reader τ α} {P : α → Prop} (hp : Yields p P) (hq : Yields q P) :
    Yields (orElse p q) P := by
  intro s a rest h
  cases orElse_eq_some h with
  | inl h => exact hp s a rest h
  | inr h => exact hq s a rest h

theorem yields_optional {p : Reader τ (List α)} {P : List α → Prop} (hp : Yields p P)
    (hnil : P []) : Yields (optional p) P :=
  yields_orElse hp (yields_pure hnil)

theorem yields_fix {f : Reader τ α → Reader τ α} {P : α → Prop}
    (h : ∀ p, Yields p P → Yields (f p) P) : Yields (fix f) P := by
  have happrox : ∀ n, Yields (approx f n) P := by
    intro n
    induction n with
    | zero => exact yields_fail
    | succ n ih => exact h _ ih
  exact fun s a rest hread => happrox (s.length + 1) s a rest hread

/-! ## Items and what is between them -/

/-- One item, and more as long as another follows. -/
def itemsStep (item : Reader τ α) (more : Reader τ Bool) (rest : Reader τ (List α)) :
    Reader τ (List α) := do
  let a ← item
  let again ← more
  if again then do
    let as ← rest
    pure (a :: as)
  else pure [a]

def items (item : Reader τ α) (more : Reader τ Bool) : Reader τ (List α) :=
  fix (itemsStep item more)

section Items
variable {item : Reader τ α} {more : Reader τ Bool}

theorem productive_items (hitem : Shrinks item) (hmore : Keeps more) :
    Productive (itemsStep item more) where
  shrinks p hp := by
    refine shrinks_bind hitem (fun a => keeps_bind hmore (fun again => ?_))
    cases again with
    | false => exact keeps_pure [a]
    | true => exact keeps_bind hp.keeps (fun as => keeps_pure (a :: as))
  agree n p q hp _ hpq := by
    refine agree_after hitem (fun a => agree_bind hmore (agree_refl n more) (fun again => ?_))
    cases again with
    | false => exact agree_refl n _
    | true => exact agree_bind hp.keeps hpq (fun as => agree_refl n _)

theorem shrinks_items (hitem : Shrinks item) (hmore : Keeps more) : Shrinks (items item more) :=
  shrinks_fix (productive_items hitem hmore)

theorem items_eq (hitem : Shrinks item) (hmore : Keeps more) :
    items item more = itemsStep item more (items item more) :=
  fix_eq (productive_items hitem hmore)

theorem agree_items {n : Nat} {p q : Reader τ α} (hp : Shrinks p) (hq : Shrinks q)
    (hmore : Keeps more) (hpq : AgreeBelow n p q) :
    AgreeBelow n (items p more) (items q more) := by
  induction n with
  | zero => exact fun s hs => absurd hs (Nat.not_lt_zero _)
  | succ n ih =>
    have hrest := ih (hpq.le (Nat.le_succ n))
    rw [items_eq hp hmore, items_eq hq hmore]
    intro s hs
    show bind p _ s = bind q _ s
    unfold bind
    rw [← hpq s hs]
    cases hread : p s with
    | none => rfl
    | some r =>
      have hlt : r.2.length < n :=
        Nat.lt_of_lt_of_le (hp s r.1 r.2 hread) (Nat.le_of_lt_succ hs)
      refine agree_bind hmore (agree_refl n more) (fun again => ?_) r.2 hlt
      cases again with
      | false => exact agree_refl n _
      | true => exact agree_bind (shrinks_items hp hmore).keeps hrest (fun as => agree_refl n _)

theorem yields_items {P : α → Prop} (hitem : Yields item P) :
    Yields (items item more) fun as => ∀ a ∈ as, P a := by
  refine yields_fix (fun rest hrest => ?_)
  refine yields_bind hitem (fun a ha => yields_bind (yields_true more) (fun again _ => ?_))
  cases again with
  | false => exact yields_pure (List.forall_mem_singleton.mpr ha)
  | true => exact yields_bind hrest (fun as has => yields_pure (List.forall_mem_cons.mpr ⟨ha, has⟩))

/-- The printed items with their separators, up to the end. -/
theorem reads_items {print : α → List τ} {sep close : List τ} {follow starts : List τ → Prop}
    (hshrinks : Shrinks item) (hkeeps : Keeps more) (hsep : Reads more sep true starts)
    (hclose : Reads more close false fun _ => True) (hfollowSep : ∀ rest, follow (sep ++ rest))
    (hfollowClose : ∀ rest, follow (close ++ rest)) {as : List α} (hne : as ≠ [])
    (hitem : ∀ a ∈ as, Reads item (print a) a follow)
    (hstarts : ∀ a ∈ as, ∀ rest, starts (print a ++ rest)) :
    Reads (items item more) (List.intercalate sep (as.map print) ++ close) as fun _ => True := by
  induction as with
  | nil => exact absurd rfl hne
  | cons a as ih =>
    rw [items_eq hshrinks hkeeps]
    cases as with
    | nil =>
      have hone : List.intercalate sep ([a].map print) = print a := by simp [List.intercalate]
      rw [hone]
      refine reads_bind (hitem a (List.mem_singleton_self a)) ?_ (fun rest _ => hfollowClose rest)
      exact reads_map hclose (fun _ => rfl)
    | cons b as =>
      have htail := ih (List.cons_ne_nil b as) (fun x hx => hitem x (List.mem_cons_of_mem a hx))
        (fun x hx => hstarts x (List.mem_cons_of_mem a hx))
      have hsplit : List.intercalate sep ((a :: b :: as).map print) ++ close =
          print a ++ (sep ++ (List.intercalate sep ((b :: as).map print) ++ close)) := by
        simp [List.intercalate]
      rw [hsplit]
      refine reads_bind (hitem a List.mem_cons_self) ?_ (fun rest _ => ?_)
      · refine reads_bind hsep (reads_map htail (fun _ => rfl)) (fun rest _ => ?_)
        have hb := hstarts b (List.mem_cons_of_mem a List.mem_cons_self)
        cases as with
        | nil =>
          have hone : List.intercalate sep ([b].map print) = print b := by simp [List.intercalate]
          rw [hone, List.append_assoc]
          exact hb _
        | cons c as =>
          have hmore : List.intercalate sep ((b :: c :: as).map print) =
              print b ++ (sep ++ List.intercalate sep ((c :: as).map print)) := by
            simp [List.intercalate]
          rw [hmore, List.append_assoc, List.append_assoc]
          exact hb _
      · rw [List.append_assoc]
        exact hfollowSep _

end Items
end Reader
end Foundation
