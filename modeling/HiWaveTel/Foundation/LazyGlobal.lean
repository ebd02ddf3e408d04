import HiWaveTel.Foundation.Run

/- A global that the first caller fills under a lock, with a check before the lock and a
   second one under it. The object that fills it is put there before its threads are started,
   and each start of a thread may fail.

   `LazyInv` holds along every run of any number of callers: at most one object is made, and
   every caller that gets one gets that one (`LazyInv.returned`). The lock does not stop the
   callers (`LazyInv.progress`). An object whose start failed keeps the threads it has for good
   (`failed_stays`). -/
namespace Foundation

/-- Where a getter asks whether it is enabled at all. -/
inductive Gate where
  | absent
  | beforeRead
  | afterRead
  deriving DecidableEq, Repr

/-- What a getter makes of its configuration, once it has the lock. -/
structure LazyGetter (κ : Type) where
  gate : Gate
  refuses : κ → Bool
  size : κ → Nat

/-- The threads of an object: how many it is to have, and has; and whether its start failed. -/
structure Pool where
  size : Nat
  started : Nat
  failed : Bool
  deriving DecidableEq, Repr

/-- Where a call of the getter is. -/
inductive GetterPhase (κ : Type) where
  | idle
  | waiting                     -- it has read that the global is empty
  | locked
  | building (config : κ)       -- the second read found it empty too
  | starting (o : Nat)
  | reading                     -- the read that it returns
  | returned (value : Option Nat)
  | raised

structure LazyState (τ κ : Type) where
  cell : Option Nat
  lock : Option τ
  made : Nat
  pool : Nat → Pool
  phase : τ → GetterPhase κ

/-- One step of a caller, with the choices of the environment. -/
inductive LazyAction (τ κ : Type) where
  | enter (t : τ) (enabled : Bool)
  | acquire (t : τ)
  | recheck (t : τ) (config : Option κ)       -- `none` when it cannot be read
  | construct (t : τ) (fails : Bool)
  | startThread (t : τ) (fails : Bool)
  | finishStart (t : τ)
  | read (t : τ)

namespace GetterPhase
variable {κ : Type}

/-- No call is going on. -/
def isOver : GetterPhase κ → Bool
  | idle | returned _ | raised => true
  | _ => false

/-- The caller has the lock. -/
def isInside : GetterPhase κ → Bool
  | locked | building _ | starting _ => true
  | _ => false

end GetterPhase

section Step
variable {τ κ : Type} [DecidableEq τ]

def LazyState.setPhase (s : LazyState τ κ) (t : τ) (p : GetterPhase κ) : LazyState τ κ :=
  { s with phase := Function.update s.phase t p }

/-- The `with` block ends, by an exception too. -/
def LazyState.leave (s : LazyState τ κ) (t : τ) (p : GetterPhase κ) : LazyState τ κ :=
  { s.setPhase t p with lock := none }

def LazyState.setPool (s : LazyState τ κ) (o : Nat) (p : Pool) : LazyState τ κ :=
  { s with pool := Function.update s.pool o p }

/-- What the first read leads to. -/
def firstRead {κ : Type} (gate : Gate) (enabled : Bool) (cell : Option Nat) : GetterPhase κ :=
  match gate, enabled, cell with
  | .beforeRead, false, _ => .returned none
  | _, _, some _ => .reading
  | .afterRead, false, none => .returned none
  | _, _, none => .waiting

def lazyStep (g : LazyGetter κ) (s : LazyState τ κ) : LazyAction τ κ → Option (LazyState τ κ)
  | .enter t enabled =>
    if (s.phase t).isOver then some (s.setPhase t (firstRead g.gate enabled s.cell)) else none
  | .acquire t =>
    match s.phase t, s.lock with
    | .waiting, none => some { s.setPhase t .locked with lock := some t }
    | _, _ => none
  | .recheck t config =>
    match s.phase t with
    | .locked =>
      match s.cell, config with
      | some _, _ => some (s.leave t .reading)
      | none, none => some (s.leave t .raised)
      | none, some config =>
        if g.refuses config then some (s.leave t (.returned none))
        else some (s.setPhase t (.building config))
    | _ => none
  | .construct t fails =>
    match s.phase t with
    | .building config =>
      if fails then some (s.leave t .raised)
      else
        some { (s.setPool s.made ⟨g.size config, 0, false⟩).setPhase t (.starting s.made) with
               cell := some s.made, made := s.made + 1 }
    | _ => none
  | .startThread t fails =>
    match s.phase t with
    | .starting o =>
      if (s.pool o).started < (s.pool o).size then
        if fails then some ((s.setPool o { s.pool o with failed := true }).leave t .raised)
        else some (s.setPool o { s.pool o with started := (s.pool o).started + 1 })
      else none
    | _ => none
  | .finishStart t =>
    match s.phase t with
    | .starting o =>
      if (s.pool o).started < (s.pool o).size then none else some (s.leave t .reading)
    | _ => none
  | .read t =>
    match s.phase t with
    | .reading => some (s.setPhase t (.returned s.cell))
    | _ => none

/-- Before the first call. -/
def LazyState.start : LazyState τ κ :=
  ⟨none, none, 0, fun _ => ⟨0, 0, false⟩, fun _ => .idle⟩

/-- Every way a step can go, with all it changes. -/
inductive LazyMove (g : LazyGetter κ) (s : LazyState τ κ) : LazyAction τ κ → LazyState τ κ → Prop
  | enter {t enabled} (hover : (s.phase t).isOver = true) :
      LazyMove g s (.enter t enabled) (s.setPhase t (firstRead g.gate enabled s.cell))
  | acquire {t} (hp : s.phase t = .waiting) (hfree : s.lock = none) :
      LazyMove g s (.acquire t) { s.setPhase t .locked with lock := some t }
  | found {t config o} (hp : s.phase t = .locked) (hcell : s.cell = some o) :
      LazyMove g s (.recheck t config) (s.leave t .reading)
  | gaveUp {t config p} (hp : s.phase t = .locked) (hcell : s.cell = none)
      (hphase : p = .raised ∨ p = .returned none) :
      LazyMove g s (.recheck t config) (s.leave t p)
  | build {t config} (hp : s.phase t = .locked) (hcell : s.cell = none)
      (hconfig : g.refuses config = false) :
      LazyMove g s (.recheck t (some config)) (s.setPhase t (.building config))
  | constructFailed {t config} (hp : s.phase t = .building config) :
      LazyMove g s (.construct t true) (s.leave t .raised)
  | constructed {t config} (hp : s.phase t = .building config) :
      LazyMove g s (.construct t false)
        { (s.setPool s.made ⟨g.size config, 0, false⟩).setPhase t (.starting s.made) with
          cell := some s.made, made := s.made + 1 }
  | startFailed {t o} (hp : s.phase t = .starting o) :
      LazyMove g s (.startThread t true)
        ((s.setPool o { s.pool o with failed := true }).leave t .raised)
  | started {t o} (hp : s.phase t = .starting o) (hlt : (s.pool o).started < (s.pool o).size) :
      LazyMove g s (.startThread t false)
        (s.setPool o { s.pool o with started := (s.pool o).started + 1 })
  | finished {t o} (hp : s.phase t = .starting o) (hall : (s.pool o).size ≤ (s.pool o).started) :
      LazyMove g s (.finishStart t) (s.leave t .reading)
  | read {t} (hp : s.phase t = .reading) :
      LazyMove g s (.read t) (s.setPhase t (.returned s.cell))

theorem lazyStep_cases {g : LazyGetter κ} {s u : LazyState τ κ} {a : LazyAction τ κ}
    (h : lazyStep g s a = some u) : LazyMove g s a u := by
  cases a with
  | enter t enabled =>
    simp only [lazyStep] at h
    split at h
    · next hover => cases h; exact .enter hover
    · cases h
  | acquire t =>
    simp only [lazyStep] at h
    split at h
    · next hp hfree => cases h; exact .acquire hp hfree
    · cases h
  | recheck t config =>
    simp only [lazyStep] at h
    split at h
    · next hp =>
      split at h
      · next hcell => cases h; exact .found hp hcell
      · next hcell => cases h; exact .gaveUp hp hcell (Or.inl rfl)
      · next hcell =>
        split at h
        · cases h; exact .gaveUp hp hcell (Or.inr rfl)
        · next hconfig => cases h; exact .build hp hcell (Bool.not_eq_true _ ▸ hconfig)
    · cases h
  | construct t fails =>
    simp only [lazyStep] at h
    split at h
    · next hp =>
      cases fails with
      | true => cases h; exact .constructFailed hp
      | false => cases h; exact .constructed hp
    · cases h
  | startThread t fails =>
    simp only [lazyStep] at h
    split at h
    · next hp =>
      split at h
      · next hlt =>
        cases fails with
        | true => cases h; exact .startFailed hp
        | false => cases h; exact .started hp hlt
      · cases h
    · cases h
  | finishStart t =>
    simp only [lazyStep] at h
    split at h
    · next hp =>
      split at h
      · cases h
      · next hall => cases h; exact .finished hp (Nat.le_of_not_lt hall)
    · cases h
  | read t =>
    simp only [lazyStep] at h
    split at h
    · next hp => cases h; exact .read hp
    · cases h

end Step

/-! ## The invariant -/

section Invariant
variable {τ κ : Type}

/-- What the phase of a call says about the global. -/
def PhaseOk (g : LazyGetter κ) (s : LazyState τ κ) : GetterPhase κ → Prop
  | .building config => s.cell = none ∧ g.refuses config = false
  | .starting o => s.cell = some o ∧ (s.pool o).failed = false
  | .reading => s.cell ≠ none
  | .returned (some o) => s.cell = some o
  | _ => True

/-- Who is inside, has the lock, and the other way round. -/
def LockOk (s : LazyState τ κ) : Prop :=
  ∀ t, (s.phase t).isInside = true ↔ s.lock = some t

/-- The object has a size that the getter does not refuse, and all its threads once its start
    is through. -/
def PoolOk (g : LazyGetter κ) (s : LazyState τ κ) : Prop :=
  ∀ o, s.cell = some o → (∃ config, g.refuses config = false ∧ (s.pool o).size = g.size config) ∧
    (s.pool o).started ≤ (s.pool o).size ∧
    ((s.pool o).failed = false → (∀ t, s.phase t ≠ .starting o) →
      (s.pool o).started = (s.pool o).size)

structure LazyInv (g : LazyGetter κ) (s : LazyState τ κ) : Prop where
  lock : LockOk s
  phases : ∀ t, PhaseOk g s (s.phase t)
  cell : (s.cell = none ∧ s.made = 0) ∨ (s.cell = some 0 ∧ s.made = 1)
  pools : PoolOk g s

variable {g : LazyGetter κ} {s : LazyState τ κ}

theorem lazyInv_start (g : LazyGetter κ) : LazyInv g (LazyState.start : LazyState τ κ) := by
  refine ⟨?_, fun _ => trivial, Or.inl ⟨rfl, rfl⟩, ?_⟩
  · exact fun _ => iff_of_false Bool.noConfusion (Option.some_ne_none _).symm
  · exact fun _ h => absurd h.symm (Option.some_ne_none _)

/-- A start that failed is over. -/
theorem phaseOk_setPool {p : GetterPhase κ} (h : PhaseOk g s p) {o : Nat} {pool : Pool}
    (hpool : p = .starting o → pool.failed = false) : PhaseOk g (s.setPool o pool) p := by
  cases p with
  | starting o' =>
    refine ⟨h.1, ?_⟩
    show (Function.update s.pool o pool o').failed = false
    by_cases ho : o' = o
    · rw [ho, Function.update_self]
      exact hpool (congrArg _ ho)
    · rw [Function.update_of_ne ho]
      exact h.2
  | returned value =>
    cases value with
    | none => trivial
    | some o' => exact h
  | building config => exact h
  | reading => exact h
  | idle | waiting | locked | raised => trivial

/-- The callers outside say nothing about an empty global. -/
theorem phaseOk_of_empty {p : GetterPhase κ} (h : PhaseOk g s p) (hcell : s.cell = none)
    (hout : p.isInside = false) (u : LazyState τ κ) : PhaseOk g u p := by
  cases p with
  | starting o => cases hout
  | building config => cases hout
  | reading => exact absurd hcell h
  | returned value =>
    cases value with
    | none => trivial
    | some o => exact absurd (hcell.symm.trans h).symm (Option.some_ne_none o)
  | idle | waiting | locked | raised => trivial

/-- Two callers inside are one. -/
theorem LockOk.eq (h : LockOk s) {t v : τ} (ht : (s.phase t).isInside = true)
    (hv : (s.phase v).isInside = true) : v = t :=
  Option.some.inj (((h v).mp hv).symm.trans ((h t).mp ht))

variable [DecidableEq τ]

/-- After `setPhase`, a phase is the new one or one of another caller. -/
theorem setPhase_phase (s : LazyState τ κ) (t v : τ) (p : GetterPhase κ) :
    (v = t ∧ (s.setPhase t p).phase v = p) ∨ (v ≠ t ∧ (s.setPhase t p).phase v = s.phase v) :=
  update_cases s.phase t p v

theorem lockOk_setPhase (h : LockOk s) {t : τ} {p : GetterPhase κ}
    (hp : p.isInside = (s.phase t).isInside) : LockOk (s.setPhase t p) := by
  intro v
  obtain ⟨rfl, he⟩ | ⟨_, he⟩ := setPhase_phase s t v p
  · rw [he, hp]
    exact h v
  · rw [he]
    exact h v

theorem lockOk_acquire (h : LockOk s) {t : τ} (hfree : s.lock = none) {p : GetterPhase κ}
    (hp : p.isInside = true) : LockOk { s.setPhase t p with lock := some t } := by
  intro v
  obtain ⟨rfl, he⟩ | ⟨hne, he⟩ := setPhase_phase s t v p
  · exact iff_of_true ((congrArg _ he).trans hp) rfl
  · have hout : ¬ (s.phase v).isInside = true := by
      rw [h v, hfree]
      exact (Option.some_ne_none _).symm
    refine iff_of_false (fun hin => hout ((congrArg _ he).symm.trans hin)) ?_
    exact fun heq => hne (Option.some.inj heq).symm

theorem lockOk_leave (h : LockOk s) {t : τ} (hin : (s.phase t).isInside = true)
    {p : GetterPhase κ} (hp : p.isInside = false) : LockOk (s.leave t p) := by
  intro v
  refine iff_of_false ?_ (Option.some_ne_none _).symm
  obtain ⟨rfl, he⟩ | ⟨hne, he⟩ := setPhase_phase s t v p
  · show ¬ ((s.setPhase v p).phase v).isInside = true
    rw [he, hp]
    exact Bool.false_ne_true
  · show ¬ ((s.setPhase t p).phase v).isInside = true
    rw [he]
    exact fun hv => hne (h.eq hin hv)

/-- Nothing but one phase changes. -/
theorem phases_setPhase (h : ∀ v, PhaseOk g s (s.phase v)) {t : τ} {p : GetterPhase κ}
    (hp : PhaseOk g s p) (v : τ) : PhaseOk g s ((s.setPhase t p).phase v) := by
  obtain ⟨_, he⟩ | ⟨_, he⟩ := setPhase_phase s t v p
  · rw [he]
    exact hp
  · rw [he]
    exact h v

/-- A phase outside `start` may change, and the end of a start that is through. -/
theorem poolOk_setPhase (h : PoolOk g s) {t : τ} {p : GetterPhase κ}
    (hp : ∀ o, s.phase t = .starting o → p = .starting o ∨ (s.pool o).size ≤ (s.pool o).started) :
    PoolOk g (s.setPhase t p) := by
  intro o ho
  obtain ⟨hsize, hle, hall⟩ := h o ho
  refine ⟨hsize, hle, ?_⟩
  intro hok hnone
  by_cases hstarting : s.phase t = .starting o
  · cases hp o hstarting with
    | inl hkeeps =>
      refine absurd ?_ (hnone t)
      show Function.update s.phase t p t = _
      rw [Function.update_self, hkeeps]
    | inr hthrough => exact Nat.le_antisymm hle hthrough
  · refine hall hok ?_
    intro v hv
    obtain ⟨rfl, _⟩ | ⟨_, he⟩ := setPhase_phase s t v p
    · exact hstarting hv
    · exact hnone v (he.trans hv)

theorem poolOk_elsewhere (h : PoolOk g s) {t : τ} (ht : ∀ o, s.phase t ≠ .starting o)
    (p : GetterPhase κ) : PoolOk g (s.setPhase t p) :=
  poolOk_setPhase h (fun o ho => absurd ho (ht o))

theorem firstRead_cases (gate : Gate) (enabled : Bool) (cell : Option Nat) :
    (firstRead gate enabled cell : GetterPhase κ) = .returned none ∨
      (firstRead gate enabled cell : GetterPhase κ) = .waiting ∨
      (firstRead gate enabled cell : GetterPhase κ) = .reading ∧ cell ≠ none := by
  cases gate <;> cases enabled <;> cases cell <;> simp [firstRead]

theorem lazyInv_step {u : LazyState τ κ} {a : LazyAction τ κ} (h : LazyInv g s)
    (hstep : lazyStep g s a = some u) : LazyInv g u := by
  cases lazyStep_cases hstep with
  | @enter t enabled hover =>
    have hout : (s.phase t).isInside = false := by
      cases hphase : s.phase t <;> rw [hphase] at hover <;> first | rfl | cases hover
    have hnot : ∀ o, s.phase t ≠ .starting o := by
      intro o ho
      rw [ho] at hover
      cases hover
    have hread := firstRead_cases (κ := κ) g.gate enabled s.cell
    refine ⟨lockOk_setPhase h.lock ?_, phases_setPhase h.phases ?_, h.cell,
      poolOk_elsewhere h.pools hnot _⟩
    · rw [hout]
      obtain he | he | ⟨he, _⟩ := hread <;> rw [he] <;> rfl
    · obtain he | he | ⟨he, hcell⟩ := hread <;> rw [he]
      · trivial
      · trivial
      · exact hcell
  | @acquire t hp hfree =>
    exact ⟨lockOk_acquire h.lock hfree rfl, phases_setPhase h.phases trivial, h.cell,
      poolOk_elsewhere h.pools (by simp [hp]) _⟩
  | @found t config o hp hcell =>
    refine ⟨lockOk_leave h.lock (by rw [hp]; rfl) rfl, phases_setPhase h.phases ?_, h.cell,
      poolOk_elsewhere h.pools (by simp [hp]) _⟩
    show s.cell ≠ none
    rw [hcell]
    exact Option.some_ne_none o
  | @gaveUp t config p hp hcell hphase =>
    refine ⟨lockOk_leave h.lock (by rw [hp]; rfl) ?_, phases_setPhase h.phases ?_, h.cell,
      poolOk_elsewhere h.pools (by simp [hp]) _⟩
    · obtain he | he := hphase <;> rw [he] <;> rfl
    · obtain he | he := hphase <;> rw [he] <;> trivial
  | @build t config hp hcell hconfig =>
    exact ⟨lockOk_setPhase h.lock (by rw [hp]; rfl), phases_setPhase h.phases ⟨hcell, hconfig⟩,
      h.cell, poolOk_elsewhere h.pools (by simp [hp]) _⟩
  | @constructFailed t config hp =>
    exact ⟨lockOk_leave h.lock (by rw [hp]; rfl) rfl, phases_setPhase h.phases trivial, h.cell,
      poolOk_elsewhere h.pools (by simp [hp]) _⟩
  | @constructed t config hp =>
    have hok := h.phases t
    rw [hp] at hok
    obtain ⟨hcell, hconfig⟩ := hok
    -- the global is empty, so this is the first object
    have hmade : s.made = 0 := by simpa [hcell] using h.cell
    have hlock : LockOk (s.setPhase t (.starting s.made)) :=
      lockOk_setPhase h.lock (by rw [hp]; rfl)
    refine ⟨hlock, ?_, Or.inr ⟨by rw [hmade], by rw [hmade]⟩, ?_⟩
    · intro v
      obtain ⟨_, he⟩ | ⟨hne, he⟩ := setPhase_phase s t v (.starting s.made)
      · show PhaseOk g _ ((s.setPhase t _).phase v)
        rw [he]
        refine ⟨rfl, ?_⟩
        show (Function.update s.pool s.made _ s.made).failed = false
        rw [Function.update_self]
      · show PhaseOk g _ ((s.setPhase t _).phase v)
        rw [he]
        -- the others are outside, as this call has the lock
        apply phaseOk_of_empty (h.phases v) hcell
        apply Bool.eq_false_iff.mpr
        exact fun hin => hne (h.lock.eq (by rw [hp]; rfl) hin)
    · intro o ho
      cases ho
      have hpool : Function.update s.pool s.made ⟨g.size config, 0, false⟩ s.made =
          ⟨g.size config, 0, false⟩ := Function.update_self _ _ _
      refine ⟨⟨config, hconfig, congrArg Pool.size hpool⟩, ?_, ?_⟩
      · exact Nat.le_trans (Nat.le_of_eq (congrArg Pool.started hpool)) (Nat.zero_le _)
      · intro _ hnone
        -- its start has just begun
        refine absurd ?_ (hnone t)
        show Function.update s.phase t _ t = _
        rw [Function.update_self]
  | @startFailed t o hp =>
    have hok := h.phases t
    rw [hp] at hok
    have hlock : LockOk (s.leave t .raised) := lockOk_leave h.lock (by rw [hp]; rfl) rfl
    refine ⟨hlock, ?_, h.cell, ?_⟩
    · intro v
      obtain ⟨_, he⟩ | ⟨hne, he⟩ := setPhase_phase s t v .raised
      · show PhaseOk g _ ((s.setPhase t .raised).phase v)
        rw [he]
        trivial
      · show PhaseOk g _ ((s.setPhase t .raised).phase v)
        rw [he]
        refine phaseOk_setPool (h.phases v) ?_
        intro hv
        -- no other call is in the same start
        exact absurd (h.lock.eq (by rw [hp]; rfl) (by rw [hv]; rfl)) hne
    · intro o' ho'
      cases hok.1.symm.trans ho'
      have hpool : Function.update s.pool o { s.pool o with failed := true } o =
          { s.pool o with failed := true } := Function.update_self _ _ _
      obtain ⟨⟨config, hconfig, hsize⟩, hle, _⟩ := h.pools o ho'
      refine ⟨⟨config, hconfig, (congrArg Pool.size hpool).trans hsize⟩, ?_, ?_⟩
      · show (Function.update s.pool o _ o).started ≤ (Function.update s.pool o _ o).size
        rw [hpool]
        exact hle
      · intro hfalse
        cases (congrArg Pool.failed hpool).symm.trans hfalse
  | @started t o hp hlt =>
    have hok := h.phases t
    rw [hp] at hok
    refine ⟨h.lock, fun v => phaseOk_setPool (h.phases v) (fun _ => hok.2), h.cell, ?_⟩
    intro o' ho'
    cases hok.1.symm.trans ho'
    have hpool : Function.update s.pool o { s.pool o with started := (s.pool o).started + 1 } o =
        { s.pool o with started := (s.pool o).started + 1 } := Function.update_self _ _ _
    obtain ⟨⟨config, hconfig, hsize⟩, _, _⟩ := h.pools o ho'
    refine ⟨⟨config, hconfig, (congrArg Pool.size hpool).trans hsize⟩, ?_,
      fun _ hnone => absurd hp (hnone t)⟩
    show (Function.update s.pool o _ o).started ≤ (Function.update s.pool o _ o).size
    rw [hpool]
    exact hlt
  | @finished t o hp hall =>
    refine ⟨lockOk_leave h.lock (by rw [hp]; rfl) rfl, phases_setPhase h.phases ?_, h.cell,
      poolOk_setPhase h.pools ?_⟩
    · have hok := h.phases t
      rw [hp] at hok
      show s.cell ≠ none
      rw [hok.1]
      exact Option.some_ne_none o
    · intro o' ho
      rw [hp] at ho
      cases ho
      exact Or.inr hall
  | @read t hp =>
    refine ⟨lockOk_setPhase h.lock (by rw [hp]; rfl), phases_setPhase h.phases ?_, h.cell,
      poolOk_elsewhere h.pools (by simp [hp]) _⟩
    cases hcell : s.cell with
    | none => trivial
    | some o => exact hcell

/-- Whoever has the lock can go on, so a call in progress never waits in vain. -/
theorem LazyInv.progress (h : LazyInv g s) {t : τ} (ht : (s.phase t).isOver = false) :
    ∃ a u, lazyStep g s a = some u ∧ ∀ v enabled, a ≠ .enter v enabled := by
  have hinside : ∀ v, (s.phase v).isInside = true →
      ∃ a u, lazyStep g s a = some u ∧ ∀ v enabled, a ≠ .enter v enabled := by
    intro v hv
    cases hphase : s.phase v with
    | locked =>
      cases hcell : s.cell with
      | none => exact ⟨.recheck v none, _, by simp [lazyStep, hphase, hcell]; rfl, nofun⟩
      | some o => exact ⟨.recheck v none, _, by simp [lazyStep, hphase, hcell]; rfl, nofun⟩
    | building config => exact ⟨.construct v false, _, by simp [lazyStep, hphase]; rfl, nofun⟩
    | starting o =>
      by_cases hlt : (s.pool o).started < (s.pool o).size
      · exact ⟨.startThread v false, _, by simp [lazyStep, hphase, hlt]; rfl, nofun⟩
      · exact ⟨.finishStart v, _, by simp [lazyStep, hphase, hlt]; rfl, nofun⟩
    | idle | waiting | reading | returned _ | raised => rw [hphase] at hv; cases hv
  -- a call that waits for the lock goes on when it is free, else its holder does
  cases hphase : s.phase t with
  | waiting =>
    cases hlock : s.lock with
    | none => exact ⟨.acquire t, _, by simp [lazyStep, hphase, hlock]; rfl, nofun⟩
    | some v => exact hinside v ((h.lock v).mpr hlock)
  | reading => exact ⟨.read t, _, by simp [lazyStep, hphase]; rfl, nofun⟩
  | locked | building _ | starting _ => exact hinside t (by rw [hphase]; rfl)
  | idle | returned _ | raised => rw [hphase] at ht; cases ht

/-- Nobody replaces the object, and nobody starts the threads that it lacks. -/
theorem failed_step {u : LazyState τ κ} {a : LazyAction τ κ} (h : LazyInv g s) {o : Nat}
    (hcell : s.cell = some o) (hfailed : (s.pool o).failed = true)
    (hstep : lazyStep g s a = some u) : u.cell = some o ∧ u.pool o = s.pool o := by
  have hnot : ∀ {t o'}, s.phase t = .starting o' → False := by
    intro t o' hp
    have hok := h.phases t
    rw [hp] at hok
    obtain ⟨hcell', hfalse⟩ := hok
    cases hcell.symm.trans hcell'
    exact Bool.false_ne_true (hfalse.symm.trans hfailed)
  cases lazyStep_cases hstep with
  | enter | acquire | found | gaveUp | build | constructFailed | read => exact ⟨hcell, rfl⟩
  | @constructed t config hp =>
    have hok := h.phases t
    rw [hp] at hok
    exact absurd (hcell.symm.trans hok.1) (Option.some_ne_none o)
  | startFailed hp | started hp | finished hp => exact False.elim (hnot hp)

theorem failed_stays {u : LazyState τ κ} (h : LazyInv g s) {o : Nat} (hcell : s.cell = some o)
    (hfailed : (s.pool o).failed = true)
    (hr : Reaches (lazyStep g) (fun _ _ => True) s u) : u.cell = some o ∧ u.pool o = s.pool o := by
  have hinv : LazyInv g u ∧ u.cell = some o ∧ u.pool o = s.pool o := by
    refine Reaches.invariant
      (I := fun u : LazyState τ κ => LazyInv g u ∧ u.cell = some o ∧ u.pool o = s.pool o)
      ?_ hr ⟨h, hcell, rfl⟩
    intro v a w hv _ hstep
    obtain ⟨hinv, hvcell, hvpool⟩ := hv
    obtain ⟨hwcell, hwpool⟩ := failed_step hinv hvcell (hvpool ▸ hfailed) hstep
    exact ⟨lazyInv_step hinv hstep, hwcell, hwpool.trans hvpool⟩
  exact hinv.2

end Invariant

end Foundation
