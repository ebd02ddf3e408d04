import Mathlib.Data.List.Basic
import HiWaveTel.Foundation.Dict
import HiWaveTel.Foundation.Run

/- The supervisor of the watchers (`run_sms_watcher --all-modems`): one subprocess for each
   modem of a list that is read once. In rounds it looks at each process and starts the dead
   ones again; Ctrl-C stops it. The processes end when they like, and an exception can come
   between any two steps.

   `one_watcher_per_modem` — no modem has two live watchers at any moment.
   `round_restarts` — at the end of a round each modem has a process in `children`, and it is
   alive unless it died since the round began.
   `supervisor_shutdown` — no process is sent a signal before a Ctrl-C; once the command has
   returned after one, each process that is still alive was sent a SIGTERM and then a SIGKILL,
   but for the one that `Popen` had returned and the dictionary did not have yet. -/
namespace HiWaveTel
open Foundation

/-! ## The processes and the command -/

structure WatcherProcess where
  modemIndex : Nat
  alive : Bool
  terminated : Bool      -- it was sent a SIGTERM
  killed : Bool

def WatcherProcess.starting (modemIndex : Nat) : WatcherProcess := ⟨modemIndex, true, false, false⟩

inductive SupervisorPhase where
  | looking (todo : List Nat)                       -- the `for` loop, with the indices to come
  | spawning (modemIndex : Nat) (todo : List Nat)   -- it has no process, or a dead one
  | spawned (modemIndex pid : Nat) (todo : List Nat)
  | sleeping
  | terminating (todo : List Nat)
  | waiting (todo : List Nat)
  | killing (pid : Nat) (todo : List Nat)           -- after the timeout of its `wait`
  | stopped
  | raised
  deriving DecidableEq, Repr

/-- A process is known by its place in the list of all that were ever started. -/
structure SupervisorState where
  processes : List WatcherProcess
  children : List (Nat × Nat)
  unrecorded : Option Nat       -- `Popen` has returned it, and `children` does not have it
  phase : SupervisorPhase

inductive SupervisorEvent where
  | dies (pid : Nat)
  | looked                -- `proc.poll()`
  | popened
  | popenFails            -- an `OSError` of `Popen`
  | recorded              -- `children[modem_index] = proc`
  | ended                 -- the loop has no more items
  | slept
  | interrupted           -- `KeyboardInterrupt`
  | terminated            -- `proc.poll()`, `proc.terminate()`
  | waited
  | timedOut
  | killed
  deriving DecidableEq, Repr

namespace SupervisorState

/-- With no modems to watch the command returns at once. -/
def start (indices : List Nat) : SupervisorState :=
  ⟨[], [], none, if indices = [] then .stopped else .looking indices⟩

def isAlive (s : SupervisorState) (pid : Nat) : Bool :=
  (s.processes[pid]?).any WatcherProcess.alive

/-- `proc is not None and proc.poll() is None`. -/
def hasWatcher (s : SupervisorState) (modemIndex : Nat) : Bool :=
  (Dict.get s.children modemIndex).any s.isAlive

/-- `children.values()`. -/
def pids (s : SupervisorState) : List Nat := s.children.map Prod.snd

def update (s : SupervisorState) (pid : Nat) (f : WatcherProcess → WatcherProcess) :
    SupervisorState :=
  { s with processes := s.processes.modify pid f }

end SupervisorState

/-- What the command itself does; `indices` is `list_watcher_modem_indices()`. -/
def supervisorMove (indices : List Nat) (s : SupervisorState) :
    SupervisorPhase → SupervisorEvent → Option SupervisorState
  | .looking (modemIndex :: todo), .looked =>
    if s.hasWatcher modemIndex then some { s with phase := .looking todo }
    else some { s with phase := .spawning modemIndex todo }
  | .spawning modemIndex todo, .popened =>
    some { s with
      processes := s.processes ++ [.starting modemIndex]
      unrecorded := some s.processes.length
      phase := .spawned modemIndex s.processes.length todo }
  | .spawning _ _, .popenFails => some { s with phase := .raised }
  | .spawned modemIndex pid todo, .recorded =>
    some { s with
      children := Dict.set s.children modemIndex pid
      unrecorded := none
      phase := .looking todo }
  | .looking [], .ended => some { s with phase := .sleeping }
  | .sleeping, .slept => some { s with phase := .looking indices }
  | .looking _, .interrupted | .spawning _ _, .interrupted | .spawned _ _ _, .interrupted
  | .sleeping, .interrupted => some { s with phase := .terminating s.pids }
  -- `terminate` of a process that has ended does nothing
  | .terminating (pid :: todo), .terminated =>
    some { s.update pid (fun p => if p.alive then { p with terminated := true } else p) with
      phase := .terminating todo }
  | .terminating [], .ended => some { s with phase := .waiting s.pids }
  | .waiting (pid :: todo), .waited =>
    if s.isAlive pid then none else some { s with phase := .waiting todo }
  | .waiting (pid :: todo), .timedOut => some { s with phase := .killing pid todo }
  | .killing pid todo, .killed =>
    some { s.update pid (fun p => if p.alive then { p with killed := true } else p) with
      phase := .waiting todo }
  | .waiting [], .ended => some { s with phase := .stopped }
  -- a second Ctrl-C comes out of the `except` block
  | .terminating _, .interrupted | .waiting _, .interrupted | .killing _ _, .interrupted =>
    some { s with phase := .raised }
  | _, _ => none

def supervisorStep (indices : List Nat) (s : SupervisorState) :
    SupervisorEvent → Option SupervisorState
  | .dies pid =>
    if s.isAlive pid then some (s.update pid (fun p => { p with alive := false })) else none
  | event => supervisorMove indices s s.phase event

/-! ## What a step does -/

/-- The indices that the round has still to come to. -/
def SupervisorPhase.todo : SupervisorPhase → Option (List Nat)
  | .looking todo => some todo
  | .spawning modemIndex todo => some (modemIndex :: todo)
  | .spawned _ _ todo => some todo
  | .sleeping => some []
  | _ => none

/-- Before a Ctrl-C, or after an exception: nothing has to be signalled. -/
def SupervisorPhase.runs : SupervisorPhase → Bool
  | .terminating _ | .waiting _ | .killing _ _ | .stopped => false
  | _ => true

/-- Every way a step can go. -/
inductive Supervises (indices : List Nat) (s : SupervisorState) :
    SupervisorEvent → SupervisorState → Prop
  | dies {pid} (halive : s.isAlive pid = true) :
      Supervises indices s (.dies pid) (s.update pid (fun p => { p with alive := false }))
  | sees {modemIndex todo} (hphase : s.phase = .looking (modemIndex :: todo))
      (hwatcher : s.hasWatcher modemIndex = true) :
      Supervises indices s .looked { s with phase := .looking todo }
  | misses {modemIndex todo} (hphase : s.phase = .looking (modemIndex :: todo))
      (hwatcher : s.hasWatcher modemIndex = false) :
      Supervises indices s .looked { s with phase := .spawning modemIndex todo }
  | popens {modemIndex todo} (hphase : s.phase = .spawning modemIndex todo) :
      Supervises indices s .popened
        { s with processes := s.processes ++ [.starting modemIndex]
                 unrecorded := some s.processes.length
                 phase := .spawned modemIndex s.processes.length todo }
  | records {modemIndex pid todo} (hphase : s.phase = .spawned modemIndex pid todo) :
      Supervises indices s .recorded
        { s with children := Dict.set s.children modemIndex pid, unrecorded := none
                 phase := .looking todo }
  | rests (hphase : s.phase = .looking []) :
      Supervises indices s .ended { s with phase := .sleeping }
  | wakes (hphase : s.phase = .sleeping) :
      Supervises indices s .slept { s with phase := .looking indices }
  | stops (hruns : s.phase.runs = true) :
      Supervises indices s .interrupted { s with phase := .terminating s.pids }
  | raises {e} (h : e = .popenFails ∨ e = .interrupted) :
      Supervises indices s e { s with phase := .raised }
  | terminates {pid todo} (hphase : s.phase = .terminating (pid :: todo)) :
      Supervises indices s .terminated
        { s.update pid (fun p => if p.alive then { p with terminated := true } else p) with
          phase := .terminating todo }
  | waits (hphase : s.phase = .terminating []) :
      Supervises indices s .ended { s with phase := .waiting s.pids }
  | waited {pid todo} (hphase : s.phase = .waiting (pid :: todo)) (hdead : s.isAlive pid = false) :
      Supervises indices s .waited { s with phase := .waiting todo }
  | timesOut {pid todo} (hphase : s.phase = .waiting (pid :: todo)) :
      Supervises indices s .timedOut { s with phase := .killing pid todo }
  | kills {pid todo} (hphase : s.phase = .killing pid todo) :
      Supervises indices s .killed
        { s.update pid (fun p => if p.alive then { p with killed := true } else p) with
          phase := .waiting todo }
  | returns (hphase : s.phase = .waiting []) :
      Supervises indices s .ended { s with phase := .stopped }

theorem supervisorMove_cases {indices : List Nat} {s t : SupervisorState} {e : SupervisorEvent}
    (h : supervisorMove indices s s.phase e = some t) : Supervises indices s e t := by
  cases hphase : s.phase with
  | looking todo =>
    rw [hphase] at h
    cases e with
    | looked =>
      cases todo with
      | nil => cases h
      | cons modemIndex todo =>
        simp only [supervisorMove] at h
        split at h
        · next hwatcher =>
          cases h
          exact .sees hphase hwatcher
        · next hwatcher =>
          cases h
          exact .misses hphase (Bool.not_eq_true _ ▸ hwatcher)
    | ended =>
      cases todo with
      | nil =>
        cases h
        exact .rests hphase
      | cons modemIndex todo => cases h
    | interrupted =>
      cases todo <;> cases h <;> exact .stops (by rw [hphase]; rfl)
    | _ => cases todo <;> cases h
  | spawning modemIndex todo =>
    rw [hphase] at h
    cases e with
    | popened =>
      cases h
      exact .popens hphase
    | popenFails =>
      cases h
      exact .raises (Or.inl rfl)
    | interrupted =>
      cases h
      exact .stops (by rw [hphase]; rfl)
    | _ => cases h
  | spawned modemIndex pid todo =>
    rw [hphase] at h
    cases e with
    | recorded =>
      cases h
      exact .records hphase
    | interrupted =>
      cases h
      exact .stops (by rw [hphase]; rfl)
    | _ => cases h
  | sleeping =>
    rw [hphase] at h
    cases e with
    | slept =>
      cases h
      exact .wakes hphase
    | interrupted =>
      cases h
      exact .stops (by rw [hphase]; rfl)
    | _ => cases h
  | terminating todo =>
    rw [hphase] at h
    cases e with
    | terminated =>
      cases todo with
      | nil => cases h
      | cons pid todo =>
        cases h
        exact .terminates hphase
    | ended =>
      cases todo with
      | nil =>
        cases h
        exact .waits hphase
      | cons pid todo => cases h
    | interrupted => cases todo <;> cases h <;> exact .raises (Or.inr rfl)
    | _ => cases todo <;> cases h
  | waiting todo =>
    rw [hphase] at h
    cases e with
    | waited =>
      cases todo with
      | nil => cases h
      | cons pid todo =>
        simp only [supervisorMove] at h
        split at h
        · cases h
        · next hdead =>
          cases h
          exact .waited hphase (Bool.not_eq_true _ ▸ hdead)
    | timedOut =>
      cases todo with
      | nil => cases h
      | cons pid todo =>
        cases h
        exact .timesOut hphase
    | ended =>
      cases todo with
      | nil =>
        cases h
        exact .returns hphase
      | cons pid todo => cases h
    | interrupted => cases todo <;> cases h <;> exact .raises (Or.inr rfl)
    | _ => cases todo <;> cases h
  | killing pid todo =>
    rw [hphase] at h
    cases e with
    | killed =>
      cases h
      exact .kills hphase
    | interrupted =>
      cases h
      exact .raises (Or.inr rfl)
    | _ => cases h
  | stopped =>
    rw [hphase] at h
    cases e <;> cases h
  | raised =>
    rw [hphase] at h
    cases e <;> cases h

theorem supervisorStep_cases {indices : List Nat} {s t : SupervisorState} {e : SupervisorEvent}
    (h : supervisorStep indices s e = some t) : Supervises indices s e t := by
  cases e with
  | dies pid =>
    simp only [supervisorStep] at h
    split at h
    · next halive =>
      cases h
      exact .dies halive
    · cases h
  | _ => exact supervisorMove_cases h

/-! ## One watcher for each modem -/

def SupervisorState.Started (s : SupervisorState) (pid : Nat) (p : WatcherProcess) : Prop :=
  s.processes[pid]? = some p

section Started
variable {s : SupervisorState} {pid q : Nat} {p : WatcherProcess}

theorem started_update {f : WatcherProcess → WatcherProcess} :
    (s.update pid f).Started q p ↔ ∃ p₀, s.Started q p₀ ∧ (if pid = q then f p₀ else p₀) = p := by
  unfold SupervisorState.Started SupervisorState.update
  rw [List.getElem?_modify]
  exact Option.map_eq_some_iff

theorem getElem?_started {new : WatcherProcess} : (s.processes ++ [new])[q]? = some p ↔
    s.Started q p ∨ q = s.processes.length ∧ p = new := by
  unfold SupervisorState.Started
  obtain hlt | rfl | hgt := Nat.lt_trichotomy q s.processes.length
  · rw [List.getElem?_append_left hlt]
    simp [Nat.ne_of_lt hlt]
  · simp [eq_comm]
  · rw [List.getElem?_eq_none (by simp; omega), List.getElem?_eq_none (Nat.le_of_lt hgt)]
    simp [Nat.ne_of_gt hgt]

theorem isAlive_iff : s.isAlive pid = true ↔ ∃ p, s.Started pid p ∧ p.alive = true := by
  unfold SupervisorState.isAlive SupervisorState.Started
  cases s.processes[pid]? <;> simp

theorem hasWatcher_iff {i : Nat} :
    s.hasWatcher i = true ↔ ∃ pid, Dict.get s.children i = some pid ∧ s.isAlive pid = true := by
  unfold SupervisorState.hasWatcher
  cases Dict.get s.children i <;> simp

end Started

/-- What each phase of the rounds is about. -/
def PhaseFits (indices : List Nat) (s : SupervisorState) : SupervisorPhase → Prop
  | .looking todo => todo ⊆ indices ∧ s.unrecorded = none
  | .spawning modemIndex todo => modemIndex ∈ indices ∧ todo ⊆ indices ∧ s.unrecorded = none ∧
      ∀ pid p, s.Started pid p → p.alive = true → p.modemIndex ≠ modemIndex
  | .spawned modemIndex pid todo => todo ⊆ indices ∧ s.unrecorded = some pid ∧
      ∃ p, s.Started pid p ∧ p.modemIndex = modemIndex
  | .sleeping => s.unrecorded = none
  | _ => True

structure SupervisorInv (indices : List Nat) (s : SupervisorState) : Prop where
  member : ∀ pid p, s.Started pid p → p.modemIndex ∈ indices
  child : ∀ i pid, Dict.get s.children i = some pid → ∃ p, s.Started pid p ∧ p.modemIndex = i
  recorded : ∀ pid p, s.Started pid p → p.alive = true →
    Dict.get s.children p.modemIndex = some pid ∨ s.unrecorded = some pid
  alone : ∀ pid, s.unrecorded = some pid → ∃ p, s.Started pid p ∧
    ∀ q p', s.Started q p' → p'.alive = true → p'.modemIndex = p.modemIndex → q = pid
  phase : PhaseFits indices s s.phase

section Invariant
variable {indices : List Nat} {s t : SupervisorState} {e : SupervisorEvent}

theorem supervisorInv_start (indices : List Nat) : SupervisorInv indices (.start indices) := by
  have hnone : ∀ pid p, ¬ (SupervisorState.start indices).Started pid p :=
    fun pid p h => by cases h
  have hchild : ∀ i pid, Dict.get (SupervisorState.start indices).children i ≠ some pid := by
    intro i pid h
    cases h
  have hrecorded : ∀ pid, (SupervisorState.start indices).unrecorded ≠ some pid := by
    intro pid h
    cases h
  refine ⟨fun pid p h => absurd h (hnone pid p), fun i pid h => absurd h (hchild i pid),
    fun pid p h => absurd h (hnone pid p), fun pid h => absurd h (hrecorded pid), ?_⟩
  unfold SupervisorState.start
  by_cases hnil : indices = []
  · rw [if_pos hnil]
    trivial
  · rw [if_neg hnil]
    exact ⟨List.Subset.refl indices, rfl⟩

/-- The index of a process stays, and no process comes back to life. -/
structure Ages (f : WatcherProcess → WatcherProcess) : Prop where
  modemIndex : ∀ p, (f p).modemIndex = p.modemIndex
  alive : ∀ p, (f p).alive = true → p.alive = true

theorem started_before {pid : Nat} {f : WatcherProcess → WatcherProcess} (hf : Ages f) {q : Nat}
    {p : WatcherProcess} (h : (s.update pid f).Started q p) :
    ∃ p₀, s.Started q p₀ ∧ p.modemIndex = p₀.modemIndex ∧ (p.alive = true → p₀.alive = true) := by
  obtain ⟨p₀, hp₀, rfl⟩ := started_update.mp h
  refine ⟨p₀, hp₀, ?_, ?_⟩
  · split
    · exact hf.modemIndex p₀
    · rfl
  · split
    · exact hf.alive p₀
    · exact id

theorem started_after {pid : Nat} {f : WatcherProcess → WatcherProcess} (hf : Ages f) {q : Nat}
    {p₀ : WatcherProcess} (h : s.Started q p₀) :
    ∃ p, (s.update pid f).Started q p ∧ p.modemIndex = p₀.modemIndex := by
  refine ⟨_, started_update.mpr ⟨p₀, h, rfl⟩, ?_⟩
  split
  · exact hf.modemIndex p₀
  · rfl

theorem phaseFits_update {pid : Nat} {f : WatcherProcess → WatcherProcess} (hf : Ages f)
    {phase : SupervisorPhase} (h : PhaseFits indices s phase) :
    PhaseFits indices (s.update pid f) phase := by
  cases phase with
  | looking todo => exact h
  | spawning i todo =>
    obtain ⟨hi, htodo, hnone, hdead⟩ := h
    refine ⟨hi, htodo, hnone, ?_⟩
    intro q p hp halive
    obtain ⟨p₀, hp₀, hindex, hbefore⟩ := started_before hf hp
    rw [hindex]
    exact hdead q p₀ hp₀ (hbefore halive)
  | spawned i pid' todo =>
    obtain ⟨htodo, hsome, p₀, hp₀, hi⟩ := h
    obtain ⟨p, hp, hindex⟩ := started_after hf hp₀
    exact ⟨htodo, hsome, p, hp, hindex.trans hi⟩
  | sleeping => exact h
  | terminating | waiting | killing | stopped | raised => trivial

theorem supervisorInv_update {pid : Nat} {f : WatcherProcess → WatcherProcess} (hf : Ages f)
    (h : SupervisorInv indices s) : SupervisorInv indices (s.update pid f) where
  member q p hp := by
    obtain ⟨p₀, hp₀, hindex, _⟩ := started_before hf hp
    exact hindex ▸ h.member q p₀ hp₀
  child i q hq := by
    obtain ⟨p₀, hp₀, hi⟩ := h.child i q hq
    obtain ⟨p, hp, hindex⟩ := started_after hf hp₀
    exact ⟨p, hp, hindex.trans hi⟩
  recorded q p hp halive := by
    obtain ⟨p₀, hp₀, hindex, hbefore⟩ := started_before hf hp
    rw [hindex]
    exact h.recorded q p₀ hp₀ (hbefore halive)
  alone q hq := by
    obtain ⟨p₀, hp₀, hunique⟩ := h.alone q hq
    obtain ⟨p, hp, hindex⟩ := started_after hf hp₀
    refine ⟨p, hp, ?_⟩
    intro q' p' hp' halive hsame
    obtain ⟨p₁, hp₁, hindex₁, hbefore⟩ := started_before hf hp'
    exact hunique q' p₁ hp₁ (hbefore halive) (hindex₁ ▸ hindex ▸ hsame)
  phase := phaseFits_update hf h.phase

theorem supervisorInv_phase (h : SupervisorInv indices s) {phase : SupervisorPhase}
    (hphase : PhaseFits indices s phase) : SupervisorInv indices { s with phase := phase } where
  member := h.member
  child := h.child
  recorded := h.recorded
  alone := h.alone
  phase := by cases phase <;> exact hphase

theorem ages_dies : Ages (fun p => { p with alive := false }) :=
  ⟨fun _ => rfl, fun _ h => by cases h⟩

theorem ages_terminated : Ages (fun p => if p.alive then { p with terminated := true } else p) := by
  constructor
  · intro p
    split <;> rfl
  · intro p h
    split at h
    · exact h
    · exact h

theorem ages_killed : Ages (fun p => if p.alive then { p with killed := true } else p) := by
  constructor
  · intro p
    split <;> rfl
  · intro p h
    split at h
    · exact h
    · exact h

theorem supervisorInv_popens {modemIndex : Nat} {todo : List Nat} (h : SupervisorInv indices s)
    (hphase : s.phase = .spawning modemIndex todo) :
    SupervisorInv indices
      { s with processes := s.processes ++ [.starting modemIndex]
               unrecorded := some s.processes.length
               phase := .spawned modemIndex s.processes.length todo } := by
  have hfits := h.phase
  rw [hphase] at hfits
  obtain ⟨hindex, htodo, hnone, hdead⟩ := hfits
  refine ⟨?_, ?_, ?_, ?_, ?_⟩
  · intro q p hp
    obtain hold | ⟨_, rfl⟩ := getElem?_started.mp hp
    · exact h.member q p hold
    · exact hindex
  · intro i q hq
    obtain ⟨p, hp, hi⟩ := h.child i q hq
    exact ⟨p, getElem?_started.mpr (Or.inl hp), hi⟩
  · intro q p hp halive
    obtain hold | ⟨rfl, _⟩ := getElem?_started.mp hp
    · have hrecorded := h.recorded q p hold halive
      rw [hnone] at hrecorded
      exact Or.inl (hrecorded.resolve_right (Option.some_ne_none q ∘ Eq.symm))
    · exact Or.inr rfl
  · intro q hq
    cases hq
    refine ⟨.starting modemIndex, getElem?_started.mpr (Or.inr ⟨rfl, rfl⟩), ?_⟩
    intro q' p' hp' halive hsame
    -- when it was looked for, no process of this modem was alive
    obtain hold | ⟨rfl, _⟩ := getElem?_started.mp hp'
    · exact absurd hsame (hdead q' p' hold halive)
    · rfl
  · exact ⟨htodo, rfl, .starting modemIndex, getElem?_started.mpr (Or.inr ⟨rfl, rfl⟩), rfl⟩

theorem supervisorInv_records {modemIndex pid : Nat} {todo : List Nat}
    (h : SupervisorInv indices s) (hphase : s.phase = .spawned modemIndex pid todo) :
    SupervisorInv indices
      { s with children := Dict.set s.children modemIndex pid, unrecorded := none
               phase := .looking todo } := by
  have hfits := h.phase
  rw [hphase] at hfits
  obtain ⟨htodo, hsome, p₀, hp₀, hindex⟩ := hfits
  refine ⟨h.member, ?_, ?_, fun q hq => (Option.some_ne_none q hq.symm).elim, ⟨htodo, rfl⟩⟩
  · intro i q hq
    rw [Dict.get_set] at hq
    split at hq
    · next hi =>
      cases hq
      exact ⟨p₀, hp₀, hindex.trans (eq_of_beq hi)⟩
    · exact h.child i q hq
  · intro q p hp halive
    refine Or.inl ?_
    rw [Dict.get_set]
    split
    · next hi =>
      -- a live process of this modem is the one that was just started
      obtain ⟨p₁, hp₁, halone⟩ := h.alone pid hsome
      have hsame : p₁ = p₀ := Option.some.inj (hp₁.symm.trans hp₀)
      rw [halone q p hp halive (by rw [hsame, hindex, eq_of_beq hi])]
    · next hi =>
      cases h.recorded q p hp halive with
      | inl hget => exact hget
      | inr hother =>
        rw [hsome] at hother
        cases hother
        have hsame : p = p₀ := Option.some.inj (hp.symm.trans hp₀)
        rw [hsame, hindex] at hi
        exact absurd (beq_self_eq_true _) hi

theorem supervisorInv_step (h : SupervisorInv indices s)
    (hstep : supervisorStep indices s e = some t) : SupervisorInv indices t := by
  have hfits := h.phase
  cases supervisorStep_cases hstep with
  | dies _ => exact supervisorInv_update ages_dies h
  | sees hphase _ =>
    rw [hphase] at hfits
    exact supervisorInv_phase h ⟨List.Subset.trans (List.subset_cons_self _ _) hfits.1, hfits.2⟩
  | @misses i todo hphase hwatcher =>
    rw [hphase] at hfits
    obtain ⟨hsub, hnone⟩ := hfits
    refine supervisorInv_phase h ⟨hsub List.mem_cons_self,
      List.Subset.trans (List.subset_cons_self _ _) hsub, hnone, ?_⟩
    intro pid p hp halive hi
    -- a live process of the modem would be recorded, and `looked` would have seen it
    rw [Bool.eq_false_iff] at hwatcher
    apply hwatcher
    cases h.recorded pid p hp halive with
    | inl hget => exact hasWatcher_iff.mpr ⟨pid, hi ▸ hget, isAlive_iff.mpr ⟨p, hp, halive⟩⟩
    | inr hsome =>
      rw [hnone] at hsome
      cases hsome
  | popens hphase => exact supervisorInv_popens h hphase
  | records hphase => exact supervisorInv_records h hphase
  | rests hphase =>
    rw [hphase] at hfits
    exact supervisorInv_phase h hfits.2
  | wakes hphase =>
    rw [hphase] at hfits
    exact supervisorInv_phase h ⟨List.Subset.refl indices, hfits⟩
  | terminates _ =>
    exact supervisorInv_phase (supervisorInv_update ages_terminated h) trivial
  | kills _ => exact supervisorInv_phase (supervisorInv_update ages_killed h) trivial
  | stops _ | raises _ | waits _ | waited _ _ | timesOut _ | returns _ =>
    exact supervisorInv_phase h trivial

end Invariant

/-- However the processes end and wherever an exception comes: every process that was started is
    one of a modem of the list, and of two processes of one modem at most one is alive. -/
theorem one_watcher_per_modem (indices : List Nat) {t : SupervisorState}
    {events : List SupervisorEvent}
    (h : exec (supervisorStep indices) (.start indices) events = some t) :
    (∀ pid p, t.Started pid p → p.modemIndex ∈ indices) ∧
    ∀ pid q p p', t.Started pid p → t.Started q p' → p.alive = true → p'.alive = true →
      p.modemIndex = p'.modemIndex → pid = q := by
  have hinv : SupervisorInv indices t := by
    refine Reaches.invariant (I := SupervisorInv indices) ?_ ⟨events, meets_true _ _, h⟩
      (supervisorInv_start indices)
    exact fun s e u hs _ hstep => supervisorInv_step hs hstep
  refine ⟨hinv.member, ?_⟩
  intro pid q p p' hp hp' halive halive' hsame
  -- both are recorded under the one index, or one of them is the process just started
  obtain hget | hsome := hinv.recorded pid p hp halive
  · obtain hget' | hsome' := hinv.recorded q p' hp' halive'
    · rw [hsame, hget'] at hget
      exact (Option.some.inj hget).symm
    · obtain ⟨p₁, hp₁, halone⟩ := hinv.alone q hsome'
      have heq : p₁ = p' := Option.some.inj (hp₁.symm.trans hp')
      exact halone pid p hp halive (heq ▸ hsame)
  · obtain ⟨p₁, hp₁, halone⟩ := hinv.alone pid hsome
    have heq : p₁ = p := Option.some.inj (hp₁.symm.trans hp)
    exact (halone q p' hp' halive' (heq ▸ hsame.symm)).symm

/-- Modem 0 loses its watcher and gets another. -/
def restartedOnce : List SupervisorEvent :=
  [.looked, .popened, .recorded, .looked, .popened, .recorded, .ended, .slept, .dies 0,
    .looked, .popened, .recorded, .looked, .ended]

/-- The first process is dead then, and the third is the one watcher of its modem. -/
theorem one_watcher_per_modem_restarted :
    ∃ t, exec (supervisorStep [0, 2]) (.start [0, 2]) restartedOnce = some t ∧
      t.processes.map (fun p => (p.modemIndex, p.alive)) = [(0, false), (2, true), (0, true)] ∧
      ∀ pid p, t.Started pid p → p.alive = true → p.modemIndex = 0 → pid = 2 := by
  have hrun : (exec (supervisorStep [0, 2]) (.start [0, 2]) restartedOnce).map
      (fun t => t.processes.map (fun p => (p.modemIndex, p.alive, p.terminated, p.killed))) =
      some [(0, false, false, false), (2, true, false, false), (0, true, false, false)] := by decide
  obtain ⟨t, ht, hprocesses⟩ := Option.map_eq_some_iff.mp hrun
  have hlist : t.processes = [⟨0, false, false, false⟩, .starting 2, .starting 0] := by
    have hinj : Function.Injective (fun p : WatcherProcess =>
        (p.modemIndex, p.alive, p.terminated, p.killed)) := by
      intro p q hpq
      cases p
      cases q
      simpa using hpq
    exact hinj.list_map hprocesses
  refine ⟨t, ht, by rw [hlist]; rfl, ?_⟩
  intro pid p hp halive hindex
  have hthird : t.Started 2 (.starting 0) := by
    unfold SupervisorState.Started
    rw [hlist]
    rfl
  exact (one_watcher_per_modem [0, 2] ht).2 pid 2 p (.starting 0) hp hthird halive rfl hindex

/-! ## A round -/

section Round
variable {indices : List Nat} {s t : SupervisorState} {e : SupervisorEvent}

/-- The process was alive when the round came to it, or it was started then. -/
def SeenAlive (s : SupervisorState) (died : List SupervisorEvent) (pid : Nat) : Prop :=
  s.isAlive pid = true ∨ .dies pid ∈ died

/-- Every modem is still to come, or it has a process that was seen alive. -/
structure RoundInv (indices : List Nat) (s : SupervisorState) (died : List SupervisorEvent) :
    Prop where
  spawned : ∀ i pid todo, s.phase = .spawned i pid todo → SeenAlive s died pid
  covered : ∀ i ∈ indices, (∃ todo, s.phase.todo = some todo ∧ i ∈ todo) ∨
    (∃ pid todo, s.phase = .spawned i pid todo) ∨
    ∃ pid, Dict.get s.children i = some pid ∧ SeenAlive s died pid

theorem isAlive_update {pid q : Nat} {f : WatcherProcess → WatcherProcess} :
    (s.update pid f).isAlive q = (s.processes[q]?).any
      (fun p => (if pid = q then f p else p).alive) := by
  unfold SupervisorState.isAlive SupervisorState.update
  rw [List.getElem?_modify]
  cases s.processes[q]? <;> rfl

theorem isAlive_append {new : WatcherProcess} {q : Nat} (h : s.isAlive q = true)
    (unrecorded : Option Nat) (phase : SupervisorPhase) :
    SupervisorState.isAlive { s with processes := s.processes ++ [new], unrecorded, phase } q =
      true := by
  obtain ⟨p, hp, halive⟩ := isAlive_iff.mp h
  exact isAlive_iff.mpr ⟨p, getElem?_started.mpr (Or.inl hp), halive⟩

/-- A process that was seen alive is, or it dies now. -/
theorem seenAlive_step {died : List SupervisorEvent} {pid : Nat} (h : SeenAlive s died pid)
    (hstep : Supervises indices s e t) (htodo : t.phase.todo ≠ none) :
    SeenAlive t (died ++ [e]) pid := by
  cases h with
  | inr hdied => exact Or.inr (List.mem_append_left _ hdied)
  | inl halive =>
    cases hstep with
    | @dies q _ =>
      by_cases hq : q = pid
      · exact Or.inr (List.mem_append_right _ (hq ▸ List.mem_singleton_self _))
      · refine Or.inl ?_
        rw [isAlive_update]
        simp only [hq, if_false]
        exact halive
    | popens _ => exact Or.inl (isAlive_append halive _ _)
    | terminates _ | kills _ => exact absurd rfl htodo
    | _ => exact Or.inl halive

theorem todo_none_step (hstep : Supervises indices s e t) (hnone : s.phase.todo = none) :
    t.phase.todo = none := by
  cases hstep with
  | dies _ => exact hnone
  | sees hphase | misses hphase | popens hphase | records hphase | rests hphase | wakes hphase =>
    rw [hphase] at hnone
    cases hnone
  | _ => rfl

theorem roundInv_step {died : List SupervisorEvent} (h : RoundInv indices s died)
    (hstep : Supervises indices s e t) (htodo : t.phase.todo ≠ none) :
    RoundInv indices t (died ++ [e]) := by
  have hseen : ∀ pid, SeenAlive s died pid → SeenAlive t (died ++ [e]) pid :=
    fun pid hpid => seenAlive_step hpid hstep htodo
  -- a modem whose process the step does not touch, in a phase where none is just started
  have hkeep : ∀ todo, s.phase.todo = some todo → (∀ i pid rest, s.phase ≠ .spawned i pid rest) →
      t.children = s.children → ∀ i ∈ indices, i ∈ todo ∨
        ∃ pid, Dict.get t.children i = some pid ∧ SeenAlive t (died ++ [e]) pid := by
    intro todo htodos hnot hchildren i hi
    obtain ⟨_, htodos', hmem⟩ | ⟨pid, rest, hphase⟩ | ⟨pid, hget, hpid⟩ := h.covered i hi
    · rw [htodos] at htodos'
      cases htodos'
      exact Or.inl hmem
    · exact absurd hphase (hnot i pid rest)
    · exact Or.inr ⟨pid, hchildren ▸ hget, hseen pid hpid⟩
  cases hstep with
  | dies halive =>
    refine ⟨fun i pid todo hphase => hseen pid (h.spawned i pid todo hphase), ?_⟩
    intro i hi
    obtain hcoming | hspawned | ⟨pid, hget, hpid⟩ := h.covered i hi
    · exact Or.inl hcoming
    · exact Or.inr (Or.inl hspawned)
    · exact Or.inr (Or.inr ⟨pid, hget, hseen pid hpid⟩)
  | @sees j todo hphase hwatcher =>
    refine ⟨fun _ _ _ hother => SupervisorPhase.noConfusion hother, ?_⟩
    intro i hi
    have hcases := hkeep (j :: todo) (by rw [hphase]; rfl) (by rw [hphase]; simp) rfl i hi
    obtain hmem | hchild := hcases
    · cases List.mem_cons.mp hmem with
      | inl heq =>
        obtain ⟨pid, hget, halive⟩ := hasWatcher_iff.mp hwatcher
        exact Or.inr (Or.inr ⟨pid, heq ▸ hget, Or.inl halive⟩)
      | inr hmem => exact Or.inl ⟨todo, rfl, hmem⟩
    · exact Or.inr (Or.inr hchild)
  | @misses j todo hphase _ =>
    refine ⟨fun _ _ _ hother => SupervisorPhase.noConfusion hother, ?_⟩
    intro i hi
    have hcases := hkeep (j :: todo) (by rw [hphase]; rfl) (by rw [hphase]; simp) rfl i hi
    exact hcases.imp (fun hmem => ⟨j :: todo, rfl, hmem⟩) Or.inr
  | @popens j todo hphase =>
    refine ⟨?_, ?_⟩
    · intro i pid rest hother
      cases hother
      refine Or.inl (isAlive_iff.mpr ⟨.starting j, ?_, rfl⟩)
      exact getElem?_started.mpr (Or.inr ⟨rfl, rfl⟩)
    · intro i hi
      have hcases := hkeep (j :: todo) (by rw [hphase]; rfl) (by rw [hphase]; simp) rfl i hi
      obtain hmem | hchild := hcases
      · cases List.mem_cons.mp hmem with
        | inl heq => exact Or.inr (Or.inl ⟨s.processes.length, todo, by rw [heq]⟩)
        | inr hmem => exact Or.inl ⟨todo, rfl, hmem⟩
      · exact Or.inr (Or.inr hchild)
  | @records j pid' todo hphase =>
    refine ⟨fun _ _ _ hother => SupervisorPhase.noConfusion hother, ?_⟩
    intro i hi
    by_cases hij : j = i
    · refine Or.inr (Or.inr ⟨pid', ?_, hseen pid' (h.spawned j pid' todo hphase)⟩)
      rw [Dict.get_set, if_pos (beq_iff_eq.mpr hij)]
    · obtain ⟨_, htodos, hmem⟩ | ⟨pid, rest, hother⟩ | ⟨pid, hget, hpid⟩ := h.covered i hi
      · rw [hphase] at htodos
        cases htodos
        exact Or.inl ⟨todo, rfl, hmem⟩
      · rw [hphase] at hother
        cases hother
        exact absurd rfl hij
      · refine Or.inr (Or.inr ⟨pid, ?_, hseen pid hpid⟩)
        rwa [Dict.get_set, if_neg (fun hbeq => hij (eq_of_beq hbeq))]
  | rests hphase =>
    refine ⟨fun _ _ _ hother => SupervisorPhase.noConfusion hother, ?_⟩
    intro i hi
    have hcases := hkeep [] (by rw [hphase]; rfl) (by rw [hphase]; simp) rfl i hi
    exact Or.inr (Or.inr (hcases.resolve_left List.not_mem_nil))
  | wakes _ =>
    exact ⟨fun _ _ _ hother => SupervisorPhase.noConfusion hother, fun i hi => Or.inl ⟨indices, rfl, hi⟩⟩
  | stops _ | raises _ | terminates _ | waits _ | waited _ _ | timesOut _ | kills _ | returns _ =>
    exact absurd rfl htodo

theorem roundInv_exec {died events : List SupervisorEvent}
    (h : s.phase.todo = none ∨ RoundInv indices s died)
    (hexec : exec (supervisorStep indices) s events = some t) :
    t.phase.todo = none ∨ RoundInv indices t (died ++ events) := by
  induction events generalizing s died with
  | nil =>
    cases hexec
    rwa [List.append_nil]
  | cons e events ih =>
    obtain ⟨u, hu, ht⟩ := exec_cons_eq_some.mp hexec
    have hnext : u.phase.todo = none ∨ RoundInv indices u (died ++ [e]) := by
      cases h with
      | inl hnone => exact Or.inl (todo_none_step (supervisorStep_cases hu) hnone)
      | inr hround =>
        -- once the command is on its way out it begins no round any more
        by_cases htodo : u.phase.todo = none
        · exact Or.inl htodo
        · exact Or.inr (roundInv_step hround (supervisorStep_cases hu) htodo)
    have hrest := ih hnext ht
    rwa [List.append_assoc] at hrest

end Round

/-- From the beginning of a round, in any run: when the loop has no more items, each modem of the
    list has a process in `children`, and it is alive or has died since. -/
theorem round_restarts (indices : List Nat) {s t : SupervisorState}
    {past events : List SupervisorEvent}
    (hpast : exec (supervisorStep indices) (.start indices) past = some s)
    (hbegins : s.phase = .looking indices)
    (h : exec (supervisorStep indices) s events = some t) (hends : t.phase = .looking []) :
    ∀ i ∈ indices, ∃ pid p, Dict.get t.children i = some pid ∧ t.Started pid p ∧
      p.modemIndex = i ∧ (p.alive = true ∨ .dies pid ∈ events) := by
  have hinv : SupervisorInv indices t := by
    refine Reaches.invariant (I := SupervisorInv indices) ?_
      ⟨past ++ events, meets_true _ _, exec_append_eq_some.mpr ⟨s, hpast, h⟩⟩
      (supervisorInv_start indices)
    exact fun s e u hs _ hstep => supervisorInv_step hs hstep
  have hbegin : RoundInv indices s [] := by
    refine ⟨?_, ?_⟩
    · intro i pid todo hphase
      rw [hbegins] at hphase
      cases hphase
    · exact fun i hi => Or.inl ⟨indices, by rw [hbegins]; rfl, hi⟩
  intro i hi
  obtain hnone | hround := roundInv_exec (Or.inr hbegin) h
  · rw [hends] at hnone
    cases hnone
  · obtain ⟨_, htodo, hmem⟩ | ⟨pid, todo, hphase⟩ | ⟨pid, hget, hseen⟩ := hround.covered i hi
    · rw [hends] at htodo
      cases htodo
      cases hmem
    · rw [hends] at hphase
      cases hphase
    · obtain ⟨p, hp, hindex⟩ := hinv.child i pid hget
      refine ⟨pid, p, hget, hp, hindex, hseen.imp_left ?_⟩
      intro halive
      obtain ⟨p', hp', halive'⟩ := isAlive_iff.mp halive
      have hsame : p' = p := Option.some.inj (hp'.symm.trans hp)
      exact hsame ▸ halive'

/-- In the second round of the run above both modems have a watcher again. -/
theorem round_restarts_second :
    ∃ t, exec (supervisorStep [0, 2]) (.start [0, 2]) (restartedOnce.take 13) = some t ∧
      ∀ i ∈ [0, 2], ∃ pid p, Dict.get t.children i = some pid ∧ t.Started pid p ∧
        p.modemIndex = i ∧ (p.alive = true ∨ .dies pid ∈ (restartedOnce.take 13).drop 8) := by
  have hfirst : (exec (supervisorStep [0, 2]) (.start [0, 2]) (restartedOnce.take 8)).map
      SupervisorState.phase = some (.looking [0, 2]) := by decide
  have hsecond : (exec (supervisorStep [0, 2]) (.start [0, 2]) (restartedOnce.take 13)).map
      SupervisorState.phase = some (.looking []) := by decide
  obtain ⟨s, hs, hbegins⟩ := Option.map_eq_some_iff.mp hfirst
  obtain ⟨t, ht, hends⟩ := Option.map_eq_some_iff.mp hsecond
  have hsplit : restartedOnce.take 13 =
      restartedOnce.take 8 ++ (restartedOnce.take 13).drop 8 := rfl
  have hround : exec (supervisorStep [0, 2]) s ((restartedOnce.take 13).drop 8) = some t := by
    rw [hsplit] at ht
    obtain ⟨u, hu, hrest⟩ := exec_append_eq_some.mp ht
    rw [hs] at hu
    cases hu
    exact hrest
  exact ⟨t, ht, round_restarts [0, 2] hs hbegins hround hends⟩

/-! ## The end -/

/-- A SIGTERM may still have to be sent to the process. -/
def SupervisorPhase.MayTerminate (pid : Nat) : SupervisorPhase → Prop
  | .terminating todo => pid ∈ todo
  | .waiting _ | .killing _ _ | .stopped => False
  | _ => True

/-- It may still be waited for, and killed. -/
def SupervisorPhase.MayKill (pid : Nat) : SupervisorPhase → Prop
  | .waiting todo => pid ∈ todo
  | .killing next todo => pid = next ∨ pid ∈ todo
  | .stopped => False
  | _ => True

def SupervisorPhase.signals : SupervisorPhase → Bool
  | .terminating _ | .waiting _ | .killing _ _ => true
  | _ => false

/-- What is still alive of the children was sent its signals, or it will be. -/
def ShutdownInv (s : SupervisorState) : Prop :=
  ∀ pid ∈ s.pids, ∀ p, s.Started pid p → p.alive = true →
    (s.phase.MayTerminate pid ∨ p.terminated = true) ∧ (s.phase.MayKill pid ∨ p.killed = true)

/-- The processes that are waited for; all of them were sent a SIGTERM, or have ended before. -/
def SupervisorPhase.awaited : SupervisorPhase → List Nat
  | .waiting todo => todo
  | .killing pid todo => pid :: todo
  | _ => []

/-- SIGKILL is the second signal. -/
structure KilledLast (s : SupervisorState) : Prop where
  awaited : s.phase.awaited ⊆ s.pids
  order : ∀ pid p, s.Started pid p → p.killed = true → p.terminated = true

def NoSignals (s : SupervisorState) : Prop :=
  s.phase.signals = false ∧
    ∀ pid p, s.Started pid p → p.terminated = false ∧ p.killed = false

section Shutdown
variable {indices : List Nat} {s t : SupervisorState} {e : SupervisorEvent}

theorem shutdownInv_of_runs (hterminate : ∀ pid, s.phase.MayTerminate pid)
    (hkill : ∀ pid, s.phase.MayKill pid) : ShutdownInv s :=
  fun pid _ _ _ _ => ⟨Or.inl (hterminate pid), Or.inl (hkill pid)⟩

theorem shutdownInv_dies {pid : Nat} (h : ShutdownInv s) :
    ShutdownInv (s.update pid (fun p => { p with alive := false })) := by
  intro q hq p hp halive
  obtain ⟨p₀, hp₀, rfl⟩ := started_update.mp hp
  split at halive
  · cases halive
  · next hne =>
    rw [if_neg hne]
    exact h q hq p₀ hp₀ halive

theorem shutdownInv_terminates {pid : Nat} {todo : List Nat} (h : ShutdownInv s)
    (hphase : s.phase = .terminating (pid :: todo)) :
    ShutdownInv
      { s.update pid (fun p => if p.alive then { p with terminated := true } else p) with
        phase := .terminating todo } := by
  intro q hq p hp halive
  obtain ⟨p₀, hp₀, rfl⟩ := started_update.mp hp
  refine ⟨?_, Or.inl trivial⟩
  by_cases hpid : pid = q
  · rw [if_pos hpid] at halive ⊢
    have halive₀ : p₀.alive = true := ages_terminated.alive p₀ halive
    rw [if_pos halive₀]
    exact Or.inr rfl
  · rw [if_neg hpid] at halive ⊢
    obtain ⟨hterminate, _⟩ := h q hq p₀ hp₀ halive
    rw [hphase] at hterminate
    refine hterminate.imp_left ?_
    intro hmem
    exact (List.mem_cons.mp hmem).resolve_left (Ne.symm hpid)

theorem shutdownInv_kills {pid : Nat} {todo : List Nat} (h : ShutdownInv s)
    (hphase : s.phase = .killing pid todo) :
    ShutdownInv
      { s.update pid (fun p => if p.alive then { p with killed := true } else p) with
        phase := .waiting todo } := by
  intro q hq p hp halive
  obtain ⟨p₀, hp₀, rfl⟩ := started_update.mp hp
  by_cases hpid : pid = q
  · rw [if_pos hpid] at halive ⊢
    have halive₀ : p₀.alive = true := ages_killed.alive p₀ halive
    obtain ⟨hterminate, _⟩ := h q hq p₀ hp₀ halive₀
    rw [hphase] at hterminate
    rw [if_pos halive₀]
    exact ⟨Or.inr (hterminate.resolve_left id), Or.inr rfl⟩
  · rw [if_neg hpid] at halive ⊢
    obtain ⟨hterminate, hkill⟩ := h q hq p₀ hp₀ halive
    rw [hphase] at hterminate hkill
    exact ⟨hterminate, hkill.imp_left (fun hmem => hmem.resolve_left (Ne.symm hpid))⟩

theorem shutdownInv_step (h : ShutdownInv s) (hstep : supervisorStep indices s e = some t) :
    ShutdownInv t := by
  cases supervisorStep_cases hstep with
  | dies _ => exact shutdownInv_dies h
  | sees _ _ | misses _ _ | popens _ | records _ | rests _ | wakes _ | raises _ =>
    exact shutdownInv_of_runs (fun _ => trivial) (fun _ => trivial)
  | stops _ => exact fun pid hpid _ _ _ => ⟨Or.inl hpid, Or.inl trivial⟩
  | terminates hphase => exact shutdownInv_terminates h hphase
  | waits hphase =>
    intro pid hpid p hp halive
    obtain ⟨hterminate, _⟩ := h pid hpid p hp halive
    rw [hphase] at hterminate
    exact ⟨Or.inr (hterminate.resolve_left List.not_mem_nil), Or.inl hpid⟩
  | @waited next todo hphase hdead =>
    intro pid hpid p hp halive
    obtain ⟨hterminate, hkill⟩ := h pid hpid p hp halive
    rw [hphase] at hterminate hkill
    refine ⟨hterminate, hkill.imp_left ?_⟩
    intro hmem
    -- `wait` returns for a process that has ended only
    refine (List.mem_cons.mp hmem).resolve_left ?_
    rintro rfl
    have hstarted : s.Started pid p := hp
    rw [isAlive_iff.mpr ⟨p, hstarted, halive⟩] at hdead
    cases hdead
  | @timesOut next todo hphase =>
    intro pid hpid p hp halive
    obtain ⟨hterminate, hkill⟩ := h pid hpid p hp halive
    rw [hphase] at hterminate hkill
    exact ⟨hterminate, hkill.imp_left List.mem_cons.mp⟩
  | kills hphase => exact shutdownInv_kills h hphase
  | returns hphase =>
    intro pid hpid p hp halive
    obtain ⟨hterminate, hkill⟩ := h pid hpid p hp halive
    rw [hphase] at hterminate hkill
    exact ⟨hterminate, hkill.imp_left List.not_mem_nil⟩

/-- A step that sends no signal. -/
theorem killedLast_unsent (h : KilledLast s) (hawaited : t.phase.awaited ⊆ t.pids)
    (hsame : ∀ pid p, t.Started pid p → p.killed = true →
      ∃ p₀, s.Started pid p₀ ∧ p₀.killed = true ∧ p.terminated = p₀.terminated) :
    KilledLast t := by
  refine ⟨hawaited, ?_⟩
  intro pid p hp hkilled
  obtain ⟨p₀, hp₀, hkilled₀, hterminated⟩ := hsame pid p hp hkilled
  exact hterminated.trans (h.order pid p₀ hp₀ hkilled₀)

theorem killedLast_terminates {pid : Nat} {todo : List Nat} (h : KilledLast s) :
    KilledLast
      { s.update pid (fun p => if p.alive then { p with terminated := true } else p) with
        phase := .terminating todo } := by
  refine ⟨List.nil_subset _, ?_⟩
  intro q p hp hkilled
  obtain ⟨p₀, hp₀, rfl⟩ := started_update.mp hp
  by_cases hpid : pid = q
  · rw [if_pos hpid] at hkilled ⊢
    by_cases halive : p₀.alive = true
    · rw [if_pos halive]
    · rw [if_neg halive] at hkilled ⊢
      exact h.order q p₀ hp₀ hkilled
  · rw [if_neg hpid] at hkilled ⊢
    exact h.order q p₀ hp₀ hkilled

theorem killedLast_kills {pid : Nat} {todo : List Nat} (h : KilledLast s) (hs : ShutdownInv s)
    (hphase : s.phase = .killing pid todo) :
    KilledLast
      { s.update pid (fun p => if p.alive then { p with killed := true } else p) with
        phase := .waiting todo } := by
  have hawaited := h.awaited
  rw [hphase] at hawaited
  refine ⟨List.Subset.trans (List.subset_cons_self _ _) hawaited, ?_⟩
  intro q p hp hkilled
  obtain ⟨p₀, hp₀, rfl⟩ := started_update.mp hp
  by_cases hpid : pid = q
  · subst hpid
    rw [if_pos rfl] at hkilled ⊢
    by_cases halive : p₀.alive = true
    -- it is waited for and still alive, so its SIGTERM was sent
    · obtain ⟨hterminate, _⟩ := hs pid (hawaited List.mem_cons_self) p₀ hp₀ halive
      rw [hphase] at hterminate
      rw [if_pos halive]
      exact hterminate.resolve_left id
    · rw [if_neg halive] at hkilled ⊢
      exact h.order pid p₀ hp₀ hkilled
  · rw [if_neg hpid] at hkilled ⊢
    exact h.order q p₀ hp₀ hkilled

theorem killedLast_step (h : KilledLast s) (hs : ShutdownInv s)
    (hstep : supervisorStep indices s e = some t) : KilledLast t := by
  have hkept : ∀ pid p, s.Started pid p → p.killed = true →
      ∃ p₀, s.Started pid p₀ ∧ p₀.killed = true ∧ p.terminated = p₀.terminated :=
    fun pid p hp hkilled => ⟨p, hp, hkilled, rfl⟩
  have hawaited := h.awaited
  cases supervisorStep_cases hstep with
  | dies _ =>
    refine killedLast_unsent h hawaited ?_
    intro q p hp hkilled
    obtain ⟨p₀, hp₀, rfl⟩ := started_update.mp hp
    refine ⟨p₀, hp₀, ?_, ?_⟩
    · split at hkilled <;> exact hkilled
    · split <;> rfl
  | popens _ =>
    refine killedLast_unsent h (List.nil_subset _) ?_
    intro q p hp hkilled
    obtain hold | ⟨_, rfl⟩ := getElem?_started.mp hp
    · exact hkept q p hold hkilled
    · cases hkilled
  | terminates _ => exact killedLast_terminates h
  | waits _ => exact killedLast_unsent h (List.Subset.refl _) hkept
  | waited hphase _ =>
    rw [hphase] at hawaited
    exact killedLast_unsent h (List.Subset.trans (List.subset_cons_self _ _) hawaited) hkept
  | timesOut hphase =>
    rw [hphase] at hawaited
    exact killedLast_unsent h hawaited hkept
  | kills hphase => exact killedLast_kills h hs hphase
  | sees | misses | records | rests | wakes | stops | raises | returns =>
    exact killedLast_unsent h (List.nil_subset _) hkept

theorem noSignals_step (h : NoSignals s) (he : e ≠ .interrupted)
    (hstep : supervisorStep indices s e = some t) : NoSignals t := by
  obtain ⟨hphase, hnone⟩ := h
  have hnot : ∀ phase : SupervisorPhase, phase.signals = true → s.phase ≠ phase := by
    intro phase hsignals heq
    rw [heq, hsignals] at hphase
    cases hphase
  cases supervisorStep_cases hstep with
  | dies _ =>
    refine ⟨hphase, ?_⟩
    intro q p hp
    obtain ⟨p₀, hp₀, rfl⟩ := started_update.mp hp
    split <;> exact hnone q p₀ hp₀
  | popens _ =>
    refine ⟨rfl, ?_⟩
    intro q p hp
    obtain hold | ⟨_, rfl⟩ := getElem?_started.mp hp
    · exact hnone q p hold
    · exact ⟨rfl, rfl⟩
  | sees _ _ | misses _ _ | records _ | rests _ | wakes _ | raises _ => exact ⟨rfl, hnone⟩
  | stops _ => exact absurd rfl he
  | terminates h | waits h | waited h _ | timesOut h | kills h | returns h =>
    exact absurd h (hnot _ rfl)

end Shutdown

/-- Without a Ctrl-C no process is sent a signal, also when an exception of `Popen` ends the
    command. A SIGKILL comes only after the SIGTERM of the process. When the command has returned
    after a Ctrl-C, each process that is still alive was sent both, but for the one that was
    started and not recorded. -/
theorem supervisor_shutdown (indices : List Nat) {t : SupervisorState}
    {events : List SupervisorEvent}
    (h : exec (supervisorStep indices) (.start indices) events = some t) :
    ((∀ e ∈ events, e ≠ .interrupted) →
      ∀ pid p, t.Started pid p → p.terminated = false ∧ p.killed = false) ∧
    (∀ pid p, t.Started pid p → p.killed = true → p.terminated = true) ∧
    (t.phase = .stopped → ∀ pid p, t.Started pid p → p.alive = true →
      (p.terminated = true ∧ p.killed = true) ∨ t.unrecorded = some pid) := by
  have hstart : (SupervisorState.start indices).phase.signals = false ∧
      (SupervisorState.start indices).phase.awaited = [] := by
    unfold SupervisorState.start
    by_cases hnil : indices = []
    · rw [if_pos hnil]
      exact ⟨rfl, rfl⟩
    · rw [if_neg hnil]
      exact ⟨rfl, rfl⟩
  have hbegin : KilledLast (.start indices) :=
    ⟨hstart.2 ▸ List.nil_subset _, fun pid p hp => by cases hp⟩
  have hinv : SupervisorInv indices t ∧ ShutdownInv t ∧ KilledLast t := by
    refine Reaches.invariant (I := fun s => SupervisorInv indices s ∧ ShutdownInv s ∧ KilledLast s)
      ?_ ⟨events, meets_true _ _, h⟩
      ⟨supervisorInv_start indices, (fun pid hpid => by cases hpid), hbegin⟩
    intro s e u hs _ hstep
    obtain ⟨hwatchers, hshutdown, hlast⟩ := hs
    exact ⟨supervisorInv_step hwatchers hstep, shutdownInv_step hshutdown hstep,
      killedLast_step hlast hshutdown hstep⟩
  obtain ⟨hwatchers, hshutdown, hlast⟩ := hinv
  refine ⟨?_, hlast.order, ?_⟩
  · intro hnone
    have hunsent : NoSignals t := by
      refine Reaches.invariant (I := NoSignals) ?_
        ⟨events, meets_of_forall hnone _, h⟩ ⟨hstart.1, fun pid p hp => by cases hp⟩
      exact fun s e u hs he hstep => noSignals_step hs he hstep
    exact hunsent.2
  · intro hstopped pid p hp halive
    refine (hwatchers.recorded pid p hp halive).imp_left ?_
    intro hget
    have hpid : pid ∈ t.pids := List.mem_map_of_mem (f := Prod.snd) (Dict.mem_of_get hget)
    obtain ⟨hterminate, hkill⟩ := hshutdown pid hpid p hp halive
    rw [hstopped] at hterminate hkill
    exact ⟨hterminate.resolve_left id, hkill.resolve_left id⟩

/-- Ctrl-C comes when the process of modem 2 is not recorded yet. -/
def stoppedEarly : List SupervisorEvent :=
  [.looked, .popened, .recorded, .looked, .popened, .interrupted, .terminated, .ended, .timedOut,
    .killed, .dies 0, .ended]

/-- It lives on, and was sent no signal. -/
theorem supervisor_shutdown_early :
    ∃ t, exec (supervisorStep [0, 2]) (.start [0, 2]) stoppedEarly = some t ∧
      t.processes.map (fun p => (p.modemIndex, p.alive, p.terminated, p.killed)) =
        [(0, false, true, true), (2, true, false, false)] ∧
      ∀ pid p, t.Started pid p → p.alive = true →
        (p.terminated = true ∧ p.killed = true) ∨ pid = 1 := by
  have hrun : (exec (supervisorStep [0, 2]) (.start [0, 2]) stoppedEarly).map
      (fun t => (t.processes.map (fun p => (p.modemIndex, p.alive, p.terminated, p.killed)),
        t.unrecorded, t.phase)) =
      some ([(0, false, true, true), (2, true, false, false)], some 1, .stopped) := by decide
  obtain ⟨t, ht, hshape⟩ := Option.map_eq_some_iff.mp hrun
  simp only [Prod.mk.injEq] at hshape
  obtain ⟨hprocesses, hunrecorded, hphase⟩ := hshape
  refine ⟨t, ht, hprocesses, ?_⟩
  intro pid p hp halive
  have hend := (supervisor_shutdown [0, 2] ht).2.2 hphase pid p hp halive
  rw [hunrecorded] at hend
  exact hend.imp_right (fun h => (Option.some.inj h).symm)
end HiWaveTel
