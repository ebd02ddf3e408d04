import HiWaveTel.Foundation.LazyGlobal

/- The queues of a process: `get_sms_queue`, `get_inbound_processor`,
   `get_outbound_processor` and `get_sms_dlq`. Each is called from any thread (workers, the
   event loop, requests), makes its object at the first call, and is the only place that writes
   its global.

   `one_object_per_process` — however the calls interleave, a process has at most one object of
   each kind and all callers get that one; it has the configured number of threads unless its
   `start` raised, and then it stays as it is until the process ends. -/
namespace HiWaveTel
open Foundation

/-- The configuration is `SMS_QUEUE_WORKERS`; `range` of a negative number is empty. -/
def getSmsQueue : LazyGetter Int where
  gate := .absent
  refuses _ := false
  size numWorkers := numWorkers.toNat

/-- The configuration is `INBOUND_PROCESSOR_WORKERS`. -/
def getInboundProcessor : LazyGetter Int where
  gate := .absent
  refuses numWorkers := decide (numWorkers = 0)
  size numWorkers := numWorkers.toNat

/-- The configuration is `OUTBOUND_PROCESSOR_WORKERS`; `HIWAVETEL_QUEUE_ENABLED` is looked at
    when the global is empty. -/
def getOutboundProcessor : LazyGetter Int where
  gate := .afterRead
  refuses numWorkers := decide (numWorkers ≤ 0)
  size numWorkers := numWorkers.toNat

/-- One recovery worker, whatever the configuration; `SMS_DLQ_ENABLED` comes first. -/
def getSmsDlq : LazyGetter Int where
  gate := .beforeRead
  refuses _ := false
  size _ := 1

inductive GlobalQueue where
  | smsQueue
  | inboundProcessor
  | outboundProcessor
  | smsDlq
  deriving DecidableEq, Repr

def GlobalQueue.getter : GlobalQueue → LazyGetter Int
  | .smsQueue => getSmsQueue
  | .inboundProcessor => getInboundProcessor
  | .outboundProcessor => getOutboundProcessor
  | .smsDlq => getSmsDlq

section Process
variable {τ : Type} [DecidableEq τ]

/-- A state of the calls of one getter that a process can get to. -/
def GetterReaches (q : GlobalQueue) (s u : LazyState τ Int) : Prop :=
  Reaches (lazyStep q.getter) (fun _ _ => True) s u

/-- The processors that send and the recovery of the dead letters always have a thread to start;
    the other two queues can be made without any. -/
def GlobalQueue.leastSize : GlobalQueue → Nat
  | .outboundProcessor | .smsDlq => 1
  | .smsQueue | .inboundProcessor => 0

theorem leastSize_le {q : GlobalQueue} {config : Int} (h : q.getter.refuses config = false) :
    q.leastSize ≤ q.getter.size config := by
  cases q with
  | smsQueue | inboundProcessor => exact Nat.zero_le _
  | smsDlq => exact Nat.le_refl 1
  | outboundProcessor =>
    -- `get_outbound_processor` returns None for no workers
    have hpos : ¬ config ≤ 0 := of_decide_eq_false h
    show 1 ≤ config.toNat
    omega

/-- In every state that any number of interleaved calls reach, with any configuration at any
    time and any failures of the constructor and of `Thread.start`: at most one object has been
    made, whoever got an object got that one, it has no more threads than configured and, once
    no call is in its `start`, exactly as many, unless `start` raised. If it did, no later call
    changes anything about the object. And the lock lets the calls go on. -/
theorem one_object_per_process (q : GlobalQueue) {s : LazyState τ Int}
    (h : GetterReaches q .start s) :
    s.made ≤ 1 ∧
    (∀ t o, s.phase t = .returned (some o) → s.cell = some o) ∧
    (∀ o, s.cell = some o →
      q.leastSize ≤ (s.pool o).size ∧ (s.pool o).started ≤ (s.pool o).size ∧
      ((s.pool o).failed = false → (∀ t, s.phase t ≠ .starting o) →
        (s.pool o).started = (s.pool o).size) ∧
      ((s.pool o).failed = true →
        ∀ u, GetterReaches q s u → u.cell = some o ∧ u.pool o = s.pool o)) ∧
    (∀ t, (s.phase t).isOver = false →
      ∃ a u, lazyStep q.getter s a = some u ∧ ∀ v enabled, a ≠ .enter v enabled) := by
  have hinv : LazyInv q.getter s :=
    Reaches.invariant (fun _ _ _ hi _ hstep => lazyInv_step hi hstep) h (lazyInv_start q.getter)
  refine ⟨?_, ?_, ?_, fun t ht => hinv.progress ht⟩
  · obtain ⟨_, hmade⟩ | ⟨_, hmade⟩ := hinv.cell <;> omega
  · intro t o ht
    have hok := hinv.phases t
    rw [ht] at hok
    exact hok
  · intro o ho
    obtain ⟨⟨config, hconfig, hsize⟩, hle, hall⟩ := hinv.pools o ho
    refine ⟨?_, hle, hall, fun hfailed u hu => failed_stays hinv ho hfailed hu⟩
    rw [hsize]
    exact leastSize_le hconfig

end Process

/-- Two first calls race; the one that has the lock cannot start its second worker. -/
def racingCalls : List (LazyAction Bool Int) :=
  [.enter true true, .enter false true, .acquire true, .recheck true (some 3),
    .construct true false, .startThread true false, .startThread true true, .acquire false,
    .recheck false (some 3), .read false]

/-- The other gets the queue that has one of its three workers, and so does everyone after it. -/
theorem one_object_per_process_racing :
    ∃ s : LazyState Bool Int, s.phase false = .returned (some 0) ∧ s.made ≤ 1 ∧
      s.pool 0 = ⟨3, 1, true⟩ ∧
      ∀ u, GetterReaches .smsQueue s u → u.cell = some 0 ∧ u.pool 0 = ⟨3, 1, true⟩ := by
  have hrun : (exec (lazyStep getSmsQueue) (LazyState.start : LazyState Bool Int) racingCalls).map
      (fun s => (s.cell, s.pool 0)) = some (some 0, ⟨3, 1, true⟩) := by decide
  obtain ⟨s, hs, hshape⟩ := Option.map_eq_some_iff.mp hrun
  obtain ⟨hcell, hpool⟩ := Prod.mk.inj hshape
  have hphase : s.phase false = .returned (some 0) := by
    cases hs
    rfl
  have h := one_object_per_process .smsQueue ⟨racingCalls, meets_true _ _, hs⟩
  obtain ⟨hmade, _, hobject, _⟩ := h
  obtain ⟨_, _, _, hstays⟩ := hobject 0 hcell
  rw [hpool] at hstays
  exact ⟨s, hphase, hmade, hpool, hstays rfl⟩

end HiWaveTel
