import HiWaveTel.ModemRegistry
import HiWaveTel.Foundation.Run

/- The modem registry while syncs and settings of modems interleave. A sync has its listing and
   goes through it index by index: `get_or_create` is a SELECT, and an INSERT that another sync
   may win; the row that was found is saved by its own UPDATE. A `PUT` of a modem is a SELECT
   and, once the request is checked, an UPDATE of `enabled`. Each statement is a step.

   `settings_survive_syncs` — whatever runs at the same time, a modem is enabled as the last
   `PUT` that was saved for it says, and no sync takes a row away or changes when it was first
   detected. `exec_sync` — a sync that nothing interrupts does what `syncTable` says. -/
namespace HiWaveTel
open Foundation

/-! ## The statements -/

/-- What the next statement of a sync is. -/
inductive SyncStage where
  | looking        -- the SELECT of `get_or_create`
  | inserting
  | saving
  deriving DecidableEq, Repr

structure SyncRun where
  times : SyncTimes
  paths : List (Nat × Str)
  todo : List Nat
  stage : SyncStage

/-- `sorted(paths_by_index)`, which is also `seen` after the loop. -/
def SyncRun.seen (run : SyncRun) : List Nat := sortedSet (run.paths.map Prod.fst)

structure RegistryState where
  table : ModemTable
  syncs : List SyncRun
  puts : List (Nat × Bool)         -- the row was found, and the UPDATE is to come
  settings : List (Nat × Bool)     -- the settings that were saved, the last one first

inductive RegistryAction where
  | syncStarts (times : SyncTimes) (paths : List (Nat × Str))
  | looks (i : Nat)
  | inserts (i : Nat)
  | saves (i : Nat)
  | marks (i : Nat)
  | putFinds (modemIndex : Nat) (enabled : Bool)
  | putSaves (i : Nat)

/-- `device.save(update_fields=['enabled'])`. -/
def setEnabled (enabled : Bool) : KeyedUpdate ModemDevice.modemIndex where
  set r := { r with enabled }
  key_set _ := rfl

/-- The UPDATE of the rows that the sync has not seen. -/
def markUnseen (seen : List Nat) (t : ModemTable) : ModemTable :=
  if seen = [] then t.updateWhere (fun _ => true) markAbsent
  else t.updateWhere (fun r => !seen.contains r.modemIndex) markAbsent

def RegistryState.start (table : ModemTable) : RegistryState := ⟨table, [], [], []⟩

def registryStep (s : RegistryState) : RegistryAction → Option RegistryState
  | .syncStarts times paths =>
    let run : SyncRun := ⟨times, paths, sortedSet (paths.map Prod.fst), .looking⟩
    some { s with syncs := s.syncs ++ [run] }
  | .looks i =>
    match s.syncs[i]? with
    | some ⟨times, paths, k :: todo, .looking⟩ =>
      let stage := if (s.table.get? k).isSome then SyncStage.saving else .inserting
      some { s with syncs := s.syncs.set i ⟨times, paths, k :: todo, stage⟩ }
    | _ => none
  | .inserts i =>
    match s.syncs[i]? with
    | some ⟨times, paths, k :: todo, .inserting⟩ =>
      match h : s.table.get? k with
      | none =>
        some { s with table := s.table.insert (newModemDevice times paths k) h
                      syncs := s.syncs.set i ⟨times, paths, todo, .looking⟩ }
      -- another sync has inserted it: an `IntegrityError`, and the row is read
      | some _ => some { s with syncs := s.syncs.set i ⟨times, paths, k :: todo, .saving⟩ }
    | _ => none
  | .saves i =>
    match s.syncs[i]? with
    | some ⟨times, paths, k :: todo, .saving⟩ =>
      let table := s.table.updateWhere (fun r => decide (r.modemIndex = k))
        (detectedAgain times paths k)
      some { s with table, syncs := s.syncs.set i ⟨times, paths, todo, .looking⟩ }
    | _ => none
  | .marks i =>
    match s.syncs[i]? with
    | some ⟨times, paths, [], .looking⟩ =>
      let run : SyncRun := ⟨times, paths, [], .looking⟩
      some { s with table := markUnseen run.seen s.table, syncs := s.syncs.eraseIdx i }
    | _ => none
  | .putFinds modemIndex enabled =>
    match s.table.get? modemIndex with
    | some _ => some { s with puts := s.puts ++ [(modemIndex, enabled)] }
    | none => none
  | .putSaves i =>
    match s.puts[i]? with
    | some (modemIndex, enabled) =>
      let table := s.table.updateWhere (fun r => decide (r.modemIndex = modemIndex))
        (setEnabled enabled)
      some { s with table, puts := s.puts.eraseIdx i
                    settings := (modemIndex, enabled) :: s.settings }
    | none => none

/-! ## What a step does to the table -/

/-- An UPDATE that a sync makes leaves these columns alone. -/
structure SparesSettings (u : KeyedUpdate ModemDevice.modemIndex) : Prop where
  enabled : ∀ r, (u.set r).enabled = r.enabled
  firstDetectedAt : ∀ r, (u.set r).firstDetectedAt = r.firstDetectedAt

/-- Every way a step can go, as the table and the settings see it. -/
inductive Registers (s : RegistryState) : RegistryState → Prop
  | quiet {t} (htable : t.table = s.table) (hputs : t.puts = s.puts)
      (hsettings : t.settings = s.settings) : Registers s t
  | inserts {t k} {new : KeyedRow ModemDevice.modemIndex k} (hnone : s.table.get? k = none)
      (hnew : new.row.enabled = true) (htable : t.table = s.table.insert new hnone)
      (hputs : t.puts = s.puts) (hsettings : t.settings = s.settings) : Registers s t
  | updates {t q u} (hspares : SparesSettings u) (htable : t.table = s.table.updateWhere q u)
      (hputs : t.puts = s.puts) (hsettings : t.settings = s.settings) : Registers s t
  | finds {t k enabled} (hfound : (s.table.get? k).isSome) (htable : t.table = s.table)
      (hputs : t.puts = s.puts ++ [(k, enabled)]) (hsettings : t.settings = s.settings) :
      Registers s t
  | sets {t k enabled} (hput : (k, enabled) ∈ s.puts)
      (htable : t.table = s.table.updateWhere (fun r => decide (r.modemIndex = k))
        (setEnabled enabled))
      (hputs : ∀ put ∈ t.puts, put ∈ s.puts)
      (hsettings : t.settings = (k, enabled) :: s.settings) : Registers s t

theorem sparesSettings_detectedAgain (times : SyncTimes) (paths : List (Nat × Str)) (k : Nat) :
    SparesSettings (detectedAgain times paths k) := ⟨fun _ => rfl, fun _ => rfl⟩

theorem sparesSettings_markAbsent : SparesSettings markAbsent := ⟨fun _ => rfl, fun _ => rfl⟩

theorem registryStep_cases {s t : RegistryState} {a : RegistryAction}
    (h : registryStep s a = some t) : Registers s t := by
  cases a with
  | syncStarts times paths =>
    cases h
    exact .quiet rfl rfl rfl
  | looks i =>
    simp only [registryStep] at h
    split at h
    · cases h
      exact .quiet rfl rfl rfl
    · cases h
  | inserts i =>
    simp only [registryStep] at h
    split at h
    · split at h
      · next hnone =>
        cases h
        exact .inserts hnone rfl rfl rfl rfl
      · cases h
        exact .quiet rfl rfl rfl
    · cases h
  | saves i =>
    simp only [registryStep] at h
    split at h
    · cases h
      exact .updates (sparesSettings_detectedAgain _ _ _) rfl rfl rfl
    · cases h
  | marks i =>
    simp only [registryStep] at h
    split at h
    · next times paths _ =>
      cases h
      by_cases hseen : SyncRun.seen ⟨times, paths, [], .looking⟩ = []
      · exact .updates sparesSettings_markAbsent (if_pos hseen) rfl rfl
      · exact .updates sparesSettings_markAbsent (if_neg hseen) rfl rfl
    · cases h
  | putFinds modemIndex enabled =>
    simp only [registryStep] at h
    split at h
    · next r hr =>
      cases h
      exact .finds (by rw [hr]; rfl) rfl rfl rfl
    · cases h
  | putSaves i =>
    simp only [registryStep] at h
    split at h
    · next k enabled hput =>
      cases h
      exact .sets (List.mem_of_getElem? hput) rfl (fun put h => List.mem_of_mem_eraseIdx h) rfl
    · cases h

/-! ## The rows -/

/-- No row goes, and none is detected for the first time again. -/
def KeepsRows (table table' : ModemTable) : Prop :=
  ∀ k old, table.get? k = some old →
    ∃ r, table'.get? k = some r ∧ r.firstDetectedAt = old.firstDetectedAt

theorem keepsRows_refl (table : ModemTable) : KeepsRows table table :=
  fun _ old hold => ⟨old, hold, rfl⟩

theorem KeepsRows.trans {a b c : ModemTable} (hab : KeepsRows a b) (hbc : KeepsRows b c) :
    KeepsRows a c := by
  intro k old hold
  obtain ⟨r, hr, hfirst⟩ := hab k old hold
  obtain ⟨r', hr', hfirst'⟩ := hbc k r hr
  exact ⟨r', hr', hfirst'.trans hfirst⟩

theorem keepsRows_updateWhere (table : ModemTable) {q : ModemDevice → Bool}
    {u : KeyedUpdate ModemDevice.modemIndex}
    (hu : ∀ r, (u.set r).firstDetectedAt = r.firstDetectedAt) :
    KeepsRows table (table.updateWhere q u) := by
  intro k old hold
  rw [KeyedTable.get?_updateWhere, hold]
  refine ⟨_, rfl, ?_⟩
  show (if q old then u.set old else old).firstDetectedAt = _
  split
  · exact hu old
  · rfl

theorem keepsRows_insert {table : ModemTable} {k : Nat} {new : KeyedRow ModemDevice.modemIndex k}
    (hnone : table.get? k = none) : KeepsRows table (table.insert new hnone) := by
  intro k' old hold
  have hne : k' ≠ k := by
    rintro rfl
    rw [hnone] at hold
    cases hold
  rw [KeyedTable.get?_insert, if_neg hne]
  exact ⟨old, hold, rfl⟩

theorem keepsRows_step {s t : RegistryState} {a : RegistryAction}
    (h : registryStep s a = some t) : KeepsRows s.table t.table := by
  cases registryStep_cases h with
  | quiet htable | finds _ htable =>
    rw [htable]
    exact keepsRows_refl s.table
  | inserts hnone _ htable =>
    rw [htable]
    exact keepsRows_insert hnone
  | updates hspares htable =>
    rw [htable]
    exact keepsRows_updateWhere s.table hspares.firstDetectedAt
  | sets _ htable =>
    rw [htable]
    exact keepsRows_updateWhere s.table (fun _ => rfl)

theorem keepsRows_exec {s t : RegistryState} {actions : List RegistryAction}
    (h : exec registryStep s actions = some t) : KeepsRows s.table t.table := by
  refine Reaches.invariant (I := fun u : RegistryState => KeepsRows s.table u.table) ?_
    ⟨actions, meets_true _ _, h⟩ (keepsRows_refl s.table)
  exact fun u a v hu _ hstep => hu.trans (keepsRows_step hstep)

/-! ## The settings -/

/-- What a modem was set to when the run began; a new row is enabled. -/
def enabledBefore (table : ModemTable) (k : Nat) : Bool :=
  (table.get? k).elim true ModemDevice.enabled

structure RegistryInv (table : ModemTable) (s : RegistryState) : Prop where
  kept : KeepsRows table s.table
  enabled : ∀ k r, s.table.get? k = some r →
    r.enabled = (Dict.get s.settings k).getD (enabledBefore table k)
  known : ∀ put ∈ s.puts ++ s.settings, (s.table.get? put.1).isSome

section Settings
variable {table : ModemTable} {s t : RegistryState}

theorem registryInv_start (table : ModemTable) : RegistryInv table (.start table) := by
  refine ⟨keepsRows_refl table, ?_, fun put hput => absurd hput List.not_mem_nil⟩
  intro k r hr
  have hget : table.get? k = some r := hr
  show r.enabled = enabledBefore table k
  rw [enabledBefore, hget]
  rfl

theorem registryInv_quiet (h : RegistryInv table s) (htable : t.table = s.table)
    (hputs : t.puts = s.puts) (hsettings : t.settings = s.settings) : RegistryInv table t := by
  obtain ⟨hkept, henabled, hknown⟩ := h
  refine ⟨?_, ?_, ?_⟩
  · rwa [htable]
  · rwa [htable, hsettings]
  · rwa [htable, hputs, hsettings]

theorem registryInv_updates {q : ModemDevice → Bool} {u : KeyedUpdate ModemDevice.modemIndex}
    (h : RegistryInv table s) (hspares : SparesSettings u)
    (htable : t.table = s.table.updateWhere q u) (hputs : t.puts = s.puts)
    (hsettings : t.settings = s.settings) : RegistryInv table t := by
  have hsame : ∀ r : ModemDevice, (if q r then u.set r else r).enabled = r.enabled := by
    intro r
    split
    · exact hspares.enabled r
    · rfl
  refine ⟨?_, ?_, ?_⟩
  · rw [htable]
    exact h.kept.trans (keepsRows_updateWhere s.table hspares.firstDetectedAt)
  · intro k r hr
    rw [htable, KeyedTable.get?_updateWhere] at hr
    obtain ⟨r₀, hr₀, rfl⟩ := Option.map_eq_some_iff.mp hr
    rw [hsame r₀, hsettings]
    exact h.enabled k r₀ hr₀
  · intro put hput
    rw [hputs, hsettings] at hput
    rw [htable, KeyedTable.get?_updateWhere, Option.isSome_map]
    exact h.known put hput

/-- A row that was not there has no settings yet. -/
theorem registryInv_inserts {k : Nat} {new : KeyedRow ModemDevice.modemIndex k}
    (h : RegistryInv table s) (hnone : s.table.get? k = none) (hnew : new.row.enabled = true)
    (htable : t.table = s.table.insert new hnone) (hputs : t.puts = s.puts)
    (hsettings : t.settings = s.settings) : RegistryInv table t := by
  have hnot : ∀ put ∈ s.puts ++ s.settings, put.1 ≠ k := by
    intro put hput heq
    have hsome := h.known put hput
    rw [heq, hnone] at hsome
    cases hsome
  refine ⟨?_, ?_, ?_⟩
  · rw [htable]
    exact h.kept.trans (keepsRows_insert hnone)
  · intro k' r hr
    rw [htable, KeyedTable.get?_insert] at hr
    rw [hsettings]
    by_cases hk : k' = k
    · rw [if_pos hk] at hr
      cases hr
      have hget : Dict.get s.settings k' = none := by
        apply Dict.get_eq_none.mpr
        intro put hput heq
        exact hnot put (List.mem_append_right _ hput) (heq.trans hk)
      -- rows stay, so a modem without one now had none before
      have hbefore : table.get? k' = none := by
        cases hold : table.get? k' with
        | none => rfl
        | some old =>
          obtain ⟨r, hr, _⟩ := h.kept k' old hold
          rw [hk, hnone] at hr
          cases hr
      rw [hget, enabledBefore, hbefore, hnew]
      rfl
    · rw [if_neg hk] at hr
      exact h.enabled k' r hr
  · intro put hput
    rw [hputs, hsettings] at hput
    rw [htable, KeyedTable.get?_insert, if_neg (hnot put hput)]
    exact h.known put hput

theorem registryInv_sets {k : Nat} {enabled : Bool} (h : RegistryInv table s)
    (hput : (k, enabled) ∈ s.puts)
    (htable : t.table = s.table.updateWhere (fun r => decide (r.modemIndex = k))
      (setEnabled enabled))
    (hputs : ∀ put ∈ t.puts, put ∈ s.puts) (hsettings : t.settings = (k, enabled) :: s.settings) :
    RegistryInv table t := by
  refine ⟨?_, ?_, ?_⟩
  · rw [htable]
    exact h.kept.trans (keepsRows_updateWhere s.table (fun _ => rfl))
  · intro k' r hr
    rw [htable, KeyedTable.get?_updateWhere] at hr
    obtain ⟨r₀, hr₀, rfl⟩ := Option.map_eq_some_iff.mp hr
    have hkey : r₀.modemIndex = k' := (KeyedTable.get?_eq_some.mp hr₀).2
    -- of the settings saved for a modem the last one counts
    rw [hsettings, Dict.get_cons, hkey]
    by_cases hk : k' = k
    · rw [if_pos (decide_eq_true hk), if_pos (beq_iff_eq.mpr hk.symm)]
      rfl
    · rw [if_neg (by simpa using hk), if_neg (by simpa using Ne.symm hk)]
      exact h.enabled k' r₀ hr₀
  · intro put hmem
    rw [htable, KeyedTable.get?_updateWhere, Option.isSome_map]
    rw [hsettings] at hmem
    obtain hmem | hmem := List.mem_append.mp hmem
    · exact h.known put (List.mem_append_left _ (hputs put hmem))
    · obtain rfl | hmem := List.mem_cons.mp hmem
      · exact h.known _ (List.mem_append_left _ hput)
      · exact h.known put (List.mem_append_right _ hmem)

theorem registryInv_step {a : RegistryAction} (h : RegistryInv table s)
    (hstep : registryStep s a = some t) : RegistryInv table t := by
  cases registryStep_cases hstep with
  | quiet htable hputs hsettings => exact registryInv_quiet h htable hputs hsettings
  | inserts hnone hnew htable hputs hsettings =>
    exact registryInv_inserts h hnone hnew htable hputs hsettings
  | updates hspares htable hputs hsettings =>
    exact registryInv_updates h hspares htable hputs hsettings
  | @finds k enabled hfound htable hputs hsettings =>
    obtain ⟨hkept, henabled, hknown⟩ := h
    refine ⟨by rwa [htable], by rwa [htable, hsettings], ?_⟩
    intro put hput
    -- the row that a `PUT` has found cannot go away before it is saved
    rw [hputs, hsettings, List.append_assoc] at hput
    rw [htable]
    obtain hput | hput := List.mem_append.mp hput
    · exact hknown put (List.mem_append_left _ hput)
    · obtain rfl | hput := List.mem_cons.mp hput
      · exact hfound
      · exact hknown put (List.mem_append_right _ hput)
  | sets hput htable hputs hsettings => exact registryInv_sets h hput htable hputs hsettings

end Settings

/-- In every run of syncs and of `PUT` requests, however their statements interleave, and from any
    moment `s` of it on: each row there was is still there, with the time at which it was first
    detected, and a modem is enabled as the last `PUT` that was saved for it says; without one it
    is as before the run, and a new one is enabled. -/
theorem settings_survive_syncs (table : ModemTable) {s t : RegistryState}
    {past actions : List RegistryAction}
    (hpast : exec registryStep (.start table) past = some s)
    (h : exec registryStep s actions = some t) :
    (∀ k old, s.table.get? k = some old →
      ∃ r, t.table.get? k = some r ∧ r.firstDetectedAt = old.firstDetectedAt) ∧
    ∀ k r, t.table.get? k = some r →
      r.enabled = (Dict.get t.settings k).getD (enabledBefore table k) := by
  have hinv : RegistryInv table t := by
    refine Reaches.invariant (I := RegistryInv table) ?_
      ⟨past ++ actions, meets_true _ _, exec_append_eq_some.mpr ⟨s, hpast, h⟩⟩
      (registryInv_start table)
    exact fun s a u hs _ hstep => registryInv_step hs hstep
  exact ⟨keepsRows_exec h, hinv.enabled⟩

/-- Modem 3 is found by two syncs at once; it is disabled before the slower one saves it. -/
def foundTwice (times : SyncTimes) (paths : List (Nat × Str)) : List RegistryAction :=
  [.syncStarts times paths, .syncStarts times paths, .looks 0, .looks 1, .inserts 0, .inserts 1,
    .putFinds 3 false, .putSaves 0, .saves 1, .marks 1, .marks 0]

def emptyRegistry : ModemTable := ⟨[], List.nodup_nil⟩

/-- It stays disabled, and is the row of the first detection. -/
theorem settings_survive_syncs_twice :
    ∃ s t, exec registryStep (.start emptyRegistry) ((foundTwice ⟨fun _ => 1, fun _ => 2⟩
        [(3, "/Modem/3".toList)]).take 5) = some s ∧
      exec registryStep s ((foundTwice ⟨fun _ => 1, fun _ => 2⟩ [(3, "/Modem/3".toList)]).drop 5) =
        some t ∧
      t.table.rows.map (fun r => (r.modemIndex, r.isPresent, r.lastDetectedAt)) = [(3, true, 2)] ∧
      (∀ old, s.table.get? 3 = some old →
        ∃ r, t.table.get? 3 = some r ∧ r.firstDetectedAt = old.firstDetectedAt) ∧
      ∀ r, t.table.get? 3 = some r → r.enabled = false := by
  have hrun : ((exec registryStep (.start emptyRegistry) ((foundTwice ⟨fun _ => 1, fun _ => 2⟩
      [(3, "/Modem/3".toList)]).take 5)).bind (fun s =>
        exec registryStep s
          ((foundTwice ⟨fun _ => 1, fun _ => 2⟩ [(3, "/Modem/3".toList)]).drop 5))).map (fun t =>
        (t.table.rows.map (fun r => (r.modemIndex, r.isPresent, r.lastDetectedAt)), t.settings)) =
      some ([(3, true, 2)], [(3, false)]) := by decide +kernel
  obtain ⟨t, ht, hshape⟩ := Option.map_eq_some_iff.mp hrun
  obtain ⟨s, hs, ht⟩ := Option.bind_eq_some_iff.mp ht
  simp only [Prod.mk.injEq] at hshape
  obtain ⟨hkept, henabled⟩ := settings_survive_syncs emptyRegistry hs ht
  refine ⟨s, t, hs, ht, hshape.1, hkept 3, ?_⟩
  intro r hr
  have hset := henabled 3 r hr
  rw [hshape.2] at hset
  exact hset

/-! ## A sync alone -/

section Alone
variable {times : SyncTimes} {paths : List (Nat × Str)}

/-- An index of the loop: the row is found and saved, or it is created. -/
theorem exec_index {s : RegistryState} {i k : Nat} {todo : List Nat}
    (hrun : s.syncs[i]? = some ⟨times, paths, k :: todo, .looking⟩) :
    ∃ actions, exec registryStep s actions = some { s with
      table := s.table.upsert k (detectedAgain times paths k) (newModemDevice times paths k)
      syncs := s.syncs.set i ⟨times, paths, todo, .looking⟩ } := by
  have hlt : i < s.syncs.length := (List.getElem?_eq_some_iff.mp hrun).1
  have hset : ∀ run : SyncRun, (s.syncs.set i run)[i]? = some run :=
    fun run => List.getElem?_set_self hlt
  cases hget : s.table.get? k with
  | some r =>
    refine ⟨[.looks i, .saves i], ?_⟩
    rw [KeyedTable.upsert_of_some hget]
    simp [exec, registryStep, hrun, hget, hset, List.set_set]
  | none =>
    refine ⟨[.looks i, .inserts i], ?_⟩
    rw [KeyedTable.upsert_of_none hget]
    have hlooks : registryStep s (.looks i) =
        some { s with syncs := s.syncs.set i ⟨times, paths, k :: todo, .inserting⟩ } := by
      simp [registryStep, hrun, hget]
    have hinserts : registryStep
        { s with syncs := s.syncs.set i ⟨times, paths, k :: todo, .inserting⟩ } (.inserts i) =
        some { s with table := s.table.insert (newModemDevice times paths k) hget
                      syncs := s.syncs.set i ⟨times, paths, todo, .looking⟩ } := by
      -- nothing came between the look and the insert
      simp only [registryStep, hset]
      split
      · simp only [List.set_set]
      · next r hr =>
        rw [hget] at hr
        cases hr
    exact exec_cons_eq_some.mpr ⟨_, hlooks, exec_cons_eq_some.mpr ⟨_, hinserts, rfl⟩⟩

theorem exec_todo {i : Nat} (todo : List Nat) {s : RegistryState}
    (hrun : s.syncs[i]? = some ⟨times, paths, todo, .looking⟩) :
    ∃ actions, exec registryStep s actions = some { s with
      table := s.table.upsertAll (detectedAgain times paths) (newModemDevice times paths) todo
      syncs := s.syncs.set i ⟨times, paths, [], .looking⟩ } := by
  induction todo generalizing s with
  | nil =>
    refine ⟨[], ?_⟩
    have hsame : s.syncs.set i ⟨times, paths, [], .looking⟩ = s.syncs := by
      obtain ⟨hlt, heq⟩ := List.getElem?_eq_some_iff.mp hrun
      rw [← heq, List.set_getElem_self]
    rw [hsame]
    rfl
  | cons k todo ih =>
    have hlt : i < s.syncs.length := (List.getElem?_eq_some_iff.mp hrun).1
    obtain ⟨first, hfirst⟩ := exec_index hrun
    obtain ⟨rest, hrest⟩ := ih (s := { s with
      table := s.table.upsert k (detectedAgain times paths k) (newModemDevice times paths k)
      syncs := s.syncs.set i ⟨times, paths, todo, .looking⟩ }) (List.getElem?_set_self hlt)
    refine ⟨first ++ rest, exec_append_eq_some.mpr ⟨_, hfirst, ?_⟩⟩
    rw [hrest, List.set_set]
    rfl

/-- The statements of a sync one after the other are `syncTable`. -/
theorem exec_sync {s : RegistryState} {i : Nat}
    (hrun : s.syncs[i]? = some ⟨times, paths, sortedSet (paths.map Prod.fst), .looking⟩) :
    ∃ actions, exec registryStep s actions =
      some { s with table := syncTable times paths s.table, syncs := s.syncs.eraseIdx i } := by
  have hlt : i < s.syncs.length := (List.getElem?_eq_some_iff.mp hrun).1
  obtain ⟨actions, hloop⟩ := exec_todo _ hrun
  refine ⟨actions ++ [.marks i], exec_append_eq_some.mpr ⟨_, hloop, ?_⟩⟩
  simp only [exec, registryStep, List.getElem?_set_self hlt, List.eraseIdx_set_eq]
  rfl

end Alone
end HiWaveTel
