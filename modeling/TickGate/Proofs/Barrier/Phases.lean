import TickGate.Proofs.Barrier.Agreement

/-!
# What the phase of a barrier says

The phase, the registry and the sealed snapshot of a barrier are changed by different operations,
and some operations look for the current tick or for the sealed snapshot and have a fault ready if
there is none.  `Coherent` is how the three agree in all states that calls lead to: no tick has
begun, or one is open, or one is sealed and its snapshot is the registry's.  So the faults held
ready never come up, and `phase_classifies_faults` tells from the phase which faults do.

A `Barrier` has its sealed snapshot inside the deciding phase.  To see that nothing hides in this,
`Cells` stores the three side by side, and every session of the cells is answered as the session of
the barrier.
-/

namespace TickGate

/-- A phase without the snapshot of a sealed tick. -/
inductive Stage where
  | idle
  | publishing
  | deciding
  deriving DecidableEq, Repr

namespace Phase

@[simp]
def stage : Phase → Stage
  | idle => .idle
  | publishing => .publishing
  | deciding _ => .deciding

/-- The snapshot of a sealed tick. -/
@[simp]
def sealed? : Phase → Option Snapshot
  | deciding sealed => some sealed
  | _ => none

end Phase

namespace Barrier

/-! ## A barrier in cells -/

/-- The parts of a barrier, stored side by side. -/
structure Cells where
  stage : Stage := .idle
  registry : Registry
  sealed : Option Snapshot := none

namespace Cells

def new (rule : DuplicateRule) : Cells := { registry := .new rule }

/-- What an operation looks for, or the fault that it has ready. -/
def found {α : Type} : Option α → Except Fault α
  | none => .error .noActiveTick
  | some content => .ok content

/-- Starts the publishing phase of a tick, and forgets the sealed snapshot. -/
def beginTick (cells : Cells) (tick : Tick) : Cells :=
  { stage := .publishing, registry := (cells.registry.beginTick tick).value, sealed := none }

/-- Publishes a value, in the publishing phase only. -/
def publish (cells : Cells) (id : SourceId) (value : Bool) : Except Fault Unit × Cells :=
  match cells.stage with
  | .idle => (.error .noActiveTick, cells)
  | .deciding =>
    (do
      let tick ← found cells.registry.currentTick
      .error (.publishAfterSeal id tick), cells)
  | .publishing =>
    let (answer, registry) := (cells.registry.publish id value).value
    (answer, { cells with registry })

/-- Stores the snapshot and ends the publishing phase, if no expected source is silent. -/
def sealTick (cells : Cells) : Except Fault Snapshot × Cells :=
  match cells.stage with
  | .idle => (.error .noActiveTick, cells)
  | .deciding => (found cells.sealed, cells)
  | .publishing =>
    match found cells.registry.currentTick with
    | .error fault => (.error fault, cells)
    | .ok tick =>
      match cells.registry.missing with
      | [] =>
        let snapshot := cells.registry.snapshot
        (.ok snapshot, { cells with sealed := some snapshot, stage := .deciding })
      | missing => (.error (.incompleteSnapshot tick missing), cells)

/-- The sealed snapshot, in the deciding phase only. -/
def snapshot (cells : Cells) : Except Fault Snapshot :=
  match cells.stage with
  | .idle => .error .noActiveTick
  | .publishing => do
    let tick ← found cells.registry.currentTick
    .error (.readBeforeSeal tick)
  | .deciding => found cells.sealed

def perform (cells : Cells) : Call → Answer × Cells
  | .declare id =>
    let (isNew, registry) := cells.registry.declare id
    (.declared isNew, { cells with registry })
  | .beginTick tick => (.begun, cells.beginTick tick)
  | .publish id value =>
    let (answer, cells) := cells.publish id value
    (.published answer, cells)
  | .sealTick =>
    let (answer, cells) := cells.sealTick
    (.snapshot answer, cells)
  | .snapshot => (.snapshot cells.snapshot, cells)

/-- The cells of a barrier. -/
def ofBarrier (barrier : Barrier) : Cells where
  stage := barrier.phase.stage
  registry := barrier.registry
  sealed := barrier.phase.sealed?

/-- Looking for the current tick ends in the fault that speaks of it, or that there is none. -/
theorem found_bind_error {α : Type} (barrier : Barrier) (fault : Tick → Fault) :
    (do
      let tick ← found barrier.registry.currentTick
      .error (fault tick) : Except Fault α) = .error (barrier.faultAt fault) := by
  rw [faultAt, currentTick]
  cases barrier.registry.currentTick with
  | none => rfl
  | some tick => rfl

theorem publish_ofBarrier (barrier : Barrier) (id : SourceId) (value : Bool) :
    (ofBarrier barrier).publish id value =
      ((barrier.publish id value).value.1, ofBarrier (barrier.publish id value).value.2) := by
  obtain ⟨registry, phase⟩ := barrier
  cases phase with
  | idle => rfl
  | publishing => rfl
  | deciding sealed =>
      exact Prod.ext (found_bind_error ⟨registry, .deciding sealed⟩ (.publishAfterSeal id)) rfl

theorem sealTick_ofBarrier (barrier : Barrier) :
    (ofBarrier barrier).sealTick =
      (barrier.sealTick.value.1, ofBarrier barrier.sealTick.value.2) := by
  obtain ⟨registry, phase⟩ := barrier
  cases phase with
  | idle => rfl
  | deciding sealed => rfl
  | publishing =>
      cases htick : registry.currentTick with
      | none => simp [sealTick, Barrier.sealTick, ofBarrier, currentTick, found, htick]
      | some tick =>
          -- Only here do both look at the missing sources; all other cases agree by computation.
          have hcurrent : (⟨registry, .publishing⟩ : Barrier).currentTick = some tick := htick
          by_cases hmissing : registry.missing = []
          · rw [sealTick_of_complete rfl hcurrent hmissing]
            simp [sealTick, ofBarrier, found, htick, hmissing]
          · rw [sealTick_of_missing rfl hcurrent hmissing]
            simp [sealTick, ofBarrier, found, htick]

theorem snapshot_ofBarrier (barrier : Barrier) :
    (ofBarrier barrier).snapshot = barrier.snapshot := by
  obtain ⟨registry, phase⟩ := barrier
  cases phase with
  | idle => rfl
  | deciding sealed => rfl
  | publishing => exact found_bind_error ⟨registry, .publishing⟩ .readBeforeSeal

/-- A call on the cells of a barrier is the call on the barrier. -/
theorem perform_ofBarrier (barrier : Barrier) (call : Call) :
    (ofBarrier barrier).perform call =
      ((barrier.perform call).1, ofBarrier (barrier.perform call).2) := by
  cases call with
  | declare id => rfl
  | beginTick tick => rfl
  | publish id value => rw [perform, publish_ofBarrier, Barrier.perform]
  | sealTick => rw [perform, sealTick_ofBarrier, Barrier.perform]
  | snapshot => rw [perform, snapshot_ofBarrier, Barrier.perform]

end Cells

/-! ## Coherence -/

/-- The phase, the current tick and the sealed snapshot agree. -/
inductive Coherent (barrier : Barrier) : Prop
  | idle (phase : barrier.phase = .idle) (currentTick : barrier.currentTick = none)
  | publishing (tick : Tick) (phase : barrier.phase = .publishing)
      (currentTick : barrier.currentTick = some tick)
  | deciding (tick : Tick) (phase : barrier.phase = .deciding barrier.registry.snapshot)
      (currentTick : barrier.currentTick = some tick)

theorem Explains.coherent {rule : DuplicateRule} {log : List Entry} {barrier : Barrier}
    (h : Explains rule log barrier) : Coherent barrier := by
  cases h with
  | idle tracks phase => exact .idle phase tracks.currentTick
  | publishing _ tick _ tracks phase => exact .publishing tick phase tracks.currentTick
  | deciding _ tick _ _ _ tracks phase => exact .deciding tick phase tracks.currentTick

namespace Coherent

variable {barrier : Barrier} (h : Coherent barrier)

include h

theorem stage_idle_iff : barrier.phase.stage = .idle ↔ barrier.currentTick = none := by
  cases h with
  | idle phase currentTick => simp [phase, currentTick]
  | publishing _ phase currentTick => simp [phase, currentTick]
  | deciding _ phase currentTick => simp [phase, currentTick]

theorem sealed?_eq :
    barrier.phase.sealed? =
      if barrier.phase.stage = .deciding then some barrier.registry.snapshot else none := by
  cases h with
  | idle phase => simp [phase]
  | publishing _ phase => simp [phase]
  | deciding _ phase => simp [phase]

/-- Which faults a publish ends in because of the phase. -/
theorem publish_fault_iff (id : SourceId) (value : Bool) :
    ((barrier.publish id value).value.1 = .error .noActiveTick ↔ barrier.phase.stage = .idle) ∧
    ∀ source tick,
      (barrier.publish id value).value.1 = .error (.publishAfterSeal source tick) ↔
        barrier.phase.stage = .deciding ∧ source = id ∧ barrier.currentTick = some tick := by
  cases h with
  | idle phase currentTick => simp [publish_of_idle phase, phase]
  | publishing tick phase currentTick =>
      rw [publish_value_of_publishing phase]
      rcases Registry.publish_value_cases currentTick id value with ⟨next, hvalue, -⟩ | hvalue
      · simp [hvalue, phase]
      · simp [hvalue, phase]
  | deciding tick phase currentTick =>
      rw [publish_of_deciding phase, faultAt_of_currentTick currentTick]
      simp [phase, currentTick, eq_comm]

theorem sealTick_fault_iff :
    (barrier.sealTick.value.1 = .error .noActiveTick ↔ barrier.phase.stage = .idle) ∧
    ∀ tick missing,
      barrier.sealTick.value.1 = .error (.incompleteSnapshot tick missing) ↔
        barrier.phase.stage = .publishing ∧ barrier.currentTick = some tick ∧
          missing = barrier.registry.missing ∧ missing ≠ [] := by
  cases h with
  | idle phase currentTick => simp [sealTick_of_idle phase, phase]
  | publishing tick phase currentTick =>
      by_cases hmissing : barrier.registry.missing = []
      · rw [sealTick_of_complete phase currentTick hmissing]
        simp [phase, hmissing]
      · rw [sealTick_of_missing phase currentTick hmissing]
        simp [phase, hmissing, currentTick, eq_comm]
  | deciding tick phase currentTick => simp [sealTick_of_deciding phase, phase]

theorem snapshot_fault_iff :
    (barrier.snapshot = .error .noActiveTick ↔ barrier.phase.stage = .idle) ∧
    ∀ tick, barrier.snapshot = .error (.readBeforeSeal tick) ↔
      barrier.phase.stage = .publishing ∧ barrier.currentTick = some tick := by
  cases h with
  | idle phase currentTick => simp [Barrier.snapshot, phase]
  | publishing tick phase currentTick =>
      simp [Barrier.snapshot, phase, faultAt_of_currentTick currentTick, currentTick]
  | deciding tick phase currentTick => simp [Barrier.snapshot, phase]

end Coherent

/-! ## Any calls -/

theorem begun?_eq_none_iff {entry : Entry} :
    Entry.begun? entry = none ↔ ∀ tick, entry.1 ≠ .beginTick tick := by
  obtain ⟨call, answer⟩ := entry
  cases call <;> simp [Entry.begun?]

/-- A session that begins no tick is one whose calls begin none. -/
theorem forall_log_begun?_eq_none_iff (barrier : Barrier) (calls : List Call) :
    (∀ entry ∈ Session.log perform barrier calls, Entry.begun? entry = none) ↔
      ∀ tick, .beginTick tick ∉ calls := by
  have hcalls := Session.map_fst_log perform barrier calls
  constructor
  · intro h tick hmem
    rw [← hcalls] at hmem
    obtain ⟨entry, hentry, hcall⟩ := List.mem_map.1 hmem
    exact begun?_eq_none_iff.1 (h entry hentry) tick hcall
  · intro h entry hentry
    apply begun?_eq_none_iff.2
    intro tick hcall
    apply h tick
    rw [← hcalls, ← hcall]
    exact List.mem_map_of_mem hentry

theorem Explains.stage_idle_iff {rule : DuplicateRule} {log : List Entry} {barrier : Barrier}
    (h : Explains rule log barrier) :
    barrier.phase.stage = .idle ↔ ∀ entry ∈ log, Entry.begun? entry = none := by
  cases h with
  | idle _ phase unbegun => simpa [phase] using unbegun
  -- Outside the idle phase the log splits at the call that began the current tick.
  | publishing earlier tick opened _ phase split =>
      refine iff_of_false (by simp [phase]) ?_
      intro hnone
      have hbegin := hnone (.beginTick tick, .begun) (by simp [split])
      exact nomatch hbegin
  | deciding earlier tick opened _ closed _ phase split =>
      refine iff_of_false (by simp [phase]) ?_
      intro hnone
      have hbegin := hnone (.beginTick tick, .begun) (by simp [split])
      exact nomatch hbegin

/-- After any calls of a new barrier, in whichever way its parts are stored: it is idle exactly
where no tick has begun, which is where there is no current tick; a sealed snapshot is held in the
deciding phase only, and is the registry's.  So publishing, sealing and reading answer that no tick
is active in the idle phase only; a publish is refused as coming after the seal in the deciding
phase only, a reader as coming before it in the publishing phase only, and each time by the current
tick; and a seal names the current tick and the expected sources that are silent, in ascending
order, exactly where the tick is open and there are any. -/
theorem phase_classifies_faults (rule : DuplicateRule) (calls : List Call) :
    let barrier := Session.final perform (Barrier.new rule) calls
    let cells := Session.final Cells.perform (Cells.new rule) calls
    let registry := barrier.registry
    let stage := barrier.phase.stage
    Session.log Cells.perform (Cells.new rule) calls =
      Session.log perform (Barrier.new rule) calls ∧
    cells.stage = stage ∧ cells.registry = registry ∧
    (stage = .idle ↔ ∀ tick, .beginTick tick ∉ calls) ∧
    (stage = .idle ↔ barrier.currentTick = none) ∧
    cells.sealed = (if stage = .deciding then some registry.snapshot else none) ∧
    (∀ id value,
      ((barrier.publish id value).value.1 = .error .noActiveTick ↔ stage = .idle) ∧
      ∀ source tick, (barrier.publish id value).value.1 = .error (.publishAfterSeal source tick) ↔
        stage = .deciding ∧ source = id ∧ barrier.currentTick = some tick) ∧
    (barrier.snapshot = .error .noActiveTick ↔ stage = .idle) ∧
    (∀ tick, barrier.snapshot = .error (.readBeforeSeal tick) ↔
      stage = .publishing ∧ barrier.currentTick = some tick) ∧
    (barrier.sealTick.value.1 = .error .noActiveTick ↔ stage = .idle) ∧
    (∀ tick missing, barrier.sealTick.value.1 = .error (.incompleteSnapshot tick missing) ↔
      stage = .publishing ∧ barrier.currentTick = some tick ∧
        missing = registry.missing ∧ missing ≠ []) ∧
    registry.missing.Pairwise (· < ·) ∧
    ∀ id, id ∈ registry.missing ↔ id ∈ registry.declared.keys ∧ registry.read id = none := by
  intro barrier cells registry stage
  have hexplains : Explains rule (Session.log perform (Barrier.new rule) calls) barrier :=
    explains_session rule calls
  have hcoherent := hexplains.coherent
  -- The cells simulate the barrier call by call, so what is shown of its phase is shown of them.
  have hcells : cells = Cells.ofBarrier barrier :=
    Session.final_eq_of_simulates Cells.perform_ofBarrier (Barrier.new rule) calls
  have hlog : Session.log Cells.perform (Cells.new rule) calls =
      Session.log perform (Barrier.new rule) calls :=
    Session.log_eq_of_simulates Cells.perform_ofBarrier (Barrier.new rule) calls
  have hidle := hexplains.stage_idle_iff
  rw [forall_log_begun?_eq_none_iff] at hidle
  obtain ⟨hsealIdle, hsealMissing⟩ := hcoherent.sealTick_fault_iff
  obtain ⟨hreadIdle, hreadEarly⟩ := hcoherent.snapshot_fault_iff
  refine ⟨hlog, ?_, ?_, hidle, hcoherent.stage_idle_iff, ?_, hcoherent.publish_fault_iff,
    hreadIdle, hreadEarly, hsealIdle, hsealMissing, Registry.missing_ascending, ?_⟩
  · rw [hcells]
    rfl
  · rw [hcells]
    rfl
  · rw [hcells]
    exact hcoherent.sealed?_eq
  · intro id
    exact Registry.mem_missing

end Barrier
end TickGate
