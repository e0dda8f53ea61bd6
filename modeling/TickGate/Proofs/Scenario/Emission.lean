import Mathlib.Data.Nat.Count
import TickGate.Proofs.Scenario.Wording
import TickGate.Proofs.Source.Value
import TickGate.Proofs.Trigger.Meaning

/-!
# What a scenario emits

A scenario makes its two records in exactly the ticks that its settings name: those inside the
window, the first of them in edge mode, and all or none without a source.  The proof carries one
invariant through the loop, `RunAt`, which says of every part of a run what it is after the ticks
so far; `run_value` then describes whole runs with any recorder.
-/

namespace TickGate

/-! ## The words of a payload -/

namespace Payload

variable {π : Type} [Payload π]

/-- A system after ticks. -/
def after (payload : π) (n : ℕ) : π := (fun system => (next system).2)^[n] payload

/-- The word of a tick, counted from zero. -/
def word (payload : π) (n : ℕ) : UInt16 := (next (after payload n)).1

/-- The word of the last of some ticks, zero if there is none. -/
def lastWord (payload : π) : ℕ → UInt16
  | 0 => 0
  | n + 1 => word payload n

theorem next_after (payload : π) (n : ℕ) :
    next (after payload n) = (word payload n, after payload (n + 1)) := by
  have hafter : after payload (n + 1) = (next (after payload n)).2 :=
    Function.iterate_succ_apply' _ n payload
  rw [word, hafter]

end Payload

/-! ## Records handed over one after the other -/

namespace Recorder

variable {ρ : Type} [Recorder ρ]

/-- A recorder that has received records. -/
def recordAll (recorder : ρ) (records : List Record) : ρ :=
  records.foldl (fun recorder record => (Recorder.record recorder record).value) recorder

theorem recordAll_append (recorder : ρ) (front back : List Record) :
    recordAll recorder (front ++ back) = recordAll (recordAll recorder front) back :=
  List.foldl_append

end Recorder

theorem Journal.toList_recordAll (journal : Journal) (records : List Record) :
    (Recorder.recordAll journal records).records.toList = journal.records.toList ++ records := by
  induction records generalizing journal with
  | nil => exact (List.append_nil _).symm
  | cons record records ih =>
      have hrest := ih (journal.push record)
      rw [Journal.push, Array.toList_push, List.append_assoc] at hrest
      exact hrest

/-! ## Ticks by their numbers -/

theorem toNat_ofNat_of_lt_limit {n : ℕ} (hn : n < Count.limit.toNat) :
    (UInt64.ofNat n : Tick).toNat = n :=
  UInt64.toNat_ofNat_of_lt' (hn.trans (Nat.lt_succ_self _))

/-! ## A gate that is called once in each tick -/

/-- A gate after one call in each tick below `n`, where its trigger decided true in the ticks
with `p`. -/
structure Gate.CalledBelow (trigger : Trigger) (p : ℕ → Prop) [DecidablePred p] (n : ℕ)
    (gate : Gate) : Prop where
  trigger : gate.trigger = trigger
  lastFired : ∀ tick, gate.lastFired = some tick → tick.toNat < n
  fired : gate.counts.fired.toNat = Nat.count p n
  suppressed : gate.counts.suppressed.toNat = n - Nat.count p n
  repeated : gate.counts.repeated = 0

namespace Gate

variable {trigger : Trigger} {p : ℕ → Prop} [DecidablePred p] {n : ℕ} {gate : Gate}

theorem calledBelow_zero (trigger : Trigger) (p : ℕ → Prop) [DecidablePred p] :
    CalledBelow trigger p 0 { trigger } where
  trigger := rfl
  lastFired _ hnone := nomatch hnone
  fired := rfl
  suppressed := rfl
  repeated := rfl

/-- The next tick is not the last one in which the gate fired. -/
theorem CalledBelow.lastFired_ne (h : CalledBelow trigger p n gate) (hn : n < Count.limit.toNat) :
    gate.lastFired ≠ some (.ofNat n) := by
  have htick : (UInt64.ofNat n).toNat = n := toNat_ofNat_of_lt_limit hn
  intro heq
  have hlt := h.lastFired _ heq
  omega

/-- The call in the next tick. -/
theorem CalledBelow.fire {ρ σ α : Type} [View ρ] (h : CalledBelow trigger p n gate)
    (hn : n < Count.limit.toNat) {view : ρ}
    (hdecision : trigger.decision view (.ofNat n) = true ↔ p n)
    (action : σ → Traced (α × σ)) (host : σ) :
    CalledBelow trigger p (n + 1) (gate.fire view (.ofNat n) action host).value.2.1 ∧
      (gate.fire view (.ofNat n) action host).value.2.2 =
        if p n then (action host).value.2 else host := by
  have htick : (UInt64.ofNat n).toNat = n := toNat_ofNat_of_lt_limit hn
  have hlast := h.lastFired_ne hn
  have hcount := Nat.count_succ p n
  have hle : Nat.count p n ≤ n := Nat.count_le p
  rw [← h.trigger] at hdecision
  by_cases hp : p n
  · rw [if_pos hp] at hcount ⊢
    rw [fire_of_decision_true hlast (hdecision.2 hp)]
    refine ⟨⟨h.trigger, ?_, ?_, ?_, h.repeated⟩, rfl⟩
    · intro tick heq
      rw [← Option.some.inj heq, htick]
      exact Nat.lt_succ_self n
    · show gate.counts.fired.next.toNat = _
      rw [Count.toNat_next, h.fired]
      omega
    · show gate.counts.suppressed.toNat = _
      rw [h.suppressed]
      omega
  · rw [if_neg hp] at hcount ⊢
    have hfalse : gate.trigger.decision view (.ofNat n) = false := by
      rw [← Bool.not_eq_true, hdecision]
      exact hp
    rw [fire_of_decision_false hlast hfalse]
    refine ⟨⟨h.trigger, ?_, ?_, ?_, h.repeated⟩, rfl⟩
    · intro tick heq
      exact Nat.lt_succ_of_lt (h.lastFired tick heq)
    · show gate.counts.fired.toNat = _
      rw [h.fired]
      omega
    · show gate.counts.suppressed.next.toNat = _
      rw [Count.toNat_next, h.suppressed]
      omega

/-- The counts of such a gate, as words. -/
theorem CalledBelow.counts_eq (h : CalledBelow trigger p n gate) :
    gate.counts =
      { fired := .ofNat (Nat.count p n), suppressed := .ofNat (n - Nat.count p n) } := by
  rw [← h.suppressed, ← h.fired, UInt64.ofNat_toNat, UInt64.ofNat_toNat, ← h.repeated]

end Gate

namespace Scenario

/-! ## The ticks in which records are made -/

/-- Whether the records of a tick are made. -/
abbrev Emits (scenario : Scenario) (t : ℕ) : Prop :=
  if scenario.wired then
    if scenario.options.edgeMode then
      t = scenario.window.low.toNat ∧ scenario.window.low.toNat ≤ scenario.window.high.toNat
    else scenario.window.low.toNat ≤ t ∧ t ≤ scenario.window.high.toNat
  else scenario.options.fallback = true

/-- What the scenario's source watches and how. -/
def kind (scenario : Scenario) : Source.Kind Unit :=
  .probe scenario.options.mode (.within scenario.window)

/-- The moments below a tick. -/
def momentsBelow (n : ℕ) : List (Moment Unit) := (List.range n).map fun t => ⟨.ofNat t, ()⟩

theorem momentsBelow_succ (n : ℕ) :
    momentsBelow (n + 1) = momentsBelow n ++ [⟨.ofNat n, ()⟩] := by
  rw [momentsBelow, List.range_succ, List.map_append]
  rfl

theorem holdsAt_within_iff (window : Window) {t : ℕ} (ht : t < Count.limit.toNat) :
    (Condition.within window).holdsAt ⟨.ofNat t, ()⟩ = true ↔
      window.low.toNat ≤ t ∧ t ≤ window.high.toNat := by
  have htick : (UInt64.ofNat t).toNat = t := toNat_ofNat_of_lt_limit ht
  have hcontains : (Condition.within window).holdsAt ⟨.ofNat t, ()⟩ = true ↔
      window.low ≤ .ofNat t ∧ .ofNat t ≤ window.high := Window.contains_iff
  rw [UInt64.le_iff_toNat_le, UInt64.le_iff_toNat_le, htick] at hcontains
  exact hcontains

theorem levelAfter_momentsBelow_iff (window : Window) {n : ℕ} (hn : n < Count.limit.toNat) :
    (Condition.within window).levelAfter (momentsBelow n) = true ↔
      ∃ t, n = t + 1 ∧ window.low.toNat ≤ t ∧ t ≤ window.high.toNat := by
  cases n with
  | zero => simp [momentsBelow, Condition.levelAfter]
  | succ t =>
      rw [momentsBelow_succ, Condition.levelAfter_concat,
        holdsAt_within_iff window (Nat.lt_of_succ_lt hn)]
      simp

/-- In the order of the loop, the source publishes true in the ticks in which records are
made. -/
theorem kind_value_iff {scenario : Scenario} (hwired : scenario.wired = true) {n : ℕ}
    (hn : n < Count.limit.toNat) :
    scenario.kind.value (momentsBelow n) ⟨.ofNat n, ()⟩ = true ↔ scenario.Emits n := by
  have hnow := holdsAt_within_iff scenario.window hn
  have hbefore := levelAfter_momentsBelow_iff scenario.window hn
  rw [Emits, if_pos hwired]
  by_cases hedge : scenario.options.edgeMode = true
  · rw [if_pos hedge]
    have hvalue : scenario.kind.value (momentsBelow n) ⟨.ofNat n, ()⟩ =
        (!(Condition.within scenario.window).levelAfter (momentsBelow n) &&
          (Condition.within scenario.window).holdsAt ⟨.ofNat n, ()⟩) := by
      simp [kind, Source.Kind.value, Options.mode, hedge, Mode.ofEdgeMode, Mode.ofLevels]
    rw [hvalue, Bool.and_eq_true, Bool.not_eq_true', ← Bool.not_eq_true, hbefore, hnow]
    constructor
    · rintro ⟨hrise, hlow, hhigh⟩
      refine ⟨?_, by omega⟩
      by_contra hne
      exact hrise ⟨n - 1, by omega, by omega, by omega⟩
    · rintro ⟨heq, hle⟩
      refine ⟨?_, by omega, by omega⟩
      rintro ⟨t, hsucc, hlow, -⟩
      omega
  · rw [if_neg hedge, ← hnow]
    have hvalue : scenario.kind.value (momentsBelow n) ⟨.ofNat n, ()⟩ =
        (Condition.within scenario.window).holdsAt ⟨.ofNat n, ()⟩ := by
      simp [kind, Source.Kind.value, Options.mode, hedge, Mode.ofEdgeMode, Mode.ofLevels]
    rw [hvalue]

/-! ## The publishing phase -/

/-- The trigger that both gates share. -/
def sharedTrigger (scenario : Scenario) : Trigger :=
  if scenario.wired then
    { sources := [sourceId], policy := scenario.options.policy,
      fallback := scenario.options.fallback, sources_of_level := fun _ => Nat.le_refl 1 }
  else .unwired scenario.options.fallback

/-- No settings are refused: one source is never too many. -/
theorem trigger_eq (scenario : Scenario) : scenario.trigger = .ok scenario.sharedTrigger := by
  rw [trigger, sharedTrigger]
  by_cases hwired : scenario.wired = true
  · have hone : scenario.options.policy = .level → [sourceId].length ≤ 1 :=
      fun _ => Nat.le_refl 1
    rw [if_pos hwired, if_pos hwired]
    exact Trigger.new_eq_ok hone
  · rw [if_neg hwired, if_neg hwired]

/-- The registry of a scenario after ticks. -/
structure RegistryAt (scenario : Scenario) (n : ℕ) (registry : Registry) : Prop where
  declared : ∀ id ∈ registry.declared.keys, scenario.wired = true ∧ id = sourceId
  ticks : registry.counts.ticks.toNat = n
  publishes : registry.counts.publishes.toNat = if scenario.wired then n else 0
  duplicates : registry.counts.duplicates = 0

theorem RegistryAt.counts_eq {scenario : Scenario} {registry : Registry}
    (h : RegistryAt scenario scenario.cycles.toNat registry) :
    registry.counts =
      { ticks := scenario.cycles, publishes := if scenario.wired then scenario.cycles else 0 } := by
  have hticks : registry.counts.ticks = scenario.cycles := UInt64.toNat_inj.1 h.ticks
  have hpublishes :
      registry.counts.publishes = if scenario.wired then scenario.cycles else 0 := by
    rw [← UInt64.toNat_inj, h.publishes]
    split
    · rfl
    · rfl
  rw [← hpublishes, ← hticks, ← h.duplicates]

theorem registryAt_zero (scenario : Scenario) : RegistryAt scenario 0 scenario.registry := by
  rw [registry]
  by_cases hwired : scenario.wired = true
  · rw [if_pos hwired]
    refine ⟨?_, rfl, by rw [if_pos hwired]; rfl, rfl⟩
    intro id hid
    rcases Registry.mem_declare.1 hid with heq | hmem
    · exact ⟨hwired, heq⟩
    · exact absurd hmem List.not_mem_nil
  · rw [if_neg hwired]
    refine ⟨?_, rfl, by rw [if_neg hwired]; rfl, rfl⟩
    intro id hid
    exact absurd hid List.not_mem_nil

variable {scenario : Scenario} {n : ℕ} {registry : Registry}

theorem RegistryAt.beginTick_ticks (h : RegistryAt scenario n registry)
    (hn : n < Count.limit.toNat) (tick : Tick) :
    (registry.beginTick tick).value.counts.ticks.toNat = n + 1 := by
  show registry.counts.ticks.next.toNat = n + 1
  rw [Count.toNat_next, h.ticks]
  omega

section Publish

variable {ρ : Type} {scope : Scope ρ}

/-- What the publishing phase of a tick leaves to its deciding phase: nothing is missing, and
the shared trigger decides true where records are to be made. -/
structure PublishedAt (scenario : Scenario) (n : ℕ) (next : Registry) (source : Source Unit) :
    Prop where
  registry : RegistryAt scenario (n + 1) next
  source : scenario.wired = true →
    source = scenario.kind.stateAfter sourceId (momentsBelow (n + 1))
  missing : next.missing = []
  decision : scenario.sharedTrigger.decision next (.ofNat n) = true ↔ scenario.Emits n

theorem RegistryAt.store (h : RegistryAt scenario n registry) (hn : n < Count.limit.toNat)
    (hwired : scenario.wired = true) (tick : Tick) (value : Bool) :
    RegistryAt scenario (n + 1) ((registry.beginTick tick).value.store sourceId value) := by
  refine ⟨h.declared, h.beginTick_ticks hn tick, ?_, h.duplicates⟩
  have hpublishes := h.publishes
  rw [if_pos hwired] at hpublishes ⊢
  show registry.counts.publishes.next.toNat = n + 1
  rw [Count.toNat_next, hpublishes]
  omega

/-- A source publishes its value of the tick. -/
theorem publish_value_of_wired (h : RegistryAt scenario n registry)
    (hn : n < Count.limit.toNat) (hwired : scenario.wired = true)
    (hsource : scope.source = scenario.kind.stateAfter sourceId (momentsBelow n)) :
    ∃ next source,
      (publish scenario.wired (.ofNat n) (registry.beginTick (.ofNat n)).value scope).value =
        (.ok (), next, { scope with source }) ∧
      PublishedAt scenario n next source := by
  let now : Moment Unit := ⟨.ofNat n, ()⟩
  let value := scenario.kind.value (momentsBelow n) now
  let begun := (registry.beginTick (.ofNat n)).value
  let next := begun.store sourceId value
  have hcurrent : begun.currentTick = some (.ofNat n) := rfl
  have hpublish := Source.publish_value_of_silent
    (scenario.kind.stateAfter sourceId (momentsBelow n)) hcurrent rfl (.ofNat n) ()
  rw [Source.Kind.evaluate_stateAfter sourceId scenario.kind (momentsBelow n) now,
    Source.Kind.stateAfter_id, ← momentsBelow_succ, ← hsource] at hpublish
  have hread : next.read sourceId = some value := by
    rw [Registry.store_read, if_pos rfl]
  refine ⟨next, scenario.kind.stateAfter sourceId (momentsBelow (n + 1)), ?_, ?_⟩
  · rw [publish, if_pos hwired, Traced.bind_value, hpublish]
    rfl
  constructor
  · exact h.store hn hwired (.ofNat n) value
  · exact fun _ => rfl
  · rw [List.eq_nil_iff_forall_not_mem]
    intro id hid
    obtain ⟨hdeclared, hsilent⟩ := Registry.mem_missing.1 hid
    rw [(h.declared id hdeclared).2, hread] at hsilent
    exact Option.some_ne_none _ hsilent
  · have hsources : scenario.sharedTrigger.sources = [sourceId] := by
      rw [sharedTrigger, if_pos hwired]
    have htick : View.tick next = some (.ofNat n) := rfl
    have hreadAt : View.readAt next (.ofNat n) sourceId = some value := by
      rw [View.readAt_of_tick_eq htick]
      exact hread
    rw [Trigger.decision_of_singleton hsources, hreadAt, ← kind_value_iff hwired hn]
    rfl

/-- Without a source the phase does nothing, and the trigger decides its fallback. -/
theorem publish_value_of_unwired (h : RegistryAt scenario n registry)
    (hn : n < Count.limit.toNat) (hwired : ¬scenario.wired = true) :
    ∃ next source,
      (publish scenario.wired (.ofNat n) (registry.beginTick (.ofNat n)).value scope).value =
        (.ok (), next, { scope with source }) ∧
      PublishedAt scenario n next source := by
  let begun := (registry.beginTick (.ofNat n)).value
  refine ⟨begun, scope.source, ?_, ?_⟩
  · rw [publish, if_neg hwired]
    rfl
  constructor
  · refine ⟨h.declared, h.beginTick_ticks hn (.ofNat n), ?_, h.duplicates⟩
    have hpublishes := h.publishes
    rw [if_neg hwired] at hpublishes ⊢
    exact hpublishes
  · intro hpos
    exact absurd hpos hwired
  · rw [List.eq_nil_iff_forall_not_mem]
    intro id hid
    exact hwired (h.declared id (Registry.mem_missing.1 hid).1).1
  · have hnil : (Trigger.unwired scenario.options.fallback).sources = [] := rfl
    rw [Emits, if_neg hwired, sharedTrigger, if_neg hwired, Trigger.decision_of_nil hnil]
    exact Iff.rfl

theorem publish_value (h : RegistryAt scenario n registry) (hn : n < Count.limit.toNat)
    (hsource : scenario.wired = true →
      scope.source = scenario.kind.stateAfter sourceId (momentsBelow n)) :
    ∃ next source,
      (publish scenario.wired (.ofNat n) (registry.beginTick (.ofNat n)).value scope).value =
        (.ok (), next, { scope with source }) ∧
      PublishedAt scenario n next source := by
  by_cases hwired : scenario.wired = true
  · exact publish_value_of_wired h hn hwired (hsource hwired)
  · exact publish_value_of_unwired h hn hwired

end Publish

/-! ## The deciding phase -/

section Decide

variable {ρ : Type} [Recorder ρ]

/-- In each tick both gates are called, and their records are made where they are due. -/
theorem decide_value (word : UInt16) {registry : Registry} (scope : Scope ρ)
    (hparent : Gate.CalledBelow scenario.sharedTrigger scenario.Emits n scope.parent)
    (hchild : Gate.CalledBelow scenario.sharedTrigger scenario.Emits n scope.child)
    (hn : n < Count.limit.toNat)
    (hdecision : scenario.sharedTrigger.decision registry (.ofNat n) = true ↔ scenario.Emits n) :
    ∃ parent child,
      (decide (.ofNat n) word registry scope).value.2 =
        ⟨scope.source, parent, child,
          Recorder.recordAll scope.recorder
            (if scenario.Emits n then recordsOf (.ofNat n) word else [])⟩ ∧
      Gate.CalledBelow scenario.sharedTrigger scenario.Emits (n + 1) parent ∧
      Gate.CalledBelow scenario.sharedTrigger scenario.Emits (n + 1) child := by
  let emit (record : Record) (recorder : ρ) : Traced (Unit × ρ) := do
    let recorder ← Recorder.record recorder record
    pure ((), recorder)
  obtain ⟨source, parent, child, recorder⟩ := scope
  obtain ⟨hparentNext, hparentRecorder⟩ :=
    hparent.fire hn hdecision (emit (parentRecord (.ofNat n) word)) recorder
  let between := (parent.fire registry (.ofNat n) (emit (parentRecord (.ofNat n) word))
    recorder).value.2.2
  obtain ⟨hchildNext, hchildRecorder⟩ :=
    hchild.fire hn hdecision (emit (childRecord (.ofNat n) word)) between
  refine ⟨_, _, ?_, hparentNext, hchildNext⟩
  have hrecorder : (child.fire registry (.ofNat n) (emit (childRecord (.ofNat n) word))
      between).value.2.2 =
        Recorder.recordAll recorder
          (if scenario.Emits n then recordsOf (.ofNat n) word else []) := by
    rw [hchildRecorder]
    show (if _ then (emit _ (parent.fire _ _ _ _).value.2.2).value.2
      else (parent.fire _ _ _ _).value.2.2) = _
    rw [hparentRecorder]
    by_cases hemits : scenario.Emits n
    · rw [if_pos hemits, if_pos hemits, if_pos hemits, recordsOf_eq]
      rfl
    · rw [if_neg hemits, if_neg hemits, if_neg hemits]
      rfl
  rw [← hrecorder]
  rfl

end Decide

/-! ## One tick -/

section Step

variable {π ρ : Type} [Payload π] [Recorder ρ] {payload : π} {recorder : ρ} {run : Run π ρ}

/-- The records that are made below a tick. -/
def recordsBelow (scenario : Scenario) (payload : π) (n : ℕ) : List Record :=
  (List.range n).flatMap fun t =>
    if scenario.Emits t then recordsOf (.ofNat t) (Payload.word payload t) else []

theorem recordsBelow_succ (scenario : Scenario) (payload : π) (n : ℕ) :
    scenario.recordsBelow payload (n + 1) =
      scenario.recordsBelow payload n ++
        if scenario.Emits n then recordsOf (.ofNat n) (Payload.word payload n) else [] := by
  simp [recordsBelow, List.range_succ]

theorem length_recordsBelow (scenario : Scenario) (payload : π) (n : ℕ) :
    (scenario.recordsBelow payload n).length = 2 * Nat.count scenario.Emits n := by
  induction n with
  | zero => rfl
  | succ n ih =>
      rw [recordsBelow_succ, List.length_append, ih, Nat.count_succ, Nat.mul_add]
      split
      · rfl
      · rfl

/-- The run of a scenario after ticks. -/
structure RunAt (scenario : Scenario) (payload : π) (recorder : ρ) (n : ℕ) (run : Run π ρ) :
    Prop where
  registry : RegistryAt scenario n run.registry
  source : scenario.wired = true →
    run.scope.source = scenario.kind.stateAfter sourceId (momentsBelow n)
  parent : Gate.CalledBelow scenario.sharedTrigger scenario.Emits n run.scope.parent
  child : Gate.CalledBelow scenario.sharedTrigger scenario.Emits n run.scope.child
  recorder : run.scope.recorder = Recorder.recordAll recorder (scenario.recordsBelow payload n)
  word : run.word = Payload.lastWord payload n
  payload : run.payload = Payload.after payload n

theorem runAt_zero (scenario : Scenario) (payload : π) (recorder : ρ) :
    RunAt scenario payload recorder 0
      { registry := scenario.registry
        scope :=
          { source := scenario.source, parent := { trigger := scenario.sharedTrigger },
            child := { trigger := scenario.sharedTrigger }, recorder }
        payload } where
  registry := registryAt_zero scenario
  source _ := rfl
  parent := Gate.calledBelow_zero scenario.sharedTrigger scenario.Emits
  child := Gate.calledBelow_zero scenario.sharedTrigger scenario.Emits
  recorder := rfl
  word := rfl
  payload := rfl

/-- One tick does not fail and leads from the run after some ticks to the run after one more. -/
theorem RunAt.step (h : RunAt scenario payload recorder n run) (hn : n < Count.limit.toNat) :
    ∃ next, (Scenario.step scenario.wired (.ofNat n) run).value = (.ok (), next) ∧
      RunAt scenario payload recorder (n + 1) next := by
  obtain ⟨registry, source, hpublish, hpublished⟩ := publish_value h.registry hn h.source
  obtain ⟨parent, child, hdecide, hparent, hchild⟩ :=
    decide_value (Payload.word payload n) { run.scope with source } h.parent h.child hn
      hpublished.decision
  have hrun := Registry.runTick_value_of_complete hpublish hpublished.missing
    (Scenario.decide (.ofNat n) (Payload.word payload n))
  rw [hdecide, h.recorder, ← Recorder.recordAll_append, ← recordsBelow_succ] at hrun
  let scope : Scope ρ :=
    ⟨source, parent, child,
      Recorder.recordAll recorder (scenario.recordsBelow payload (n + 1))⟩
  refine ⟨⟨registry, scope, Payload.after payload (n + 1), Payload.word payload n⟩, ?_,
    ⟨hpublished.registry, hpublished.source, hparent, hchild, rfl, rfl, rfl⟩⟩
  simp only [Scenario.step]
  rw [h.payload, Payload.next_after, Traced.bind_value, hrun]
  rfl

end Step

/-! ## Whole runs -/

section Run

variable {π ρ : Type} [Payload π] [Recorder ρ]

theorem ticks_succ_of_ok {wired : Bool} {tick : Tick} {run next : Run π ρ}
    (h : (step wired tick run).value = (.ok (), next)) (count : ℕ) (events : Array Event) :
    ticks wired (count + 1) tick ⟨run, events⟩ =
      ticks wired count (tick + 1) ⟨next, events ++ (step wired tick run).events⟩ := by
  rw [ticks]
  split
  next stepped new heq =>
    rw [heq] at h ⊢
    rw [(Prod.mk.inj h).2]
  next fault stepped new heq =>
    rw [heq] at h
    exact nomatch (Prod.mk.inj h).1

theorem RunAt.ticks {payload : π} {recorder : ρ} {run : Run π ρ} {count : ℕ}
    (h : RunAt scenario payload recorder n run) (hcount : n + count = scenario.cycles.toNat)
    (events : Array Event) :
    ∃ last, (Scenario.ticks scenario.wired count (.ofNat n) ⟨run, events⟩).value = (.ok (), last) ∧
      RunAt scenario payload recorder scenario.cycles.toNat last := by
  induction count generalizing n run events with
  | zero =>
      rw [Nat.add_zero] at hcount
      rw [hcount] at h
      exact ⟨run, rfl, h⟩
  | succ count ih =>
      have hcycles := Count.toNat_le_limit scenario.cycles
      obtain ⟨next, hstep, hnext⟩ := h.step (by omega)
      have htick : UInt64.ofNat n + 1 = .ofNat (n + 1) := (UInt64.ofNat_add n 1).symm
      rw [ticks_succ_of_ok hstep, htick]
      exact ih hnext (by omega) _

/-- What a run of a scenario amounts to. -/
def reportOf (scenario : Scenario) (payload : π) : Report :=
  let fired := Nat.count scenario.Emits scenario.cycles.toNat
  let counts : Gate.Counts :=
    { fired := .ofNat fired, suppressed := .ofNat (scenario.cycles.toNat - fired) }
  { ticks := scenario.cycles
    parent := counts
    child := counts
    registry :=
      { ticks := scenario.cycles, publishes := if scenario.wired then scenario.cycles else 0 }
    finalPayload := Payload.lastWord payload scenario.cycles.toNat }

/-- No run fails, and every run makes the records of its ticks and no others. -/
theorem run_value (scenario : Scenario) (payload : π) (recorder : ρ) :
    (scenario.run payload recorder).value =
      (.ok (scenario.reportOf payload), Payload.after payload scenario.cycles.toNat,
        Recorder.recordAll recorder (scenario.recordsBelow payload scenario.cycles.toNat)) := by
  let starting : Array Event :=
    #[.scenarioStarting scenario.window.low scenario.window.high scenario.cycles
      scenario.options.policy scenario.options.edgeMode scenario.wired]
  obtain ⟨last, hticks, hlast⟩ :=
    (runAt_zero scenario payload recorder).ticks (Nat.zero_add _) starting
  have hreport : scenario.reportOf payload =
      { ticks := scenario.cycles, parent := last.scope.parent.counts,
        child := last.scope.child.counts, registry := last.registry.counts,
        finalPayload := last.word } := by
    rw [hlast.parent.counts_eq, hlast.child.counts_eq, hlast.registry.counts_eq, hlast.word]
    rfl
  have hzero : UInt64.ofNat 0 = 0 := rfl
  rw [hzero] at hticks
  rw [Scenario.run, trigger_eq, hreport, ← hlast.payload, ← hlast.recorder]
  simp only [Traced.bind_value]
  rw [hticks]
  rfl

theorem reportOf_fired_toNat (scenario : Scenario) (payload : π) :
    (scenario.reportOf payload).parent.fired.toNat =
      Nat.count scenario.Emits scenario.cycles.toNat := by
  have hcount := Nat.count_le scenario.Emits (n := scenario.cycles.toNat)
  have hcycles := scenario.cycles.toNat_lt
  rw [reportOf, UInt64.toNat_ofNat']
  omega

theorem reportOf_suppressed_toNat (scenario : Scenario) (payload : π) :
    (scenario.reportOf payload).parent.suppressed.toNat =
      scenario.cycles.toNat - Nat.count scenario.Emits scenario.cycles.toNat := by
  have hcycles := scenario.cycles.toNat_lt
  rw [reportOf, UInt64.toNat_ofNat']
  omega

/-- Whatever the settings and the payload, a run with a journal does not fail.  It adds the two
records of each tick in which records are made, the earlier ticks before the later ones, and
nothing else; and the report counts these ticks, the others, and what was published. -/
theorem emits_exactly (scenario : Scenario) (payload : π) (journal : Journal) :
    let cycles := scenario.cycles.toNat
    let fired := Nat.count scenario.Emits cycles
    ∃ report after,
      (scenario.run payload journal).value =
        (.ok report, Payload.after payload cycles, after) ∧
      (after.records.toList = journal.records.toList ++
        (List.range cycles).flatMap fun t =>
          if scenario.Emits t then recordsOf (.ofNat t) (Payload.word payload t) else []) ∧
      report.ticks = scenario.cycles ∧
      (report.parent = report.child ∧ report.parent.fired.toNat = fired ∧
        report.parent.suppressed.toNat = cycles - fired ∧ report.parent.repeated = 0) ∧
      (report.registry.ticks = scenario.cycles ∧
        report.registry.publishes = (if scenario.wired then scenario.cycles else 0) ∧
        report.registry.duplicates = 0) ∧
      report.finalPayload = Payload.lastWord payload cycles := by
  intro cycles fired
  have hrecords := Journal.toList_recordAll journal (scenario.recordsBelow payload cycles)
  have hfired := scenario.reportOf_fired_toNat payload
  have hsuppressed := scenario.reportOf_suppressed_toNat payload
  exact ⟨scenario.reportOf payload, _, scenario.run_value payload journal, hrecords, rfl,
    ⟨rfl, hfired, hsuppressed, rfl⟩, ⟨rfl, rfl, rfl⟩, rfl⟩

end Run

end Scenario

end TickGate
