import TickGate.Proofs.Barrier.Agreement
import TickGate.Proofs.Registry.Script

/-!
# Nothing of earlier ticks is left

Beginning a tick keeps the rule, the expected sources and the counts, and drops everything else.
So two registries that have the first two in common differ in nothing but their counts once a tick
has begun on both, and counts are never looked at: whatever a host does from then on, it gets the
same answers, the same events are reported, and the same is added to the counts.  The same holds of
barriers, whose phase and sealed snapshot are dropped as well.
-/

namespace TickGate

/-- What follows a computation matters at its result only. -/
theorem Traced.bind_congr_value {α β : Type} {first : Traced α} {left right : α → Traced β}
    (h : left first.value = right first.value) : first >>= left = first >>= right :=
  Traced.ext (by rw [bind_value, bind_value, h]) (by rw [bind_events, bind_events, h])

/-! ## Registries -/

namespace Registry

section Counts

variable (registry : Registry)

@[simp] theorem ask_withCounts (counts : Counts) (question : Question) :
    (registry.withCounts counts).ask question = registry.ask question := by
  cases question <;> rfl

theorem replies_withCounts (inquiry : Inquiry) (counts : Counts) :
    inquiry.replies (registry.withCounts counts) = inquiry.replies registry := by
  induction inquiry with
  | finish => rfl
  | ask question next ih =>
      rw [Inquiry.replies, Inquiry.replies, ask_withCounts]
      apply Traced.bind_congr_value
      rw [ih]

theorem inspect_withCounts (inquiry : Inquiry) (counts : Counts) (log : List Step) :
    inspect inquiry (registry.withCounts counts) log = inspect inquiry registry log := by
  rw [inspect, inspect, replies_withCounts]

variable {registry} {σ ρ : Type}
  {publish : Registry → σ → Traced (Except Fault Unit × Registry × σ)}
  {decide : Registry → σ → Traced (ρ × σ)} {tick : Tick} {host : σ} {growth : Growth}

/-- A tick does not look at the counts, if its publishing and its decision do not. -/
theorem runTick_withCounts
    (hpublish : ∀ counts,
      publish ((registry.beginTick tick).value.withCounts counts) host =
        (fun out => (out.1, out.2.1.withCounts (counts.grow growth), out.2.2)) <$>
          publish (registry.beginTick tick).value host)
    (hdecide : ∀ registry (counts : Counts) host,
      decide (registry.withCounts counts) host = decide registry host) (counts : Counts) :
    (registry.withCounts counts).runTick tick publish decide host =
      (fun out => (out.1, out.2.1.withCounts (counts.grow ({ ticks := 1 } + growth)), out.2.2)) <$>
        registry.runTick tick publish decide host := by
  rw [runTick, runTick, beginTick_withCounts, bind_map_left, map_bind]
  apply Traced.bind_congr_value
  rw [hpublish, bind_map_left, map_bind]
  apply Traced.bind_congr_value
  rcases (publish (registry.beginTick tick).value host).value with ⟨answer, next, after⟩
  rw [Counts.grow_grow]
  cases answer with
  | error fault => rfl
  | ok =>
      have hsame : (next.withCounts (counts.grow ({ ticks := 1 } + growth))).missing =
        next.missing := rfl
      simp only [hsame]
      cases next.missing with
      | nil => simp only [hdecide, map_bind, map_pure]
      | cons first rest => rfl

end Counts

/-- A host that does not look at the counts cannot tell them, and adds the same to any. -/
theorem Script.run_withCounts (script : Script) (registry : Registry) (log : List Step) :
    ∃ growth : Growth, ∀ counts,
      script.run (registry.withCounts counts) log =
        (fun out => (out.1, out.2.1.withCounts (counts.grow growth), out.2.2)) <$>
          script.run registry log := by
  induction script generalizing registry log with
  | finish result =>
      refine ⟨0, ?_⟩
      intro counts
      rw [counts.grow_zero]
      rfl
  | call request next ih =>
      let made := (registry.make request).value
      obtain ⟨growth, hgrowth⟩ := ih made.1 made.2 (log ++ [.called (request, made.1)])
      refine ⟨registry.growth request + growth, ?_⟩
      intro counts
      rw [run, run, make_withCounts, bind_map_left, map_bind]
      apply Traced.bind_congr_value
      rw [← Counts.grow_grow]
      exact hgrowth _
  | ask question next ih =>
      obtain ⟨growth, hgrowth⟩ := ih (registry.ask question).value registry
        (log ++ [.asked question (registry.ask question).value])
      refine ⟨growth, ?_⟩
      intro counts
      rw [run, run, ask_withCounts, map_bind]
      apply Traced.bind_congr_value
      exact hgrowth counts
  | runTick tick publishing deciding next ihp ihn =>
      obtain ⟨inner, hinner⟩ := ihp (registry.beginTick tick).value
        (log ++ [.called (.beginTick tick, .begun)])
      have hran (counts : Counts) := runTick_withCounts hinner
        (fun registry counts log => inspect_withCounts registry deciding counts log) counts
      -- What follows the tick starts from what the tick leaves, whose counts the tick has raised.
      rcases hvalue : (registry.runTick tick publishing.run (inspect deciding)
        (log ++ [.called (.beginTick tick, .begun)])).value with ⟨result, after, steps⟩
      obtain ⟨growth, hgrowth⟩ := ihn result after (steps ++ [.ran tick result])
      refine ⟨{ ticks := 1 } + inner + growth, ?_⟩
      intro counts
      rw [run, run, hran, bind_map_left, map_bind]
      apply Traced.bind_congr_value
      simp only [hvalue, ← Counts.grow_grow]
      exact hgrowth _

/-- Beginning a tick keeps nothing but the rule, the expected sources and the counts. -/
theorem beginTick_congr {left right : Registry} (hrule : left.duplicateRule = right.duplicateRule)
    (hdeclared : left.declared = right.declared) (tick : Tick) :
    left.beginTick tick =
      (·.withCounts (left.counts.grow { ticks := 1 })) <$> right.beginTick tick := by
  rw [← Counts.countTick_eq_grow, beginTick, beginTick, Traced.map_mk, withCounts, hdeclared]
  simp only [hrule]

/-- Begins a tick, and then does what a script says. -/
def play (registry : Registry) (tick : Tick) (script : Script) :
    Traced (Except Fault Unit × Registry × List Step) := do
  let registry ← registry.beginTick tick
  script.run registry []

theorem play_congr {right : Registry} (tick : Tick) (script : Script) :
    ∃ growth : Growth, ∀ left : Registry, left.duplicateRule = right.duplicateRule →
      left.declared = right.declared →
      left.play tick script =
        (fun out => (out.1, out.2.1.withCounts (left.counts.grow growth), out.2.2)) <$>
          right.play tick script := by
  obtain ⟨growth, hgrowth⟩ := script.run_withCounts (right.beginTick tick).value []
  refine ⟨{ ticks := 1 } + growth, ?_⟩
  intro left hrule hdeclared
  rw [play, play, beginTick_congr hrule hdeclared, bind_map_left, map_bind]
  apply Traced.bind_congr_value
  rw [← Counts.grow_grow]
  exact hgrowth _

end Registry

/-! ## Barriers -/

namespace Barrier

/-- What can be asked of a barrier.  Values are read off the snapshot that it hands out. -/
inductive Question where
  | currentTick
  | phase
  | read (id : SourceId)
  | readAt (tick : Tick) (id : SourceId)
  | decide (trigger : Trigger) (tick : Tick)

/-- The reply to a question, or why no snapshot was handed out. -/
inductive Reply where
  | tick (current : Option Tick)
  | phase (name : String)
  | value (result : Except Fault (Option Bool))
  | truth (result : Except Fault Bool)

def ask (barrier : Barrier) : Question → Traced Reply
  | .currentTick => pure (.tick barrier.currentTick)
  | .phase => pure (.phase barrier.phase.name)
  | .read id => pure (.value (barrier.snapshot.map fun snapshot => snapshot.read id))
  | .readAt tick id =>
    pure (.value (barrier.snapshot.map fun snapshot => View.readAt snapshot tick id))
  | .decide trigger tick =>
    match barrier.snapshot with
    | .error fault => pure (.truth (.error fault))
    | .ok snapshot => do
      let decision ← trigger.decide snapshot tick
      pure (.truth (.ok decision))

/-- Makes one call, and reports what the barrier reports. -/
def make (barrier : Barrier) : Call → Traced (Answer × Barrier)
  | .declare id => pure (.declared (barrier.declare id).1, (barrier.declare id).2)
  | .beginTick tick => do
    let barrier ← barrier.beginTick tick
    pure (.begun, barrier)
  | .publish id value => do
    let (answer, barrier) ← barrier.publish id value
    pure (.published answer, barrier)
  | .sealTick => do
    let (answer, barrier) ← barrier.sealTick
    pure (.snapshot answer, barrier)
  | .snapshot => pure (.snapshot barrier.snapshot, barrier)

@[simp] theorem make_value (barrier : Barrier) (call : Call) :
    (barrier.make call).value = barrier.perform call := by
  cases call <;> rfl

/-- One step of a host. -/
inductive Act where
  | call (request : Call)
  | ask (question : Question)

/-- What comes of a step. -/
inductive Reaction where
  | answered (answer : Answer)
  | replied (reply : Reply)

/-- Takes steps in order. -/
def play (barrier : Barrier) : List Act → Traced (List Reaction × Barrier)
  | [] => pure ([], barrier)
  | .call request :: acts => do
    let (answer, barrier) ← barrier.make request
    let (reactions, barrier) ← barrier.play acts
    pure (.answered answer :: reactions, barrier)
  | .ask question :: acts => do
    let reply ← barrier.ask question
    let (reactions, barrier) ← barrier.play acts
    pure (.replied reply :: reactions, barrier)

/-- What a call adds to the counts. -/
def growth (barrier : Barrier) : Call → Registry.Growth
  | .declare _ => 0
  | .beginTick _ => { ticks := 1 }
  | .publish id value =>
    match barrier.phase with
    | .publishing => barrier.registry.growth (.publish id value)
    | _ => 0
  | .sealTick => 0
  | .snapshot => 0

/-- A barrier with other counts. -/
def withCounts (barrier : Barrier) (counts : Registry.Counts) : Barrier :=
  { barrier with registry := barrier.registry.withCounts counts }

variable {barrier : Barrier} (counts : Registry.Counts)

theorem ask_withCounts (question : Question) :
    (barrier.withCounts counts).ask question = barrier.ask question := by
  cases question <;> rfl

theorem publish_withCounts (id : SourceId) (value : Bool) :
    (barrier.withCounts counts).publish id value =
      (fun out => (out.1, out.2.withCounts (counts.grow (barrier.growth (.publish id value))))) <$>
        barrier.publish id value := by
  have hphase : (barrier.withCounts counts).phase = barrier.phase := rfl
  rw [publish, publish, growth, hphase]
  cases barrier.phase with
  | idle => simp only [counts.grow_zero, map_pure]
  | deciding sealed =>
      simp only [counts.grow_zero, map_pure]
      rfl
  | publishing =>
      simp only [withCounts, Registry.publish_withCounts, bind_map_left, map_bind, map_pure]

theorem sealTick_withCounts :
    (barrier.withCounts counts).sealTick =
      (fun out => (out.1, out.2.withCounts counts)) <$> barrier.sealTick := by
  have hphase : (barrier.withCounts counts).phase = barrier.phase := rfl
  have htick : (barrier.withCounts counts).currentTick = barrier.currentTick := rfl
  have hmissing : (barrier.withCounts counts).registry.missing = barrier.registry.missing := rfl
  rw [sealTick, sealTick, hphase, htick, hmissing]
  cases barrier.phase with
  | idle => rfl
  | deciding sealed => rfl
  | publishing =>
      cases barrier.currentTick with
      | none => rfl
      | some tick =>
          cases barrier.registry.missing with
          | nil => rfl
          | cons first rest => rfl

/-- Barriers that differ in their counts answer a call alike, report the same events, and go on
differing in their counts, to which the call adds the same. -/
theorem make_withCounts (call : Call) :
    (barrier.withCounts counts).make call =
      (fun out => (out.1, out.2.withCounts (counts.grow (barrier.growth call)))) <$>
        barrier.make call := by
  cases call with
  | declare id =>
      rw [growth, counts.grow_zero]
      rfl
  | beginTick tick =>
      simp only [make, beginTick, growth, withCounts, Registry.beginTick_withCounts, bind_map_left,
        bind_assoc, pure_bind, map_bind, map_pure]
  | publish id value =>
      rw [make, make, publish_withCounts]
      simp only [bind_map_left, map_bind, map_pure]
  | sealTick =>
      rw [make, make, sealTick_withCounts, growth, counts.grow_zero]
      simp only [bind_map_left, map_bind, map_pure]
  | snapshot =>
      rw [growth, counts.grow_zero]
      rfl

theorem play_withCounts (barrier : Barrier) (acts : List Act) :
    ∃ growth : Registry.Growth, ∀ counts,
      (barrier.withCounts counts).play acts =
        (fun out => (out.1, out.2.withCounts (counts.grow growth))) <$> barrier.play acts := by
  induction acts generalizing barrier with
  | nil =>
      refine ⟨0, ?_⟩
      intro counts
      rw [counts.grow_zero]
      rfl
  | cons act acts ih =>
      cases act with
      | call request =>
          obtain ⟨growth, hgrowth⟩ := ih (barrier.make request).value.2
          refine ⟨barrier.growth request + growth, ?_⟩
          intro counts
          rw [play, play, make_withCounts, bind_map_left, map_bind]
          apply Traced.bind_congr_value
          simp only [hgrowth, Registry.Counts.grow_grow, bind_map_left, map_bind, map_pure]
      | ask question =>
          obtain ⟨growth, hgrowth⟩ := ih barrier
          refine ⟨growth, ?_⟩
          intro counts
          rw [play, play, ask_withCounts, map_bind]
          apply Traced.bind_congr_value
          simp only [hgrowth, bind_map_left, map_bind, map_pure]

theorem beginTick_congr {left right : Barrier}
    (hrule : left.registry.duplicateRule = right.registry.duplicateRule)
    (hdeclared : left.registry.declared = right.registry.declared) (tick : Tick) :
    left.beginTick tick =
      (·.withCounts (left.counts.grow { ticks := 1 })) <$> right.beginTick tick := by
  rw [beginTick, beginTick, Registry.beginTick_congr hrule hdeclared, bind_map_left, map_bind]
  rfl

/-- Takes steps in a tick that begins with them. -/
def playTick (barrier : Barrier) (tick : Tick) (acts : List Act) :
    Traced (List Reaction × Barrier) := do
  let barrier ← barrier.beginTick tick
  barrier.play acts

theorem playTick_congr {right : Barrier} (tick : Tick) (acts : List Act) :
    ∃ growth : Registry.Growth, ∀ left : Barrier,
      left.registry.duplicateRule = right.registry.duplicateRule →
      left.registry.declared = right.registry.declared →
      left.playTick tick acts =
        (fun out => (out.1, out.2.withCounts (left.counts.grow growth))) <$>
          right.playTick tick acts := by
  obtain ⟨growth, hgrowth⟩ := play_withCounts (right.beginTick tick).value acts
  refine ⟨{ ticks := 1 } + growth, ?_⟩
  intro left hrule hdeclared
  rw [playTick, playTick, beginTick_congr hrule hdeclared, bind_map_left, map_bind]
  apply Traced.bind_congr_value
  rw [← Registry.Counts.grow_grow]
  exact hgrowth _

end Barrier

/-! ## Whatever came before -/

/-- Two registries with one rule and the same expected sources, whatever has happened to them: once
a tick has begun on both, whatever a host does gives the same answers, replies and results in the
same order, reports the same events and leaves the two equal but for their counts, to which it has
added the same.  So it is with two barriers. -/
theorem earlier_ticks_leave_nothing (tick : Tick) :
    (∀ left right : Registry, left.duplicateRule = right.duplicateRule →
      left.declared = right.declared → ∀ script : Registry.Script,
      ∃ result after log events growth,
        left.play tick script =
          { value := (result, Registry.withCounts after (left.counts.grow growth), log), events } ∧
        right.play tick script =
          { value := (result, after.withCounts (right.counts.grow growth), log), events }) ∧
    ∀ left right : Barrier, left.registry.duplicateRule = right.registry.duplicateRule →
      left.registry.declared = right.registry.declared → ∀ acts : List Barrier.Act,
      ∃ reactions after events growth,
        left.playTick tick acts =
          { value := (reactions, Barrier.withCounts after (left.counts.grow growth)), events } ∧
        right.playTick tick acts =
          { value := (reactions, after.withCounts (right.counts.grow growth)), events } := by
  constructor
  · intro left right hrule hdeclared script
    obtain ⟨growth, hgrowth⟩ := Registry.play_congr tick script
    let out := right.play tick script
    refine ⟨out.value.1, out.value.2.1, out.value.2.2, out.events, growth, ?_, ?_⟩
    · rw [hgrowth left hrule hdeclared]
      exact Traced.ext rfl (Traced.map_events _ out)
    · rw [hgrowth right rfl rfl]
      exact Traced.ext rfl (Traced.map_events _ out)
  · intro left right hrule hdeclared acts
    obtain ⟨growth, hgrowth⟩ := Barrier.playTick_congr tick acts
    let out := right.playTick tick acts
    refine ⟨out.value.1, out.value.2, out.events, growth, ?_, ?_⟩
    · rw [hgrowth left hrule hdeclared]
      exact Traced.ext rfl (Traced.map_events _ out)
    · rw [hgrowth right rfl rfl]
      exact Traced.ext rfl (Traced.map_events _ out)

/-- A registry whose last tick ended in a repeat beside one without a tick, and a barrier whose last
tick is sealed beside an idle one. -/
theorem earlier_ticks_leave_nothing_of_aborted_tick :
    let aborted := (Registry.Script.call (.declare "a") fun _ =>
      .runTick 7 (.inOrder [.publish "b" true, .publish "b" false]) .finish fun _ =>
        .finish (.ok ())).final (.new .reject)
    let unused := ((Registry.new .reject).declare "a").2
    let script : Registry.Script := .ask (.read "b") fun _ => .ask .missing fun _ =>
      .runTick 9 (.inOrder [.publish "a" true])
        (.ask (.decide (.allOf ["a", "b"]) 9) fun _ => .finish) fun _ => .finish (.ok ())
    let sealed := Session.final Barrier.perform (.new .reject)
      [.declare "a", .beginTick 3, .publish "a" true, .sealTick]
    let idle := Session.final Barrier.perform (.new .reject) [.declare "a"]
    let acts : List Barrier.Act := [.call .snapshot, .call .sealTick, .ask (.read "a")]
    aborted.read "b" = some true ∧ unused.read "b" = none ∧
      (aborted.play 8 script).value.2.2 = (unused.play 8 script).value.2.2 ∧
      sealed.snapshot ≠ idle.snapshot ∧
      (sealed.playTick 8 acts).value.1 = (idle.playTick 8 acts).value.1 := by
  intro aborted unused script sealed idle acts
  obtain ⟨hregistries, hbarriers⟩ := earlier_ticks_leave_nothing 8
  obtain ⟨result, after, log, events, growth, hleft, hright⟩ :=
    hregistries aborted unused rfl rfl script
  obtain ⟨reactions, last, reported, more, hsealed, hidle⟩ := hbarriers sealed idle rfl rfl acts
  refine ⟨rfl, rfl, ?_, ?_, ?_⟩
  · rw [hleft, hright]
  · exact nofun
  · rw [hsealed, hidle]

end TickGate
