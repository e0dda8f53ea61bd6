import Mathlib.Logic.Function.Basic
import TickGate.Gate.Basic
import TickGate.Proofs.Session
import TickGate.Proofs.Source.Value
import TickGate.Proofs.Trigger.Meaning

/-!
# Sources, a trigger and a gate, tick after tick

A pipeline runs each tick on one registry: all sources publish, in any order, and a gate is fired
over the complete snapshot.  The order of the publishes does not matter, because each source
publishes once and under a name of its own; the completeness check passes, because nothing else
is expected; and the gate has not fired in the tick before, because no tick comes twice.  So the
action runs exactly where the trigger holds of the sources' own values, which is
`fires_iff_holds`.
-/

namespace TickGate

/-- Sources, a gate over what they publish, and the state that the gate's action changes. -/
structure Pipeline (ι S σ : Type) where
  sources : ι → Source S
  gate : Gate
  world : σ

namespace Pipeline

/-- One tick, and the order in which the sources publish in it. -/
structure Round (ι S : Type) where
  moment : Moment S
  order : List ι

section Definitions

variable {ι S σ α : Type} [DecidableEq ι]

/-- The publishing phase: the sources publish in order, up to the first fault. -/
def publishAll (moment : Moment S) :
    List ι → Registry → Pipeline ι S σ → Traced (Except Fault Unit × Registry × Pipeline ι S σ)
  | [], registry, pipeline => pure (.ok (), registry, pipeline)
  | i :: order, registry, pipeline => do
    let (answer, source, registry) ←
      (pipeline.sources i).publish registry moment.tick moment.host
    let pipeline := { pipeline with sources := Function.update pipeline.sources i source }
    match answer with
    | .error fault => pure (.error fault, registry, pipeline)
    | .ok _ => publishAll moment order registry pipeline

/-- The deciding phase: the gate is fired once. -/
def fireGate (action : Tick → σ → Traced (α × σ)) (tick : Tick) (registry : Registry)
    (pipeline : Pipeline ι S σ) : Traced (Outcome α × Pipeline ι S σ) := do
  let (outcome, gate, world) ← pipeline.gate.fire registry tick (action tick) pipeline.world
  pure (outcome, { pipeline with gate, world })

/-- Runs one tick. -/
def perform (action : Tick → σ → Traced (α × σ)) (state : Registry × Pipeline ι S σ)
    (round : Round ι S) : Except Fault (Outcome α) × Registry × Pipeline ι S σ :=
  (state.1.runTick round.moment.tick (publishAll round.moment round.order)
    (fireGate action round.moment.tick) state.2).value

/-- A new registry to which sources are attached. -/
def attachAll (rule : DuplicateRule) (sources : ι → Source S) (attached : List ι) : Registry :=
  attached.foldl (fun registry i => ((sources i).attach registry).2) (Registry.new rule)

/-- A pipeline before its first tick. -/
def start (rule : DuplicateRule) (ids : ι → SourceId) (kinds : ι → Source.Kind S)
    (attached : List ι) (trigger : Trigger) (world : σ) : Registry × Pipeline ι S σ :=
  let sources := fun i => Source.ofKind (ids i) (kinds i)
  (attachAll rule sources attached, { sources, gate := { trigger }, world })

end Definitions

/-! ## Publishing every source once -/

section Publishing

variable {ι S σ : Type} {ids : ι → SourceId}

/-- The registry after sources have published values. -/
def storeAll (ids : ι → SourceId) (values : ι → Bool) (order : List ι) (registry : Registry) :
    Registry :=
  order.foldl (fun registry i => registry.store (ids i) (values i)) registry

theorem storeAll_currentTick (values : ι → Bool) (order : List ι) (registry : Registry) :
    (storeAll ids values order registry).currentTick = registry.currentTick := by
  induction order generalizing registry with
  | nil => rfl
  | cons i order ih => exact ih (registry.store (ids i) (values i))

theorem storeAll_declared (values : ι → Bool) (order : List ι) (registry : Registry) :
    (storeAll ids values order registry).declared = registry.declared := by
  induction order generalizing registry with
  | nil => rfl
  | cons i order ih => exact ih (registry.store (ids i) (values i))

theorem storeAll_read_of_ne (values : ι → Bool) {order : List ι} {id : SourceId}
    (h : ∀ i ∈ order, ids i ≠ id) (registry : Registry) :
    (storeAll ids values order registry).read id = registry.read id := by
  induction order generalizing registry with
  | nil => rfl
  | cons i order ih =>
      obtain ⟨hi, horder⟩ := List.forall_mem_cons.1 h
      have hrest := ih horder (registry.store (ids i) (values i))
      rw [Registry.store_read, if_neg (Ne.symm hi)] at hrest
      exact hrest

/-- The order in which the values were stored does not show. -/
theorem storeAll_read_of_mem (hids : Function.Injective ids) (values : ι → Bool)
    {order : List ι} {i : ι} (h : i ∈ order) (registry : Registry) :
    (storeAll ids values order registry).read (ids i) = some (values i) := by
  induction order generalizing registry with
  | nil => exact absurd h List.not_mem_nil
  | cons first order ih =>
      by_cases hmem : i ∈ order
      · exact ih hmem (registry.store (ids first) (values first))
      · have hfirst : i = first := (List.mem_cons.1 h).resolve_right hmem
        subst hfirst
        have hothers : ∀ j ∈ order, ids j ≠ ids i := by
          intro j hj heq
          exact hmem (hids heq ▸ hj)
        have hrest :=
          storeAll_read_of_ne values hothers (registry.store (ids i) (values i))
        rw [Registry.store_read, if_pos rfl] at hrest
        exact hrest

/-- Where every expected source is among those that published, none is missing. -/
theorem storeAll_missing (hids : Function.Injective ids) (values : ι → Bool) {order : List ι}
    {registry : Registry}
    (h : ∀ id ∈ registry.declared.keys, ∃ i ∈ order, ids i = id) :
    (storeAll ids values order registry).missing = [] := by
  rw [List.eq_nil_iff_forall_not_mem]
  intro id hid
  obtain ⟨hdeclared, hsilent⟩ := Registry.mem_missing.1 hid
  rw [storeAll_declared] at hdeclared
  obtain ⟨i, hi, rfl⟩ := h id hdeclared
  rw [storeAll_read_of_mem hids values hi] at hsilent
  exact Option.some_ne_none _ hsilent

variable [DecidableEq ι]

/-- The sources after some of them have seen one more moment. -/
def advance (ids : ι → SourceId) (kinds : ι → Source.Kind S) (moments : List (Moment S))
    (order : List ι) (sources : ι → Source S) : ι → Source S :=
  fun i => if i ∈ order then (kinds i).stateAfter (ids i) moments else sources i

theorem advance_nil (kinds : ι → Source.Kind S) (moments : List (Moment S))
    (sources : ι → Source S) : advance ids kinds moments [] sources = sources := by
  funext i
  simp [advance]

theorem advance_update (kinds : ι → Source.Kind S) (moments : List (Moment S)) (order : List ι)
    (sources : ι → Source S) (i : ι) :
    advance ids kinds moments order
        (Function.update sources i ((kinds i).stateAfter (ids i) moments)) =
      advance ids kinds moments (i :: order) sources := by
  funext j
  by_cases hj : j = i
  · subst hj
    simp [advance]
  · simp [advance, hj]

/-- Sources that are silent publish their values and see the moment. -/
theorem publishAll_value (hids : Function.Injective ids) {kinds : ι → Source.Kind S}
    {past : List (Moment S)} {now : Moment S} {order : List ι} {registry : Registry}
    {pipeline : Pipeline ι S σ} (htick : registry.currentTick = some now.tick)
    (hnodup : order.Nodup) (hsilent : ∀ i ∈ order, registry.read (ids i) = none)
    (hsources : ∀ i ∈ order, pipeline.sources i = (kinds i).stateAfter (ids i) past) :
    (publishAll now order registry pipeline).value =
      (.ok (), storeAll ids (fun i => (kinds i).value past now) order registry,
        { pipeline with
          sources := advance ids kinds (past ++ [now]) order pipeline.sources }) := by
  induction order generalizing registry pipeline with
  | nil => simp [publishAll, storeAll, advance_nil]
  | cons i order ih =>
      obtain ⟨hi, horder⟩ := List.nodup_cons.1 hnodup
      obtain ⟨hsilentFirst, hsilentRest⟩ := List.forall_mem_cons.1 hsilent
      obtain ⟨hsource, hsourcesRest⟩ := List.forall_mem_cons.1 hsources
      have hread : registry.read ((kinds i).stateAfter (ids i) past).id = none := by
        rw [Source.Kind.stateAfter_id]
        exact hsilentFirst
      have hpublish := Source.publish_value_of_silent _ htick hread now.tick now.host
      rw [Source.Kind.evaluate_stateAfter, Source.Kind.stateAfter_id] at hpublish
      -- What the first source did leaves the others silent and as they were.
      have hne : ∀ j ∈ order, j ≠ i := fun j hj heq => hi (heq ▸ hj)
      have hsilentNext : ∀ j ∈ order,
          (registry.store (ids i) ((kinds i).value past now)).read (ids j) = none := by
        intro j hj
        rw [Registry.store_read, if_neg fun heq => hne j hj (hids heq)]
        exact hsilentRest j hj
      have hsourcesNext : ∀ j ∈ order,
          Function.update pipeline.sources i ((kinds i).stateAfter (ids i) (past ++ [now])) j =
            (kinds j).stateAfter (ids j) past := by
        intro j hj
        rw [Function.update_of_ne (hne j hj)]
        exact hsourcesRest j hj
      have htickNext :
          (registry.store (ids i) ((kinds i).value past now)).currentTick = some now.tick := htick
      rw [publishAll, Traced.bind_value, hsource, hpublish, ← advance_update]
      exact ih htickNext horder hsilentNext hsourcesNext

end Publishing

/-! ## One tick -/

section Tick

variable {ι S σ α : Type} {ids : ι → SourceId} {kinds : ι → Source.Kind S}
  {trigger : Trigger} {past : List (Moment S)} {state : Registry × Pipeline ι S σ}

/-- The term of a source's name: the source's own value, or the trigger's fallback for a name
that no source has. -/
noncomputable def term (ids : ι → SourceId) (kinds : ι → Source.Kind S) (trigger : Trigger)
    (past : List (Moment S)) (now : Moment S) : SourceId → Bool :=
  Function.extend ids (fun i => (kinds i).value past now) fun _ => trigger.fallback

/-- The pipeline has run the moments of its past, and no others. -/
structure HasRun (ids : ι → SourceId) (kinds : ι → Source.Kind S) (trigger : Trigger)
    (past : List (Moment S)) (state : Registry × Pipeline ι S σ) : Prop where
  declared : ∀ id ∈ state.1.declared.keys, ∃ i, ids i = id
  sources : ∀ i, state.2.sources i = (kinds i).stateAfter (ids i) past
  trigger : state.2.gate.trigger = trigger
  lastFired : ∀ tick, state.2.gate.lastFired = some tick → ∃ moment ∈ past, moment.tick = tick

/-- A gate that did not fire in this tick fires where its trigger decides true. -/
theorem fireGate_value_of_ne (action : Tick → σ → Traced (α × σ)) {tick : Tick}
    {registry : Registry} {pipeline : Pipeline ι S σ}
    (hlast : pipeline.gate.lastFired ≠ some tick) :
    let ran := (action tick pipeline.world).value
    (pipeline.gate.trigger.decision registry tick = true ∧
      (fireGate action tick registry pipeline).value =
        (.fired ran.1,
          { pipeline with
            gate :=
              { pipeline.gate with
                lastFired := some tick, counts := pipeline.gate.counts.countFired }
            world := ran.2 })) ∨
    (pipeline.gate.trigger.decision registry tick = false ∧
      (fireGate action tick registry pipeline).value =
        (.suppressed,
          { pipeline with
            gate := { pipeline.gate with counts := pipeline.gate.counts.countSuppressed } })) := by
  cases hdecision : pipeline.gate.trigger.decision registry tick with
  | true =>
      have hfire := Gate.fire_of_decision_true hlast hdecision (action tick) pipeline.world
      exact .inl ⟨rfl, by simp [fireGate, hfire]⟩
  | false =>
      have hfire := Gate.fire_of_decision_false hlast hdecision (action tick) pipeline.world
      exact .inr ⟨rfl, by simp [fireGate, hfire]⟩

/-- Over the values that the sources published, a trigger reads their terms. -/
theorem readAt_storeAll (hids : Function.Injective ids) (trigger : Trigger)
    (past : List (Moment S)) (now : Moment S) {order : List ι} (hall : ∀ i, i ∈ order)
    (registry : Registry) (id : SourceId) :
    (View.readAt
        (storeAll ids (fun i => (kinds i).value past now) order
          (registry.beginTick now.tick).value)
        now.tick id).getD trigger.fallback = term ids kinds trigger past now id := by
  have htick : View.tick
      (storeAll ids (fun i => (kinds i).value past now) order
        (registry.beginTick now.tick).value) = some now.tick :=
    storeAll_currentTick _ order _
  rw [View.readAt_of_tick_eq htick]
  by_cases hid : ∃ i, ids i = id
  · obtain ⟨i, rfl⟩ := hid
    have hread := storeAll_read_of_mem hids (fun i => (kinds i).value past now) (hall i)
      (registry.beginTick now.tick).value
    rw [term, hids.extend_apply]
    exact congrArg (Option.getD · trigger.fallback) hread
  · have hnone : ∀ i ∈ order, ids i ≠ id := fun i _ heq => hid ⟨i, heq⟩
    have hread := storeAll_read_of_ne (fun i => (kinds i).value past now) hnone
      (registry.beginTick now.tick).value
    rw [term, Function.extend_apply' _ _ _ hid]
    exact congrArg (Option.getD · trigger.fallback) hread

variable [DecidableEq ι]

/-- After the publishing phase of a tick nothing is missing, and the trigger decides over the
sources' own values. -/
theorem publishAll_of_hasRun (hids : Function.Injective ids)
    (hrun : HasRun ids kinds trigger past state) {round : Round ι S}
    (hnodup : round.order.Nodup) (hall : ∀ i, i ∈ round.order) :
    ∃ stored published,
      (publishAll round.moment round.order
        (state.1.beginTick round.moment.tick).value state.2).value =
          (.ok (), stored, published) ∧
      (∀ id ∈ stored.declared.keys, ∃ i, ids i = id) ∧
      stored.missing = [] ∧
      (trigger.decision stored round.moment.tick = true ↔
        trigger.Holds (term ids kinds trigger past round.moment)) ∧
      (∀ i, published.sources i = (kinds i).stateAfter (ids i) (past ++ [round.moment])) ∧
      published.gate = state.2.gate ∧ published.world = state.2.world := by
  obtain ⟨registry, pipeline⟩ := state
  let now := round.moment
  let stored := storeAll ids (fun i => (kinds i).value past now) round.order
    (registry.beginTick now.tick).value
  refine ⟨stored, _,
    publishAll_value hids rfl hnodup (fun _ _ => rfl) (fun i _ => hrun.sources i),
    ?_, ?_, ?_, ?_, rfl, rfl⟩
  · intro id hid
    rw [storeAll_declared] at hid
    exact hrun.declared id hid
  · apply storeAll_missing hids
    intro id hid
    obtain ⟨i, hi⟩ := hrun.declared id hid
    exact ⟨i, hall i, hi⟩
  · rw [Trigger.decision_iff_holds]
    apply Trigger.holds_congr
    intro id _
    exact readAt_storeAll hids trigger past now hall registry id
  · intro i
    exact if_pos (hall i)

/-- One tick that has not run yet, in which every source publishes once: nothing fails, and the
action runs where the trigger holds of the sources' values. -/
theorem perform_of_hasRun (hids : Function.Injective ids)
    (hrun : HasRun ids kinds trigger past state) (action : Tick → σ → Traced (α × σ))
    {round : Round ι S} (hnodup : round.order.Nodup) (hall : ∀ i, i ∈ round.order)
    (hnew : ∀ moment ∈ past, moment.tick ≠ round.moment.tick) :
    let ran := (action round.moment.tick state.2.world).value
    HasRun ids kinds trigger (past ++ [round.moment]) (perform action state round).2 ∧
    ((trigger.Holds (term ids kinds trigger past round.moment) ∧
        (perform action state round).1 = .ok (.fired ran.1) ∧
        (perform action state round).2.2.world = ran.2) ∨
      (¬trigger.Holds (term ids kinds trigger past round.moment) ∧
        (perform action state round).1 = .ok .suppressed ∧
        (perform action state round).2.2.world = state.2.world)) := by
  obtain ⟨stored, published, hpublish, hdeclared, hmissing, hdecision, hsources, hgate, hworld⟩ :=
    publishAll_of_hasRun hids hrun hnodup hall
  have hperform := Registry.runTick_value_of_complete hpublish hmissing
    (fireGate action round.moment.tick)
  have htrigger : published.gate.trigger = trigger := by
    rw [hgate]
    exact hrun.trigger
  have hlast : published.gate.lastFired ≠ some round.moment.tick := by
    intro heq
    rw [hgate] at heq
    obtain ⟨moment, hmem, htick⟩ := hrun.lastFired _ heq
    exact hnew moment hmem htick
  simp only [perform]
  rw [hperform, ← hworld]
  rcases fireGate_value_of_ne action hlast with ⟨htrue, hfire⟩ | ⟨hfalse, hfire⟩
  · rw [hfire]
    rw [htrigger] at htrue
    refine ⟨⟨hdeclared, hsources, htrigger, ?_⟩, .inl ⟨hdecision.1 htrue, rfl, rfl⟩⟩
    intro tick htick
    exact ⟨round.moment, List.mem_concat_self, Option.some.inj htick⟩
  · rw [hfire]
    have hnot : ¬trigger.Holds (term ids kinds trigger past round.moment) := by
      rw [htrigger] at hfalse
      rw [← hdecision]
      exact Bool.eq_false_iff.1 hfalse
    refine ⟨⟨hdeclared, hsources, htrigger, ?_⟩, .inr ⟨hnot, rfl, rfl⟩⟩
    intro tick htick
    have hbefore : state.2.gate.lastFired = some tick := by
      rw [← hgate]
      exact htick
    obtain ⟨moment, hmem, heq⟩ := hrun.lastFired tick hbefore
    exact ⟨moment, List.mem_append_left _ hmem, heq⟩

end Tick

/-! ## Any ticks -/

section Run

variable {ι S σ α : Type} {ids : ι → SourceId} {kinds : ι → Source.Kind S}

theorem mem_attachAll (rule : DuplicateRule) (attached : List ι) {id : SourceId}
    (h : id ∈ (attachAll rule (fun i => Source.ofKind (ids i) (kinds i)) attached).declared.keys) :
    ∃ i, ids i = id := by
  rw [attachAll] at h
  induction attached using List.reverseRecOn with
  | nil => exact absurd h List.not_mem_nil
  | append_singleton attached i ih =>
      rw [List.foldl_append] at h
      rcases Registry.mem_declare.1 h with heq | hmem
      · refine ⟨i, ?_⟩
        rw [heq, ← Source.Kind.stateAfter_nil, Source.Kind.stateAfter_id]
      · exact ih hmem

theorem hasRun_start (rule : DuplicateRule) (attached : List ι) (trigger : Trigger) (world : σ) :
    HasRun ids kinds trigger [] (start rule ids kinds attached trigger world) where
  declared _ hid := mem_attachAll rule attached hid
  sources i := (Source.Kind.stateAfter_nil (ids i) (kinds i)).symm
  trigger := rfl
  lastFired _ hnone := nomatch hnone

theorem ne_of_nodup_concat {rounds : List (Round ι S)} {round : Round ι S}
    (h : ((rounds ++ [round]).map fun round => round.moment.tick).Nodup) :
    ∀ moment ∈ rounds.map Round.moment, moment.tick ≠ round.moment.tick := by
  intro moment hmem heq
  obtain ⟨earlier, hearlier, rfl⟩ := List.mem_map.1 hmem
  rw [List.map_append, List.nodup_append] at h
  exact h.2.2 _ (List.mem_map_of_mem hearlier) _ List.mem_cons_self heq

variable [DecidableEq ι]

/-- After ticks that are all different, the pipeline has run their moments. -/
theorem hasRun_session (hids : Function.Injective ids) (rule : DuplicateRule)
    (attached : List ι) (trigger : Trigger) (action : Tick → σ → Traced (α × σ)) (world : σ)
    {rounds : List (Round ι S)} (hticks : (rounds.map fun round => round.moment.tick).Nodup)
    (horders : ∀ round ∈ rounds, round.order.Nodup ∧ ∀ i, i ∈ round.order) :
    HasRun ids kinds trigger (rounds.map Round.moment)
      (Session.final (perform action) (start rule ids kinds attached trigger world) rounds) := by
  induction rounds using List.reverseRecOn with
  | nil => exact hasRun_start rule attached trigger world
  | append_singleton rounds round ih =>
      obtain ⟨hfront, hlast⟩ := List.forall_mem_append.1 horders
      obtain ⟨hnodup, hall⟩ := hlast round List.mem_cons_self
      have hnew := ne_of_nodup_concat hticks
      rw [List.map_append, List.nodup_append] at hticks
      have hrun := ih hticks.1 hfront
      rw [Session.final_concat, List.map_append]
      exact (perform_of_hasRun hids hrun action hnodup hall hnew).1

/-- Before each of its rounds the pipeline has run the moments of the rounds before, and the round
is a new tick in which every source publishes once. -/
theorem hasRun_take (hids : Function.Injective ids) (rule : DuplicateRule) (attached : List ι)
    (trigger : Trigger) (action : Tick → σ → Traced (α × σ)) (world : σ)
    {rounds : List (Round ι S)} (hticks : (rounds.map fun round => round.moment.tick).Nodup)
    (horders : ∀ round ∈ rounds, round.order.Nodup ∧ ∀ i, i ∈ round.order)
    {n : ℕ} {round : Round ι S} (hround : rounds[n]? = some round) :
    rounds.take (n + 1) = rounds.take n ++ [round] ∧
    HasRun ids kinds trigger ((rounds.take n).map Round.moment)
      (Session.final (perform action) (start rule ids kinds attached trigger world)
        (rounds.take n)) ∧
    (round.order.Nodup ∧ ∀ i, i ∈ round.order) ∧
    ∀ moment ∈ (rounds.take n).map Round.moment, moment.tick ≠ round.moment.tick := by
  have htake : rounds.take (n + 1) = rounds.take n ++ [round] := by
    rw [List.take_add_one, hround]
    rfl
  have hsublist := List.take_sublist (n + 1) rounds
  have hticksTake := hticks.sublist (hsublist.map fun round => round.moment.tick)
  rw [htake] at hsublist hticksTake
  refine ⟨htake, ?_, horders round (hsublist.subset List.mem_concat_self),
    ne_of_nodup_concat hticksTake⟩
  rw [List.map_append, List.nodup_append] at hticksTake
  apply hasRun_session hids rule attached trigger action world hticksTake.1
  intro earlier hmem
  exact horders earlier ((List.take_sublist n rounds).subset hmem)

/-- Sources of any kinds under different names, any of them attached to a new registry, publish
once in each tick and in any order, and one gate is fired in each tick, no tick coming twice.
Then no tick fails, and in each tick the action runs, once, exactly where the trigger holds of
the values that the sources have of their own, the fallback standing in for names that no source
has.  A balance compares its counts, which are exact until every tick there is has been run. -/
theorem fires_iff_holds (hids : Function.Injective ids) (rule : DuplicateRule)
    (attached : List ι) (trigger : Trigger) (action : Tick → σ → Traced (α × σ)) (world : σ)
    {rounds : List (Round ι S)} (hticks : (rounds.map fun round => round.moment.tick).Nodup)
    (horders : ∀ round ∈ rounds, round.order.Nodup ∧ ∀ i, i ∈ round.order)
    {n : ℕ} {round : Round ι S} (hround : rounds[n]? = some round) :
    let first := start rule ids kinds attached trigger world
    let before := Session.final (perform action) first (rounds.take n)
    let after := Session.final (perform action) first (rounds.take (n + 1))
    let past := (rounds.take n).map Round.moment
    let holds := trigger.Holds (term ids kinds trigger past round.moment)
    let ran := (action round.moment.tick before.2.world).value
    ∃ outcome, (Session.log (perform action) first rounds)[n]? = some (round, .ok outcome) ∧
      (outcome.isFired = true ↔ holds) ∧
      (holds → outcome = .fired ran.1 ∧ after.2.world = ran.2) ∧
      (¬holds → outcome = .suppressed ∧ after.2.world = before.2.world) ∧
      ∀ credit debit, n < Count.limit.toNat →
        (Source.Kind.balance credit debit).value past round.moment =
          decide (debit.occurrences (past ++ [round.moment]) <
            credit.occurrences (past ++ [round.moment])) := by
  intro first before after past holds ran
  obtain ⟨htake, hrun, ⟨hnodup, hall⟩, hnew⟩ :=
    hasRun_take hids rule attached trigger action world hticks horders hround
  have hafter : after = (perform action before round).2 := by
    show Session.final (perform action) first (rounds.take (n + 1)) = _
    rw [htake, Session.final_concat]
  have hlog : (Session.log (perform action) first rounds)[n]? =
      some (round, (perform action before round).1) := by
    rw [Session.getElem?_log, hround]
    rfl
  have hexact : ∀ credit debit, n < Count.limit.toNat →
      (Source.Kind.balance credit debit).value past round.moment =
        decide (debit.occurrences (past ++ [round.moment]) <
          credit.occurrences (past ++ [round.moment])) := by
    intro credit debit hn
    refine Source.Kind.value_balance_of_length_lt credit debit ?_ round.moment
    have hlength : past.length ≤ n := by
      rw [List.length_map, List.length_take]
      exact Nat.min_le_left n rounds.length
    omega
  rw [hafter]
  obtain ⟨-, hcases⟩ := perform_of_hasRun hids hrun action hnodup hall hnew
  rcases hcases with ⟨hholds, hanswer, hworld⟩ | ⟨hholds, hanswer, hworld⟩
  · rw [hanswer] at hlog
    refine ⟨.fired ran.1, hlog, iff_of_true rfl hholds, fun _ => ⟨rfl, hworld⟩, ?_, hexact⟩
    exact fun hnot => absurd hholds hnot
  · rw [hanswer] at hlog
    refine ⟨.suppressed, hlog, iff_of_false Bool.false_ne_true hholds, ?_,
      fun _ => ⟨rfl, hworld⟩, hexact⟩
    exact fun hpos => absurd hpos hholds

/-- A pulse, a balance and a name that no source has, over ticks that go up and down. -/
theorem fires_iff_holds_of_pulse_and_balance :
    let ids : Bool → SourceId := fun i => if i then "pulse" else "balance"
    let kinds : Bool → Source.Kind Bool := fun i =>
      if i then .probe (.pulse .rising) (.within ⟨1, 5⟩)
      else .balance (fun _ host => host) fun tick _ => tick == 4
    let rounds : List (Round Bool Bool) :=
      [⟨⟨9, true⟩, [true, false]⟩, ⟨⟨4, false⟩, [false, true]⟩, ⟨⟨2, true⟩, [true, false]⟩]
    let trigger := Trigger.anyOf ["pulse", "nobody", "balance"]
    let action : Tick → ℕ → Traced (Tick × ℕ) := fun tick runs => pure (tick, runs + 1)
    let first := start .reject ids kinds [true, false] trigger 0
    Function.Injective ids ∧ (rounds.map fun round => round.moment.tick).Nodup ∧
    (∀ round ∈ rounds, round.order.Nodup ∧ ∀ i, i ∈ round.order) ∧
    rounds[2]? = some ⟨⟨2, true⟩, [true, false]⟩ ∧
    ∃ outcome, (Session.log (perform action) first rounds)[2]? =
        some (⟨⟨2, true⟩, [true, false]⟩, .ok outcome) ∧
      (outcome.isFired = true ↔
        trigger.Holds (term ids kinds trigger [⟨9, true⟩, ⟨4, false⟩] ⟨2, true⟩)) := by
  intro ids kinds rounds trigger action first
  have hids : Function.Injective ids := by
    have hall : ∀ i j, ids i = ids j → i = j := by decide
    intro i j
    exact hall i j
  have hticks : (rounds.map fun round => round.moment.tick).Nodup := by decide
  have horders : ∀ round ∈ rounds, round.order.Nodup ∧ ∀ i, i ∈ round.order := by decide
  have hround : rounds[2]? = some ⟨⟨2, true⟩, [true, false]⟩ := rfl
  obtain ⟨outcome, hlog, hfired, -⟩ :=
    fires_iff_holds hids .reject [true, false] trigger action 0 hticks horders hround
  exact ⟨hids, hticks, horders, hround, outcome, hlog, hfired⟩

end Run

end Pipeline
end TickGate
