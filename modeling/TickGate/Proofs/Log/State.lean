import TickGate.Proofs.Barrier.Completeness
import TickGate.Proofs.Barrier.Phases
import TickGate.Proofs.Log.Replay
import TickGate.Proofs.Log.Trail
import TickGate.Proofs.Registry.Conservation

/-!
# The state of a registry, told by its log

Every step of a host is `Reported`, on a registry and on a barrier.  So along a trail the log keeps
up with the state: what the events up to a step tell of is what the registry holds after the step.
Main statement: `log_determines_state`.
-/

namespace TickGate

/-! ## Questions report decisions only -/

namespace Traced

/-- Nothing but decisions is reported. -/
def OnlyDecides {α : Type} (computation : Traced α) : Prop :=
  ∀ event ∈ computation.events.toList, event.IsDecision

theorem onlyDecides_pure {α : Type} (value : α) : (pure value : Traced α).OnlyDecides := by
  intro event hmem
  exact nomatch hmem

theorem OnlyDecides.bind {α β : Type} {first : Traced α} {next : α → Traced β}
    (hfirst : first.OnlyDecides) (hnext : (next first.value).OnlyDecides) :
    (first >>= next).OnlyDecides := by
  intro event hmem
  rw [bind_events, Array.toList_append, List.mem_append] at hmem
  exact hmem.elim (hfirst event) (hnext event)

end Traced

theorem Trigger.onlyDecides_decide {ρ : Type} [View ρ] (trigger : Trigger) (view : ρ)
    (tick : Tick) : (trigger.decide view tick).OnlyDecides := by
  intro event hmem
  by_cases hsources : trigger.sources.isEmpty
  · simp [decide, hsources] at hmem
  · have hevent : event = .decided tick trigger.policy (trigger.decision view tick) := by
      simpa [decide, hsources] using hmem
    exact ⟨_, _, _, hevent⟩

/-! ## Steps on a registry -/

/-- The source whose publish was answered so, if it was accepted. -/
def acceptedAs (id : SourceId) : Except Fault Unit → Option SourceId
  | .ok () => some id
  | .error _ => none

namespace Registry

/-- The source whose publish a step accepted. -/
def Step.accepted? : Step → Option SourceId
  | called (.publish id _, .published result) => acceptedAs id result
  | _ => none

theorem becomes_perform (registry : Registry) (call : Call) {snapshot : Snapshot}
    (hsnapshot : (registry.perform call).2.snapshot = snapshot) :
    Becomes registry (registry.perform call).2 snapshot (registry.growth call).publishes where
  snapshot := hsnapshot
  publishes := by rw [perform_counts]; rfl
  duplicateRule := perform_duplicateRule registry call

theorem reported_publish (registry : Registry) (id : SourceId) (value : Bool) :
    let out := registry.publish id value
    Reported registry (acceptedAs id out.value.1) false out.events.toList out.value.2 := by
  intro out
  have hbecomes : ∀ snapshot, out.value.2.snapshot = snapshot →
      Becomes registry out.value.2 snapshot (registry.growth (.publish id value)).publishes :=
    fun _ => becomes_perform registry (.publish id value)
  cases publishEnds registry id value with
  | idle htick hpublish hgrowth =>
      rw [hgrowth] at hbecomes
      simp only [out, hpublish] at hbecomes ⊢
      exact .quiet (hbecomes _ rfl) rfl rfl (by simp)
  | stored tick htick hread hpublish hgrowth =>
      rw [hgrowth] at hbecomes
      simp only [out, hpublish] at hbecomes ⊢
      exact .stored id tick value htick hread (hbecomes _ rfl) rfl rfl rfl
  | rejected tick previous htick hread hrule hpublish hgrowth =>
      rw [hgrowth] at hbecomes
      simp only [out, hpublish] at hbecomes ⊢
      exact .quiet (hbecomes _ rfl) rfl rfl (by simp)
  | replaced tick previous htick hread hrule hpublish hgrowth =>
      rw [hgrowth] at hbecomes
      simp only [out, hpublish] at hbecomes ⊢
      exact .replaced id tick previous value htick hread hrule (hbecomes _ rfl) rfl rfl rfl

theorem onlyDecides_ask (registry : Registry) (question : Question) :
    (registry.ask question).OnlyDecides := by
  cases question with
  | decide trigger tick =>
      apply Traced.OnlyDecides.bind
      · exact trigger.onlyDecides_decide registry tick
      · exact Traced.onlyDecides_pure _
  | _ => exact Traced.onlyDecides_pure _

theorem onlyDecides_replies (inquiry : Inquiry) (registry : Registry) :
    (inquiry.replies registry).OnlyDecides := by
  induction inquiry with
  | finish => exact Traced.onlyDecides_pure _
  | ask question next ih =>
      apply Traced.OnlyDecides.bind
      · exact onlyDecides_ask registry question
      · exact (ih _).bind (Traced.onlyDecides_pure _)

/-- Every step on a registry is reported. -/
theorem Takes.reported {before after : Registry} {step : Step} {events : List Event}
    (h : Takes before step events after) :
    Reported before step.accepted? false events after := by
  cases h with
  | called request =>
      cases request with
      | declare id =>
          exact .quiet (becomes_perform before (.declare id) rfl) rfl rfl (by simp [make])
      | beginTick tick =>
          exact .begun tick before.declared.size (becomes_perform before (.beginTick tick) rfl)
            rfl rfl rfl
      | publish id value =>
          have hevents : (before.make (.publish id value)).events =
              (before.publish id value).events := by simp [make]
          rw [hevents]
          exact reported_publish before id value
  | asked question => exact .quiet (.refl before) rfl rfl (onlyDecides_ask before question)
  | failed tick fault => exact .quiet (.refl before) rfl rfl (by simp)
  | decided tick deciding =>
      exact .quiet (.refl before) rfl rfl (onlyDecides_replies deciding before)

end Registry

/-! ## Steps on a barrier -/

namespace Barrier

theorem onlyDecides_ask (barrier : Barrier) (question : Question) :
    (barrier.ask question).OnlyDecides := by
  cases question with
  | decide trigger tick =>
      cases hsnapshot : barrier.snapshot with
      | error fault =>
          simp only [ask, hsnapshot]
          exact Traced.onlyDecides_pure _
      | ok snapshot =>
          simp only [ask, hsnapshot]
          apply Traced.OnlyDecides.bind
          · exact trigger.onlyDecides_decide snapshot tick
          · exact Traced.onlyDecides_pure _
  | _ => exact Traced.onlyDecides_pure _

/-- The source whose publish a step accepted. -/
def accepted? : Act × Reaction → Option SourceId
  | (.call (.publish id _), .answered (.published result)) => acceptedAs id result
  | _ => none

/-- The tick goes from publishing to deciding. -/
def seals (before after : Barrier) : Bool :=
  before.phase.stage = .publishing && after.phase.stage = .deciding

theorem seals_of_phase_eq {before after : Barrier} (h : after.phase = before.phase) :
    before.seals after = false := by
  rw [seals, h]
  cases before.phase <;> rfl

variable (barrier : Barrier)

theorem reported_publish (id : SourceId) (value : Bool) :
    let out := barrier.publish id value
    Reported barrier.registry (acceptedAs id out.value.1) (barrier.seals out.value.2)
      out.events.toList out.value.2.registry := by
  cases hphase : barrier.phase with
  | idle =>
      rw [publish_of_idle hphase]
      exact .quiet (.refl _) rfl (seals_of_phase_eq rfl) (Traced.onlyDecides_pure _)
  | deciding sealed =>
      rw [publish_of_deciding hphase]
      exact .quiet (.refl _) rfl (seals_of_phase_eq rfl) (Traced.onlyDecides_pure _)
  | publishing =>
      intro out
      have hvalue : out.value = _ := publish_value_of_publishing hphase
      have hevents : out.events = _ := publish_events_of_publishing hphase
      have hseals : barrier.seals out.value.2 = false := by
        rw [hvalue]
        exact seals_of_phase_eq rfl
      rw [hseals, hvalue, hevents]
      exact Registry.reported_publish barrier.registry id value

theorem reported_sealTick :
    let out := barrier.sealTick
    Reported barrier.registry none (barrier.seals out.value.2) out.events.toList
      out.value.2.registry := by
  cases hphase : barrier.phase with
  | idle =>
      rw [sealTick_of_idle hphase]
      exact .quiet (.refl _) rfl (seals_of_phase_eq rfl) (Traced.onlyDecides_pure _)
  | deciding sealed =>
      rw [sealTick_of_deciding hphase]
      exact .quiet (.refl _) rfl (seals_of_phase_eq rfl) (Traced.onlyDecides_pure _)
  | publishing =>
      cases htick : barrier.currentTick with
      | none =>
          have hidle : barrier.sealTick = pure (.error .noActiveTick, barrier) := by
            simp [sealTick, hphase, htick]
          rw [hidle]
          exact .quiet (.refl _) rfl (seals_of_phase_eq rfl) (Traced.onlyDecides_pure _)
      | some tick =>
          by_cases hmissing : barrier.registry.missing = []
          · rw [sealTick_of_complete hphase htick hmissing]
            exact .sealed tick htick (.refl _) rfl (by simp [seals, hphase]) rfl
          · rw [sealTick_of_missing hphase htick hmissing]
            exact .quiet (.refl _) rfl (seals_of_phase_eq rfl) (Traced.onlyDecides_pure _)

/-- Every step on a barrier is reported. -/
theorem Takes.reported {before after : Barrier} {step : Act × Reaction} {events : List Event}
    (h : Takes before step events after) :
    Reported before.registry (accepted? step) (before.seals after) events after.registry := by
  cases h with
  | asked question =>
      exact .quiet (.refl _) rfl (seals_of_phase_eq rfl) (onlyDecides_ask before question)
  | called request =>
      cases request with
      | declare id =>
          have hbecomes := before.registry.becomes_perform (.declare id) rfl
          exact .quiet hbecomes rfl (seals_of_phase_eq rfl) (Traced.onlyDecides_pure _)
      | beginTick tick =>
          have hbecomes := before.registry.becomes_perform (.beginTick tick) rfl
          exact .begun tick before.registry.declared.size hbecomes rfl (by simp [seals, perform])
            rfl
      | publish id value =>
          have hevents : (before.make (.publish id value)).events =
              (before.publish id value).events := by simp [make]
          rw [hevents]
          exact reported_publish before id value
      | sealTick =>
          have hevents : (before.make .sealTick).events = before.sealTick.events := by simp [make]
          rw [hevents]
          exact reported_sealTick before
      | snapshot =>
          exact .quiet (.refl _) rfl (seals_of_phase_eq rfl) (Traced.onlyDecides_pure _)

/-- The snapshot that was sealed is the one that the registry holds. -/
def SealIsCurrent (barrier : Barrier) : Prop :=
  ∀ sealed, barrier.phase = .deciding sealed → sealed = barrier.registry.snapshot

theorem SealIsCurrent.perform {barrier : Barrier} (h : barrier.SealIsCurrent) (call : Call) :
    (barrier.perform call).2.SealIsCurrent := by
  cases call with
  | declare id => exact h
  | beginTick tick => exact nofun
  | snapshot => exact h
  | publish id value =>
      change SealIsCurrent (barrier.publish id value).value.2
      cases hphase : barrier.phase with
      | idle => rwa [publish_of_idle hphase]
      | deciding sealed => rwa [publish_of_deciding hphase]
      | publishing =>
          rw [publish_value_of_publishing hphase]
          intro sealed hsealed
          exact nomatch hphase.symm.trans hsealed
  | sealTick =>
      change SealIsCurrent barrier.sealTick.value.2
      rcases sealTick_value_cases barrier with ⟨-, -, hseal⟩ | ⟨sealed, -, hseal⟩ | ⟨fault, hseal⟩
      · rw [hseal]
        intro sealed hsealed
        exact (Phase.deciding.inj hsealed).symm
      · rwa [hseal]
      · rwa [hseal]

theorem Takes.sealIsCurrent {before after : Barrier} {step : Act × Reaction}
    {events : List Event} (h : Takes before step events after) (hbefore : before.SealIsCurrent) :
    after.SealIsCurrent := by
  cases h with
  | asked question => exact hbefore
  | called request =>
      rw [make_value]
      exact hbefore.perform request

/-- The snapshot that a step handed out. -/
def handedOut? : Act × Reaction → Option Snapshot
  | (.call request, .answered answer) => Entry.handedOut? (request, answer)
  | _ => none

/-- A snapshot that is handed out is the one that the registry holds. -/
theorem Takes.handedOut {before after : Barrier} {step : Act × Reaction} {events : List Event}
    (h : Takes before step events after) (hafter : after.SealIsCurrent) {snapshot : Snapshot}
    (hstep : handedOut? step = some snapshot) : snapshot = after.registry.snapshot := by
  cases h with
  | asked question => exact nomatch hstep
  | called request =>
      apply hafter
      rw [make_value] at hstep ⊢
      exact phase_of_handedOut hstep

end Barrier

/-! ## Along a trail -/

/-- The log of a trail tells of its states.  `accepted?` gives the source whose publish a step
accepted, and `seals` says between which states a tick goes from publishing to deciding. -/
structure Tells {σ α : Type} (registry : σ → Registry) (accepted? : α → Option SourceId)
    (seals : σ → σ → Bool) (rule : DuplicateRule) (trail : List (Done σ α)) : Prop where
  /-- After each step, the registry holds the tick and the values that the events so far tell of. -/
  snapshot : ∀ front done back, trail = front ++ done :: back →
    (registry done.after).snapshot = .replayed (Done.log (front ++ [done]))
  publishes : ∀ front done back, trail = front ++ done :: back →
    (registry done.after).counts.publishes =
      .ofOccurrences ((Done.log (front ++ [done])).countP Event.isPublished)
  /-- Each event speaks of the tick and the values that the events before it tell of. -/
  fits : ∀ sofar event rest, Done.log trail = sofar ++ event :: rest →
    event.Fits (.replayed sofar) rest
  /-- There is one warning for each accepted publish of a source that has a value, and no other. -/
  warnings : ∀ done ∈ trail,
    done.events.countP Event.isWarning =
      if (accepted? done.step).any fun id => ((registry done.before).read id).isSome then 1 else 0
  unwarned : rule = .reject → ∀ event ∈ Done.log trail, event.isWarning = false
  seals : ∀ done ∈ trail,
    done.events.countP Event.isSealed = if seals done.before done.after then 1 else 0

namespace Trail

variable {σ α : Type} {Takes : σ → α → List Event → σ → Prop} {registry : σ → Registry}
  {accepted? : α → Option SourceId} {seals : σ → σ → Bool}

section Reported

variable (hreported : ∀ ⦃before step events after⦄, Takes before step events after →
    Reported (registry before) (accepted? step) (seals before after) events (registry after))
  {before after : σ} {trail : List (Done σ α)} (h : Trail Takes before trail after)

include hreported h

theorem snapshot :
    (registry after).snapshot =
      (Done.log trail).foldl Snapshot.replay (registry before).snapshot := by
  induction h with
  | nil state => rfl
  | cons first later ih =>
      rw [ih, (hreported first).snapshot, Done.log_cons, List.foldl_append]

theorem publishes :
    (registry after).counts.publishes =
      .ofOccurrences ((registry before).counts.publishes.toNat +
        (Done.log trail).countP Event.isPublished) := by
  induction h with
  | nil state => exact (Registry.Counts.ofOccurrences_toNat _).symm
  | cons first later ih =>
      rw [ih, (hreported first).publishes, Registry.Counts.ofOccurrences_add, Done.log_cons,
        List.countP_append, Nat.add_assoc]

theorem allFit : Event.AllFit (registry before).snapshot (Done.log trail) := by
  induction h with
  | nil state => exact .nil _
  | cons first later ih =>
      apply Event.AllFit.append
      · exact (hreported first).allFit
      · rw [← (hreported first).snapshot]
        exact ih

theorem unwarned_of_reject (hrule : (registry before).duplicateRule = .reject) :
    ∀ event ∈ Done.log trail, event.isWarning = false := by
  induction h with
  | nil state => exact nofun
  | cons first later ih =>
      intro event hmem
      rcases List.mem_append.mp hmem with hfirst | hlater
      · exact (hreported first).unwarned_of_reject hrule event hfirst
      · exact ih ((hreported first).duplicateRule.trans hrule) event hlater

/-- A trail of reported steps that starts with nothing published is told by its log. -/
theorem tells {rule : DuplicateRule} (hrule : (registry before).duplicateRule = rule)
    (hsnapshot : (registry before).snapshot = .empty)
    (hpublishes : (registry before).counts.publishes = 0) :
    Tells registry accepted? seals rule trail where
  snapshot := by
    intro front done back hsplit
    rw [hsplit] at h
    rw [Trail.snapshot hreported h.upTo, hsnapshot, Snapshot.replayed]
  publishes := by
    intro front done back hsplit
    rw [hsplit] at h
    rw [Trail.publishes hreported h.upTo, hpublishes, UInt64.toNat_zero, Nat.zero_add]
  fits := by
    have hfit := allFit hreported h
    rw [hsnapshot] at hfit
    exact hfit
  warnings := by
    intro done hmem
    exact (hreported (h.takes_of_mem hmem)).warnings
  unwarned := by
    intro hreject
    exact unwarned_of_reject hreported h (hrule.trans hreject)
  seals := by
    intro done hmem
    exact (hreported (h.takes_of_mem hmem)).seals_count

end Reported

end Trail

/-- Whatever a host does with a new registry or a new barrier, the run has a trail: the steps in
order, with the states on their two sides, from the new state to the last, and with events that make
up the log of the run.  The log tells of the states along the trail, and a snapshot that a barrier
hands out is the one that the events up to then tell of. -/
theorem log_determines_state (rule : DuplicateRule) :
    (∀ script : Registry.Script,
      let out := script.run (.new rule) []
      ∃ trail : List (Done Registry Registry.Step),
        Trail Registry.Takes (.new rule) trail out.value.2.1 ∧
        trail.map Done.step = out.value.2.2 ∧ Done.log trail = out.events.toList ∧
        Tells id Registry.Step.accepted? (fun _ _ => false) rule trail) ∧
    ∀ acts : List Barrier.Act,
      let out := (Barrier.new rule).play acts
      ∃ trail : List (Done Barrier (Barrier.Act × Barrier.Reaction)),
        Trail Barrier.Takes (.new rule) trail out.value.2 ∧
        trail.map (fun done => done.step.1) = acts ∧
        trail.map (fun done => done.step.2) = out.value.1 ∧
        Done.log trail = out.events.toList ∧
        Tells Barrier.registry Barrier.accepted? Barrier.seals rule trail ∧
        ∀ front done back snapshot, trail = front ++ done :: back →
          Barrier.handedOut? done.step = some snapshot →
          snapshot = .replayed (Done.log (front ++ [done])) := by
  constructor
  · intro script out
    obtain ⟨trail, htrail⟩ := script.exists_trail (.new rule) []
    have htells : Tells id Registry.Step.accepted? (fun _ _ => false) rule trail := by
      refine Trail.tells ?_ htrail.takes rfl rfl rfl
      intro before step events after htakes
      exact htakes.reported
    exact ⟨trail, htrail.takes, htrail.steps.symm, htrail.events.symm, htells⟩
  · intro acts out
    obtain ⟨trail, htrail, hacts, hreactions, hevents⟩ := (Barrier.new rule).exists_trail acts
    have htells : Tells Barrier.registry Barrier.accepted? Barrier.seals rule trail := by
      refine Trail.tells ?_ htrail rfl rfl rfl
      intro before step events after htakes
      exact htakes.reported
    refine ⟨trail, htrail, hacts, hreactions, hevents.symm, htells, ?_⟩
    intro front done back snapshot hsplit hstep
    rw [← htells.snapshot front done back hsplit]
    have hcurrent : done.after.SealIsCurrent := by
      rw [hsplit] at htrail
      exact htrail.upTo.invariant Barrier.Takes.sealIsCurrent nofun
    have hmem : done ∈ trail := by simp [hsplit]
    exact (htrail.takes_of_mem hmem).handedOut hcurrent hstep

/-- A tick within a tick, with a repeat, and a tick that is sealed at the second attempt. -/
theorem log_determines_state_of_nested_tick :
    let script : Registry.Script :=
      .runTick 1
        (.call (.publish "a" true) fun _ =>
          .runTick 2 (.inOrder [.publish "a" false, .publish "a" true]) .finish fun _ =>
            .finish (.ok ()))
        .finish fun _ => .finish (.ok ())
    let out := script.run (.new .lastWriteWins) []
    let acts : List Barrier.Act :=
      [.call (.declare "a"), .call (.beginTick 3), .call .sealTick, .call (.publish "a" true),
        .call .sealTick, .call .sealTick]
    let played := (Barrier.new .reject).play acts
    let sofar : List Event :=
      [.tickBegins 1 0, .published "a" 1 true, .tickBegins 2 0, .published "a" 2 false]
    out.events.toList = sofar ++ [.overwritten "a" 2 false true, .published "a" 2 true] ∧
    (Snapshot.replayed sofar).read "a" = some false ∧
    played.events.toList = [.tickBegins 3 1, .published "a" 3 true, .sealed 3 1] ∧
    (Snapshot.replayed [.tickBegins 3 1, .published "a" 3 true]).size = 1 := by
  intro script out acts played sofar
  have hout : out.events.toList = sofar ++ [.overwritten "a" 2 false true, .published "a" 2 true] :=
    rfl
  have hplayed : played.events.toList =
      [.tickBegins 3 1, .published "a" 3 true] ++ [.sealed 3 1] := rfl
  obtain ⟨trail, -, -, hlog, htells⟩ := (log_determines_state .lastWriteWins).1 script
  obtain ⟨-, hread, -⟩ := htells.fits sofar _ _ (hlog.trans hout)
  obtain ⟨steps, -, -, -, hevents, htold, -⟩ := (log_determines_state .reject).2 acts
  obtain ⟨-, hsize⟩ := htold.fits [.tickBegins 3 1, .published "a" 3 true] _ _
    (hevents.trans hplayed)
  exact ⟨hout, hread, hplayed, hsize.symm⟩

end TickGate
