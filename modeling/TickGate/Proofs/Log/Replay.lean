import TickGate.Proofs.Registry.Growth

/-!
# Replaying a log

Two of the events say all about the snapshot of a registry: a tick begins, and a source has
published.  `Snapshot.replayed` builds a snapshot from them.  What one step can do to a registry,
together with the events that it reports, is said once, in `Reported`, and the lemmas after it read
off its five cases what a log tells of one step.
-/

namespace TickGate

/-! ## Replaying events -/

namespace Snapshot

/-- The snapshot after an event. -/
def replay (snapshot : Snapshot) : Event → Snapshot
  | .tickBegins tick _ => .ofTick tick
  | .published id _ value => snapshot.insert id value
  | _ => snapshot

/-- The snapshot that events tell of. -/
def replayed (events : List Event) : Snapshot := events.foldl replay empty

end Snapshot

namespace Event

def isPublished : Event → Bool
  | published .. => true
  | _ => false

def isSealed : Event → Bool
  | .sealed .. => true
  | _ => false

def isWarning (event : Event) : Bool := event.severity = .warn

/-- The decision of a trigger, which tells nothing about the registry. -/
def IsDecision (event : Event) : Prop :=
  ∃ tick policy decision, event = decided tick policy decision

/-- An event speaks of the snapshot that the events before it tell of: of its tick, of the value
that is about to be replaced, of the number of values when it is sealed.  The events that come
after it are `rest`; a replacement is followed at once by the publish that replaces. -/
def Fits (sofar : Snapshot) (rest : List Event) : Event → Prop
  | published _ tick _ => sofar.tick = some tick
  | overwritten id tick previous value =>
    sofar.tick = some tick ∧ sofar.read id = some previous ∧
      rest.head? = some (published id tick value)
  | .sealed tick count => sofar.tick = some tick ∧ count = sofar.size
  | _ => True

theorem Fits.append {sofar : Snapshot} {rest : List Event} {event : Event}
    (h : event.Fits sofar rest) (later : List Event) : event.Fits sofar (rest ++ later) := by
  cases event with
  | overwritten id tick previous value =>
      obtain ⟨htick, hread, hrest⟩ := h
      exact ⟨htick, hread, by rw [List.head?_append, hrest]; rfl⟩
  | _ => exact h

/-- Each of some events fits the snapshot at its place. -/
def AllFit (start : Snapshot) (events : List Event) : Prop :=
  ∀ sofar event rest, events = sofar ++ event :: rest →
    event.Fits (sofar.foldl Snapshot.replay start) rest

namespace AllFit

theorem nil (start : Snapshot) : AllFit start [] := by
  intro sofar event rest h
  cases sofar <;> cases h

theorem cons {start : Snapshot} {event : Event} {events : List Event}
    (hfirst : event.Fits start events) (hlater : AllFit (start.replay event) events) :
    AllFit start (event :: events) := by
  intro sofar other rest h
  cases sofar with
  | nil =>
      obtain ⟨rfl, rfl⟩ := List.cons.inj h
      exact hfirst
  | cons first sofar =>
      obtain ⟨rfl, hsplit⟩ := List.cons.inj h
      exact hlater sofar other rest hsplit

theorem append {start : Snapshot} {front back : List Event} (hfront : AllFit start front)
    (hback : AllFit (front.foldl Snapshot.replay start) back) : AllFit start (front ++ back) := by
  induction front generalizing start with
  | nil => exact hback
  | cons event front ih =>
      apply cons
      · exact (hfront [] event front rfl).append back
      · apply ih
        · intro sofar other rest h
          exact hfront (event :: sofar) other rest (by rw [h]; rfl)
        · exact hback

end AllFit

/-! ## Decisions -/

section Decisions

variable {events : List Event} (h : ∀ event ∈ events, event.IsDecision)

include h

theorem foldl_replay_of_decisions (start : Snapshot) :
    events.foldl Snapshot.replay start = start := by
  induction events with
  | nil => rfl
  | cons event events ih =>
      obtain ⟨tick, policy, decision, rfl⟩ := h event List.mem_cons_self
      exact ih fun event hmem => h event (List.mem_cons_of_mem _ hmem)

theorem allFit_of_decisions (start : Snapshot) : AllFit start events := by
  intro sofar event rest hsplit
  obtain ⟨tick, policy, decision, rfl⟩ := h event (by simp [hsplit])
  trivial

theorem countP_of_decisions {p : Event → Bool}
    (hp : ∀ tick policy decision, p (decided tick policy decision) = false) :
    events.countP p = 0 := by
  rw [List.countP_eq_zero]
  intro event hmem
  obtain ⟨tick, policy, decision, rfl⟩ := h event hmem
  simp [hp]

end Decisions

end Event

/-! ## What one step does and reports -/

/-- What a step makes of a registry: a snapshot, and how many publishes more. -/
structure Becomes (before after : Registry) (snapshot : Snapshot) (publishes : ℕ) : Prop where
  snapshot : after.snapshot = snapshot
  publishes : after.counts.publishes =
    .ofOccurrences (before.counts.publishes.toNat + publishes)
  duplicateRule : after.duplicateRule = before.duplicateRule

theorem Becomes.refl (registry : Registry) : Becomes registry registry registry.snapshot 0 where
  snapshot := rfl
  publishes := (Registry.Counts.ofOccurrences_toNat _).symm
  duplicateRule := rfl

/-- All that a step can do to what a registry has published, with the events that it reports.  The
step may accept the publish of a source, or seal a tick. -/
inductive Reported (before : Registry) (accepted : Option SourceId) (seals : Bool)
    (events : List Event) (after : Registry) : Prop
  | quiet (becomes : Becomes before after before.snapshot 0) (accepted_eq : accepted = none)
      (seals_eq : seals = false) (decisions : ∀ event ∈ events, event.IsDecision)
  | begun (tick : Tick) (declared : ℕ) (becomes : Becomes before after (.ofTick tick) 0)
      (accepted_eq : accepted = none) (seals_eq : seals = false)
      (events_eq : events = [.tickBegins tick declared])
  /-- The value is the first of its source in the tick. -/
  | stored (id : SourceId) (tick : Tick) (value : Bool)
      (currentTick : before.currentTick = some tick) (silent : before.read id = none)
      (becomes : Becomes before after (before.snapshot.insert id value) 1)
      (accepted_eq : accepted = some id) (seals_eq : seals = false)
      (events_eq : events = [.published id tick value])
  /-- The value takes the place of an earlier one. -/
  | replaced (id : SourceId) (tick : Tick) (previous value : Bool)
      (currentTick : before.currentTick = some tick) (read : before.read id = some previous)
      (rule : before.duplicateRule = .lastWriteWins)
      (becomes : Becomes before after (before.snapshot.insert id value) 1)
      (accepted_eq : accepted = some id) (seals_eq : seals = false)
      (events_eq : events = [.overwritten id tick previous value, .published id tick value])
  | sealed (tick : Tick) (currentTick : before.currentTick = some tick)
      (becomes : Becomes before after before.snapshot 0) (accepted_eq : accepted = none)
      (seals_eq : seals = true) (events_eq : events = [.sealed tick before.snapshot.size])

namespace Reported

variable {before after : Registry} {accepted : Option SourceId} {seals : Bool}
  {events : List Event} (h : Reported before accepted seals events after)

include h

theorem duplicateRule : after.duplicateRule = before.duplicateRule := by
  cases h with
  | quiet becomes => exact becomes.duplicateRule
  | begun _ _ becomes => exact becomes.duplicateRule
  | stored _ _ _ _ _ becomes => exact becomes.duplicateRule
  | replaced _ _ _ _ _ _ _ becomes => exact becomes.duplicateRule
  | sealed _ _ becomes => exact becomes.duplicateRule

theorem snapshot : after.snapshot = events.foldl Snapshot.replay before.snapshot := by
  cases h with
  | quiet becomes _ _ decisions =>
      rw [becomes.snapshot, Event.foldl_replay_of_decisions decisions]
  | begun _ _ becomes _ _ events_eq => rw [becomes.snapshot, events_eq]; rfl
  | stored _ _ _ _ _ becomes _ _ events_eq => rw [becomes.snapshot, events_eq]; rfl
  | replaced _ _ _ _ _ _ _ becomes _ _ events_eq => rw [becomes.snapshot, events_eq]; rfl
  | sealed _ _ becomes _ _ events_eq => rw [becomes.snapshot, events_eq]; rfl

theorem publishes :
    after.counts.publishes =
      .ofOccurrences (before.counts.publishes.toNat + events.countP Event.isPublished) := by
  cases h with
  | quiet becomes _ _ decisions =>
      rw [becomes.publishes, Event.countP_of_decisions decisions fun _ _ _ => rfl]
  | begun _ _ becomes _ _ events_eq => rw [becomes.publishes, events_eq]; rfl
  | stored _ _ _ _ _ becomes _ _ events_eq => rw [becomes.publishes, events_eq]; rfl
  | replaced _ _ _ _ _ _ _ becomes _ _ events_eq => rw [becomes.publishes, events_eq]; rfl
  | sealed _ _ becomes _ _ events_eq => rw [becomes.publishes, events_eq]; rfl

theorem allFit : Event.AllFit before.snapshot events := by
  cases h with
  | quiet _ _ _ decisions => exact Event.allFit_of_decisions decisions _
  | begun _ _ _ _ _ events_eq =>
      rw [events_eq]
      exact .cons trivial (.nil _)
  | stored _ _ _ currentTick _ _ _ _ events_eq =>
      rw [events_eq]
      exact .cons currentTick (.nil _)
  | replaced _ _ _ _ currentTick read _ _ _ _ events_eq =>
      rw [events_eq]
      apply Event.AllFit.cons
      · exact ⟨currentTick, read, rfl⟩
      · exact .cons currentTick (.nil _)
  | sealed _ currentTick _ _ _ events_eq =>
      rw [events_eq]
      exact .cons ⟨currentTick, rfl⟩ (.nil _)

/-- A step warns once where it accepts a source that has published before, and else not. -/
theorem warnings :
    events.countP Event.isWarning =
      if accepted.any fun id => (before.read id).isSome then 1 else 0 := by
  cases h with
  | quiet _ accepted_eq _ decisions =>
      rw [accepted_eq, Event.countP_of_decisions decisions fun _ _ _ => rfl]
      rfl
  | begun _ _ _ accepted_eq _ events_eq => rw [accepted_eq, events_eq]; rfl
  | stored _ _ _ _ silent _ accepted_eq _ events_eq =>
      rw [accepted_eq, events_eq, Option.any_some, silent]
      rfl
  | replaced _ _ _ _ _ read _ _ accepted_eq _ events_eq =>
      rw [accepted_eq, events_eq, Option.any_some, read]
      rfl
  | sealed _ _ _ accepted_eq _ events_eq => rw [accepted_eq, events_eq]; rfl

theorem seals_count : events.countP Event.isSealed = if seals then 1 else 0 := by
  cases h with
  | quiet _ _ seals_eq decisions =>
      rw [seals_eq, Event.countP_of_decisions decisions fun _ _ _ => rfl]
      rfl
  | begun _ _ _ _ seals_eq events_eq => rw [seals_eq, events_eq]; rfl
  | stored _ _ _ _ _ _ _ seals_eq events_eq => rw [seals_eq, events_eq]; rfl
  | replaced _ _ _ _ _ _ _ _ _ seals_eq events_eq => rw [seals_eq, events_eq]; rfl
  | sealed _ _ _ _ seals_eq events_eq => rw [seals_eq, events_eq]; rfl

/-- Where repeats are rejected, no step warns. -/
theorem unwarned_of_reject (hrule : before.duplicateRule = .reject) :
    ∀ event ∈ events, event.isWarning = false := by
  cases h with
  | quiet _ _ _ decisions =>
      intro event hmem
      obtain ⟨tick, policy, decision, rfl⟩ := decisions event hmem
      rfl
  | begun _ _ _ _ _ events_eq => simp [events_eq, Event.isWarning, Event.severity]
  | stored _ _ _ _ _ _ _ _ events_eq => simp [events_eq, Event.isWarning, Event.severity]
  | replaced _ _ _ _ _ _ rule => exact nomatch hrule.symm.trans rule
  | sealed _ _ _ _ _ events_eq => simp [events_eq, Event.isWarning, Event.severity]

end Reported
end TickGate
