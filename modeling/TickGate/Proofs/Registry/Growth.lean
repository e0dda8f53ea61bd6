import TickGate.Proofs.Registry.History
import TickGate.Proofs.Source.Value

/-!
# How the counts of a registry grow

A registry never looks at its counts.  What a call adds to them is a `Growth`, which depends on
the rest of the registry only: `growth` reads it off the state before the call.  So registries that
differ in nothing but their counts answer a call alike, report the same events and go on differing
in nothing but their counts, which is `make_withCounts`.
-/

namespace TickGate
namespace Registry

/-- By how much the counts of a registry are raised. -/
@[ext]
structure Growth where
  ticks : ℕ := 0
  publishes : ℕ := 0
  duplicates : ℕ := 0
  deriving DecidableEq

namespace Growth

instance : Zero Growth := ⟨{}⟩

instance : Add Growth where
  add first second :=
    { ticks := first.ticks + second.ticks
      publishes := first.publishes + second.publishes
      duplicates := first.duplicates + second.duplicates }

@[simp] theorem zero_ticks : (0 : Growth).ticks = 0 := rfl

@[simp] theorem zero_publishes : (0 : Growth).publishes = 0 := rfl

@[simp] theorem zero_duplicates : (0 : Growth).duplicates = 0 := rfl

@[simp] theorem add_ticks (first second : Growth) :
    (first + second).ticks = first.ticks + second.ticks := rfl

@[simp] theorem add_publishes (first second : Growth) :
    (first + second).publishes = first.publishes + second.publishes := rfl

@[simp] theorem add_duplicates (first second : Growth) :
    (first + second).duplicates = first.duplicates + second.duplicates := rfl

end Growth

/-! ## Raising counts -/

namespace Counts

/-- The counts after a growth, each of them staying at the largest count once it is reached. -/
def grow (counts : Counts) (growth : Growth) : Counts where
  ticks := .ofOccurrences (counts.ticks.toNat + growth.ticks)
  publishes := .ofOccurrences (counts.publishes.toNat + growth.publishes)
  duplicates := .ofOccurrences (counts.duplicates.toNat + growth.duplicates)

theorem ofOccurrences_toNat (count : Count) : Count.ofOccurrences count.toNat = count := by
  have hlimit := Count.toNat_le_limit count
  rw [← UInt64.toNat_inj, Count.toNat_ofOccurrences]
  omega

theorem ofOccurrences_add (count more : ℕ) :
    Count.ofOccurrences ((Count.ofOccurrences count).toNat + more) =
      .ofOccurrences (count + more) := by
  rw [← UInt64.toNat_inj, Count.toNat_ofOccurrences, Count.toNat_ofOccurrences,
    Count.toNat_ofOccurrences]
  omega

theorem next_eq_ofOccurrences (count : Count) :
    count.next = .ofOccurrences (count.toNat + 1) := by
  rw [← UInt64.toNat_inj, Count.toNat_next, Count.toNat_ofOccurrences]

variable (counts : Counts)

@[simp] theorem grow_zero : counts.grow 0 = counts := by
  simp [grow, ofOccurrences_toNat]

theorem grow_grow (first second : Growth) :
    (counts.grow first).grow second = counts.grow (first + second) := by
  simp [grow, ofOccurrences_add, Nat.add_assoc]

theorem countTick_eq_grow : counts.countTick = counts.grow { ticks := 1 } := by
  simp [countTick, grow, next_eq_ofOccurrences, ofOccurrences_toNat]

theorem countPublish_eq_grow : counts.countPublish = counts.grow { publishes := 1 } := by
  simp [countPublish, grow, next_eq_ofOccurrences, ofOccurrences_toNat]

theorem countDuplicate_eq_grow : counts.countDuplicate = counts.grow { duplicates := 1 } := by
  simp [countDuplicate, grow, next_eq_ofOccurrences, ofOccurrences_toNat]

end Counts

/-! ## Calls with their events -/

/-- Makes one call, and reports what the registry reports. -/
def make (registry : Registry) : Call → Traced (Answer × Registry)
  | .declare id => pure (.declared (registry.declare id).1, (registry.declare id).2)
  | .beginTick tick => do
    let registry ← registry.beginTick tick
    pure (.begun, registry)
  | .publish id value => do
    let (answer, registry) ← registry.publish id value
    pure (.published answer, registry)

@[simp] theorem make_value (registry : Registry) (call : Call) :
    (registry.make call).value = registry.perform call := by
  cases call with
  | declare id => rfl
  | beginTick tick => rfl
  | publish id value => rfl

/-! ## What a call adds -/

/-- What a call adds to the counts. -/
def growth (registry : Registry) : Call → Growth
  | .declare _ => 0
  | .beginTick _ => { ticks := 1 }
  | .publish id _ =>
    match registry.currentTick, registry.read id, registry.duplicateRule with
    | none, _, _ => 0
    | some _, none, _ => { publishes := 1 }
    | some _, some _, .reject => { duplicates := 1 }
    | some _, some _, .lastWriteWins => { publishes := 1, duplicates := 1 }

/-- The four ways in which a publish ends. -/
inductive PublishEnds (registry : Registry) (id : SourceId) (value : Bool) : Prop
  /-- No tick has begun. -/
  | idle (currentTick : registry.currentTick = none)
      (publish : registry.publish id value = pure (.error .noActiveTick, registry))
      (growth : registry.growth (.publish id value) = 0)
  /-- The value is the first of its source in the tick. -/
  | stored (tick : Tick) (currentTick : registry.currentTick = some tick)
      (silent : registry.read id = none)
      (publish : registry.publish id value =
        { value := (.ok (), registry.store id value), events := #[.published id tick value] })
      (growth : registry.growth (.publish id value) = { publishes := 1 })
  | rejected (tick : Tick) (previous : Bool) (currentTick : registry.currentTick = some tick)
      (read : registry.read id = some previous) (rule : registry.duplicateRule = .reject)
      (publish : registry.publish id value =
        pure (.error (.duplicatePublish id tick), registry.countDuplicate))
      (growth : registry.growth (.publish id value) = { duplicates := 1 })
  /-- The value takes the place of an earlier one. -/
  | replaced (tick : Tick) (previous : Bool) (currentTick : registry.currentTick = some tick)
      (read : registry.read id = some previous) (rule : registry.duplicateRule = .lastWriteWins)
      (publish : registry.publish id value =
        { value := (.ok (), registry.countDuplicate.store id value)
          events := #[.overwritten id tick previous value, .published id tick value] })
      (growth : registry.growth (.publish id value) = { publishes := 1, duplicates := 1 })

theorem publishEnds (registry : Registry) (id : SourceId) (value : Bool) :
    PublishEnds registry id value := by
  cases htick : registry.currentTick with
  | none => exact .idle htick (publish_of_idle htick) (by simp [growth, htick])
  | some tick =>
      cases hread : registry.read id with
      | none =>
          exact .stored tick htick hread (publish_of_silent htick hread)
            (by simp [growth, htick, hread])
      | some previous =>
          cases hrule : registry.duplicateRule with
          | reject =>
              exact .rejected tick previous htick hread hrule (publish_of_reject htick hread hrule)
                (by simp [growth, htick, hread, hrule])
          | lastWriteWins =>
              exact .replaced tick previous htick hread hrule
                (publish_of_lastWriteWins htick hread hrule)
                (by simp [growth, htick, hread, hrule])

section Ends

variable {registry : Registry} {id : SourceId} {value : Bool}

/-- An accepted publish stores its value in the current tick, whether or not it is a repeat. -/
theorem publish_accepted_cases (h : (registry.publish id value).value.1 = .ok ()) :
    ∃ tick, registry.currentTick = some tick ∧
      ((registry.publish id value).value.2 = registry.store id value ∨
        (registry.publish id value).value.2 = registry.countDuplicate.store id value) := by
  cases publishEnds registry id value with
  | idle htick hpublish => simp [hpublish] at h
  | stored tick htick hread hpublish => exact ⟨tick, htick, .inl (by rw [hpublish])⟩
  | rejected tick previous htick hread hrule hpublish => simp [hpublish] at h
  | replaced tick previous htick hread hrule hpublish =>
      exact ⟨tick, htick, .inr (by rw [hpublish])⟩

/-- A publish is refused because no tick has begun, and then nothing changes, or as a repeat, and
then it is counted. -/
theorem publish_refused_cases {fault : Fault}
    (h : (registry.publish id value).value.1 = .error fault) :
    (registry.currentTick = none ∧ fault = .noActiveTick ∧
      (registry.publish id value).value.2 = registry) ∨
    (registry.duplicateRule = .reject ∧
      (∃ tick, registry.currentTick = some tick ∧ fault = .duplicatePublish id tick) ∧
      (registry.publish id value).value.2 = registry.countDuplicate) := by
  cases publishEnds registry id value with
  | idle htick hpublish =>
      rw [hpublish] at h ⊢
      exact .inl ⟨htick, (Except.error.inj h).symm, rfl⟩
  | stored tick htick hread hpublish => simp [hpublish] at h
  | rejected tick previous htick hread hrule hpublish =>
      rw [hpublish] at h ⊢
      exact .inr ⟨hrule, ⟨tick, htick, (Except.error.inj h).symm⟩, rfl⟩
  | replaced tick previous htick hread hrule hpublish => simp [hpublish] at h

end Ends

/-! ## Registries that differ in their counts -/

/-- A registry with other counts. -/
def withCounts (registry : Registry) (counts : Counts) : Registry := { registry with counts }

section WithCounts

variable {registry : Registry} (counts : Counts)

theorem store_withCounts (id : SourceId) (value : Bool) :
    (registry.withCounts counts).store id value =
      (registry.store id value).withCounts (counts.grow { publishes := 1 }) := by
  rw [← counts.countPublish_eq_grow]
  rfl

theorem countDuplicate_withCounts :
    (registry.withCounts counts).countDuplicate =
      registry.countDuplicate.withCounts (counts.grow { duplicates := 1 }) := by
  rw [← counts.countDuplicate_eq_grow]
  rfl

theorem beginTick_withCounts (tick : Tick) :
    (registry.withCounts counts).beginTick tick =
      (·.withCounts (counts.grow { ticks := 1 })) <$> registry.beginTick tick := by
  rw [← counts.countTick_eq_grow, beginTick, beginTick, Traced.map_mk]
  rfl

theorem publish_withCounts (id : SourceId) (value : Bool) :
    (registry.withCounts counts).publish id value =
      (fun out => (out.1, out.2.withCounts (counts.grow (registry.growth (.publish id value))))) <$>
        registry.publish id value := by
  cases publishEnds registry id value with
  | idle htick hpublish hgrowth =>
      rw [hpublish, hgrowth, counts.grow_zero, map_pure]
      exact publish_of_idle htick
  | stored tick htick hread hpublish hgrowth =>
      have hother : (registry.withCounts counts).publish id value =
          { value := (.ok (), (registry.withCounts counts).store id value)
            events := #[.published id tick value] } := publish_of_silent htick hread
      rw [hother, hpublish, hgrowth, store_withCounts, Traced.map_mk]
  | rejected tick previous htick hread hrule hpublish hgrowth =>
      rw [hpublish, hgrowth, map_pure, ← countDuplicate_withCounts]
      exact publish_of_reject htick hread hrule
  | replaced tick previous htick hread hrule hpublish hgrowth =>
      have hother : (registry.withCounts counts).publish id value =
          { value := (.ok (), (registry.withCounts counts).countDuplicate.store id value)
            events := #[.overwritten id tick previous value, .published id tick value] } :=
        publish_of_lastWriteWins htick hread hrule
      have hsum : ({ duplicates := 1 } + { publishes := 1 } : Growth) =
        { publishes := 1, duplicates := 1 } := rfl
      rw [hother, hpublish, hgrowth, countDuplicate_withCounts, store_withCounts, counts.grow_grow,
        hsum, Traced.map_mk]

/-- Registries that differ in their counts answer a call alike, report the same events, and go on
differing in their counts, to which the call adds the same. -/
theorem make_withCounts (call : Call) :
    (registry.withCounts counts).make call =
      (fun out => (out.1, out.2.withCounts (counts.grow (registry.growth call)))) <$>
        registry.make call := by
  cases call with
  | declare id =>
      rw [growth, counts.grow_zero, make, make, map_pure]
      rfl
  | beginTick tick =>
      rw [make, make, beginTick_withCounts, growth]
      simp only [bind_map_left, map_bind, map_pure]
  | publish id value =>
      rw [make, make, publish_withCounts]
      simp only [bind_map_left, map_bind, map_pure]

end WithCounts

theorem perform_counts (registry : Registry) (call : Call) :
    (registry.perform call).2.counts = registry.counts.grow (registry.growth call) := by
  have hsame : registry.make call =
      (fun out => (out.1, out.2.withCounts (registry.counts.grow (registry.growth call)))) <$>
        registry.make call := make_withCounts registry.counts call
  have hvalue := congrArg (fun out => out.value.2.counts) hsame
  rwa [make_value, Traced.map_value] at hvalue

end Registry
end TickGate
