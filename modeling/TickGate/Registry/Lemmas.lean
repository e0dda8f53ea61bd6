import TickGate.Registry.Basic

/-!
# One step of a registry

What each operation does to the current tick, the values, the expected sources and the
counts, so that proofs about whole runs need not open the operations.
-/

namespace TickGate
namespace Registry

variable {registry : Registry} {id : SourceId} {value : Bool} {tick : Tick}

/-! ## Beginning a tick -/

@[simp] theorem beginTick_currentTick :
    (registry.beginTick tick).value.currentTick = some tick := rfl

@[simp] theorem beginTick_read (other : SourceId) :
    (registry.beginTick tick).value.read other = none := rfl

@[simp] theorem beginTick_declared :
    (registry.beginTick tick).value.declared = registry.declared := rfl

@[simp] theorem beginTick_duplicateRule :
    (registry.beginTick tick).value.duplicateRule = registry.duplicateRule := rfl

@[simp] theorem beginTick_counts :
    (registry.beginTick tick).value.counts = registry.counts.countTick := rfl

/-! ## Storing -/

@[simp] theorem store_currentTick :
    (registry.store id value).currentTick = registry.currentTick := rfl

theorem store_read (other : SourceId) :
    (registry.store id value).read other = if other = id then some value else registry.read other :=
  Snapshot.read_insert _ _ _ _

/-- Storing makes the snapshot larger by one, unless the source has published in the tick. -/
theorem size_store :
    (registry.store id value).snapshot.size =
      registry.snapshot.size + if (registry.read id).isSome then 0 else 1 :=
  IdMap.size_insert registry.snapshot.values id value

@[simp] theorem store_declared : (registry.store id value).declared = registry.declared := rfl

@[simp] theorem store_duplicateRule :
    (registry.store id value).duplicateRule = registry.duplicateRule := rfl

@[simp] theorem store_counts :
    (registry.store id value).counts = registry.counts.countPublish := rfl

@[simp] theorem countDuplicate_currentTick :
    registry.countDuplicate.currentTick = registry.currentTick := rfl

@[simp] theorem countDuplicate_read (other : SourceId) :
    registry.countDuplicate.read other = registry.read other := rfl

@[simp] theorem countDuplicate_declared :
    registry.countDuplicate.declared = registry.declared := rfl

@[simp] theorem countDuplicate_duplicateRule :
    registry.countDuplicate.duplicateRule = registry.duplicateRule := rfl

/-! ## Publishing -/

theorem publish_of_idle (h : registry.currentTick = none) :
    registry.publish id value = pure (.error .noActiveTick, registry) := by
  simp [publish, h]

theorem publish_of_silent (htick : registry.currentTick = some tick)
    (hread : registry.read id = none) :
    registry.publish id value =
      { value := (.ok (), registry.store id value), events := #[.published id tick value] } := by
  simp [publish, htick, hread]

theorem publish_of_reject {previous : Bool} (htick : registry.currentTick = some tick)
    (hread : registry.read id = some previous) (hrule : registry.duplicateRule = .reject) :
    registry.publish id value =
      pure (.error (.duplicatePublish id tick), registry.countDuplicate) := by
  simp [publish, htick, hread, hrule]

theorem publish_of_lastWriteWins {previous : Bool} (htick : registry.currentTick = some tick)
    (hread : registry.read id = some previous) (hrule : registry.duplicateRule = .lastWriteWins) :
    registry.publish id value =
      { value := (.ok (), registry.countDuplicate.store id value)
        events := #[.overwritten id tick previous value, .published id tick value] } := by
  simp [publish, htick, hread, hrule]

/-- Within a tick, only a repeat can fail. -/
theorem publish_value_cases (htick : registry.currentTick = some tick) (id : SourceId)
    (value : Bool) :
    (∃ next, (registry.publish id value).value = (.ok (), next) ∧ next.currentTick = some tick) ∨
    (registry.publish id value).value =
      (.error (.duplicatePublish id tick), registry.countDuplicate) := by
  cases hread : registry.read id with
  | none =>
      left
      rw [publish_of_silent htick hread]
      exact ⟨_, rfl, htick⟩
  | some previous =>
      cases hrule : registry.duplicateRule with
      | reject =>
          right
          rw [publish_of_reject htick hread hrule]
          rfl
      | lastWriteWins =>
          left
          rw [publish_of_lastWriteWins htick hread hrule]
          exact ⟨_, rfl, htick⟩

/-- Publishing expects nothing new. -/
@[simp] theorem publish_declared :
    (registry.publish id value).value.2.declared = registry.declared := by
  unfold publish
  split
  · rfl
  · split
    · rfl
    · rfl
    · rfl

@[simp] theorem publish_duplicateRule :
    (registry.publish id value).value.2.duplicateRule = registry.duplicateRule := by
  unfold publish
  split
  · rfl
  · split
    · rfl
    · rfl
    · rfl

/-! ## Silent sources -/

theorem mem_missing {other : SourceId} :
    other ∈ registry.missing ↔ other ∈ registry.declared.keys ∧ registry.read other = none := by
  simp [missing]

theorem missing_ascending : registry.missing.Pairwise (· < ·) :=
  registry.declared.keys_ascending.filter _

theorem isComplete_iff : registry.isComplete = true ↔ registry.missing = [] := by
  simp [isComplete, missing, List.filter_eq_nil_iff, Option.isSome_iff_ne_none]

/-! ## Running a tick -/

/-- A tick whose publishing succeeds and leaves no expected source silent is decided, over the
registry that the publishing left. -/
theorem runTick_value_of_complete {σ ρ : Type} {next : Registry} {host after : σ}
    {publish : Registry → σ → Traced (Except Fault Unit × Registry × σ)}
    (hpublish : (publish (registry.beginTick tick).value host).value = (.ok (), next, after))
    (hmissing : next.missing = []) (decide : Registry → σ → Traced (ρ × σ)) :
    (registry.runTick tick publish decide host).value =
      (.ok (decide next after).value.1, next, (decide next after).value.2) := by
  simp [runTick, hpublish, hmissing]

theorem runTick_events_of_complete {σ ρ : Type} {next : Registry} {host after : σ}
    {publish : Registry → σ → Traced (Except Fault Unit × Registry × σ)}
    (hpublish : (publish (registry.beginTick tick).value host).value = (.ok (), next, after))
    (hmissing : next.missing = []) (decide : Registry → σ → Traced (ρ × σ)) :
    (registry.runTick tick publish decide host).events =
      (registry.beginTick tick).events ++
        ((publish (registry.beginTick tick).value host).events ++ (decide next after).events) := by
  simp [runTick, hpublish, hmissing]

/-- A tick that leaves an expected source silent is not decided. -/
theorem runTick_value_of_missing {σ ρ : Type} {next : Registry} {host after : σ}
    {publish : Registry → σ → Traced (Except Fault Unit × Registry × σ)}
    (hpublish : (publish (registry.beginTick tick).value host).value = (.ok (), next, after))
    (hmissing : next.missing ≠ []) (decide : Registry → σ → Traced (ρ × σ)) :
    (registry.runTick tick publish decide host).value =
      (.error (.incompleteSnapshot tick next.missing), next, after) := by
  cases hlist : next.missing with
  | nil => exact absurd hlist hmissing
  | cons first rest => simp [runTick, hpublish, hlist]

/-- The fault of the publishing is the fault of the tick. -/
theorem runTick_value_of_error {σ ρ : Type} {next : Registry} {host after : σ} {fault : Fault}
    {publish : Registry → σ → Traced (Except Fault Unit × Registry × σ)}
    (hpublish : (publish (registry.beginTick tick).value host).value = (.error fault, next, after))
    (decide : Registry → σ → Traced (ρ × σ)) :
    (registry.runTick tick publish decide host).value = (.error fault, next, after) := by
  simp [runTick, hpublish]

/-! ## Declaring -/

@[simp] theorem declare_currentTick :
    (registry.declare id).2.currentTick = registry.currentTick := rfl

@[simp] theorem declare_read (other : SourceId) :
    (registry.declare id).2.read other = registry.read other := rfl

@[simp] theorem declare_duplicateRule :
    (registry.declare id).2.duplicateRule = registry.duplicateRule := rfl

theorem declare_fst : (registry.declare id).1 = true ↔ id ∉ registry.declared.keys := by
  simp [declare, ← IdMap.contains_iff]

theorem mem_declare {other : SourceId} :
    other ∈ (registry.declare id).2.declared.keys ↔ other = id ∨ other ∈ registry.declared.keys := by
  rw [IdMap.mem_keys, IdMap.mem_keys]
  simp only [declare, IdMap.get?_insert]
  split <;> simp_all

end Registry
end TickGate
