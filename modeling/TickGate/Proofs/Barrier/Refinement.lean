import TickGate.Barrier
import TickGate.Registry.Lemmas

/-!
# A tick behind a barrier is a tick of the registry

A host with one thread runs a tick by one call of `Registry.runTick`; a host with several begins
the tick on a barrier, publishes and seals.  From the beginning of the tick on, the registry behind
the barrier is in step with the other one: beginning erases what they may have differed in, and
while the tick is open a publish behind the barrier is a publish on its registry.  So the two hosts
get the same result and are left with the same registry, which is `sealing_refines_running`.
-/

namespace TickGate

/-- Publishes in order, up to the first fault, counting the publishes that are accepted. -/
def Board.publishEach {β : Type} [Board β] :
    List (SourceId × Bool) → β → Nat → Traced (Except Fault Unit × β × Nat)
  | [], board, accepted => pure (.ok (), board, accepted)
  | (id, value) :: rest, board, accepted => do
    let (answer, board) ← Board.publish board id value
    match answer with
    | .error fault => pure (.error fault, board, accepted)
    | .ok () => publishEach rest board (accepted + 1)

/-- Runs a tick in which the publishes are made and the snapshot is read. -/
def Registry.publishAndRead (registry : Registry) (tick : Tick)
    (publishes : List (SourceId × Bool)) : Traced (Except Fault Snapshot × Registry × Nat) :=
  registry.runTick tick (Board.publishEach publishes)
    (fun registry accepted => pure (registry.snapshot, accepted)) 0

/-- Begins a tick, makes the publishes, and seals the tick unless one of them failed. -/
def Barrier.publishAndSeal (barrier : Barrier) (tick : Tick)
    (publishes : List (SourceId × Bool)) : Traced (Except Fault Snapshot × Barrier × Nat) := do
  let barrier ← barrier.beginTick tick
  let (answer, barrier, accepted) ← Board.publishEach publishes barrier 0
  match answer with
  | .error fault => pure (.error fault, barrier, accepted)
  | .ok () =>
    let (result, barrier) ← barrier.sealTick
    pure (result, barrier, accepted)

/-! ## Publishing in order -/

namespace Board

variable {β : Type} [Board β] (board : β) {next : β} {id : SourceId} {value : Bool}

theorem publishEach_value_of_ok (h : (Board.publish board id value).value = (.ok (), next))
    (rest : List (SourceId × Bool)) (accepted : Nat) :
    (publishEach ((id, value) :: rest) board accepted).value =
      (publishEach rest next (accepted + 1)).value := by
  simp [publishEach, h]

theorem publishEach_value_of_error {fault : Fault}
    (h : (Board.publish board id value).value = (.error fault, next))
    (rest : List (SourceId × Bool)) (accepted : Nat) :
    (publishEach ((id, value) :: rest) board accepted).value = (.error fault, next, accepted) := by
  simp [publishEach, h]

end Board

namespace Registry

variable {registry : Registry} {tick : Tick}

/-- Within a tick, publishing in order accepts everything, or stops at a repeat. -/
theorem publishEach_value_cases (htick : registry.currentTick = some tick)
    (publishes : List (SourceId × Bool)) (accepted : Nat) :
    ∃ answer after more,
      (Board.publishEach publishes registry accepted).value = (answer, after, accepted + more) ∧
      after.currentTick = some tick ∧
      ((answer = .ok () ∧ more = publishes.length) ∨
        ∃ id value, publishes[more]? = some (id, value) ∧
          answer = .error (.duplicatePublish id tick)) := by
  induction publishes generalizing registry accepted with
  | nil => exact ⟨_, _, 0, rfl, htick, .inl ⟨rfl, rfl⟩⟩
  | cons publish rest ih =>
      obtain ⟨id, value⟩ := publish
      rcases publish_value_cases htick id value with ⟨next, hpublish, hnext⟩ | hpublish
      · obtain ⟨answer, after, more, hrest, hafter, hend⟩ := ih hnext (accepted + 1)
        have hvalue := Board.publishEach_value_of_ok registry hpublish rest accepted
        rw [hrest, Nat.add_right_comm, Nat.add_assoc] at hvalue
        refine ⟨answer, after, more + 1, hvalue, hafter, ?_⟩
        rcases hend with ⟨hok, hmore⟩ | hfault
        · exact .inl ⟨hok, by rw [hmore, List.length_cons]⟩
        · exact .inr hfault
      · have hvalue := Board.publishEach_value_of_error registry hpublish rest accepted
        exact ⟨_, _, 0, hvalue, htick, .inr ⟨id, value, rfl, rfl⟩⟩

/-- Beginning a tick erases all that the registry does not keep over ticks. -/
theorem beginTick_value_congr {other : Registry} (hdeclared : registry.declared = other.declared)
    (hrule : registry.duplicateRule = other.duplicateRule)
    (hcounts : registry.counts = other.counts) (tick : Tick) :
    (registry.beginTick tick).value = (other.beginTick tick).value := by
  simp only [beginTick, hdeclared, hrule, hcounts]

end Registry

/-! ## Publishing behind the barrier -/

namespace Barrier

variable {registry after : Registry} {tick : Tick} {publishes : List (SourceId × Bool)}

/-- While a tick is open, publishing behind the barrier is publishing on its registry. -/
theorem publishEach_value_of_publishing {accepted total : Nat} {answer : Except Fault Unit}
    (h : (Board.publishEach publishes registry accepted).value = (answer, after, total)) :
    (Board.publishEach publishes (⟨registry, .publishing⟩ : Barrier) accepted).value =
      (answer, ⟨after, .publishing⟩, total) := by
  induction publishes generalizing registry accepted with
  | nil =>
      obtain ⟨rfl, hrest⟩ := Prod.mk.inj h
      obtain ⟨rfl, rfl⟩ := Prod.mk.inj hrest
      rfl
  | cons publish rest ih =>
      obtain ⟨id, value⟩ := publish
      let barrier : Barrier := ⟨registry, .publishing⟩
      have hbarrier : (barrier.publish id value).value =
          ((registry.publish id value).value.1, ⟨(registry.publish id value).value.2, .publishing⟩) :=
        publish_value_of_publishing rfl
      rcases hpublish : (registry.publish id value).value with ⟨result, next⟩
      rw [hpublish] at hbarrier
      cases result with
      | error fault =>
          rw [Board.publishEach_value_of_error registry hpublish] at h
          obtain ⟨rfl, hrest⟩ := Prod.mk.inj h
          obtain ⟨rfl, rfl⟩ := Prod.mk.inj hrest
          exact Board.publishEach_value_of_error barrier hbarrier rest accepted
      | ok =>
          rw [Board.publishEach_value_of_ok registry hpublish] at h
          rw [Board.publishEach_value_of_ok barrier hbarrier]
          exact ih h

/-- A tick that is open is sealed, or lacks the values of the sources that are missing. -/
theorem sealTick_value_of_open (htick : registry.currentTick = some tick) :
    (registry.missing = [] ∧
      (⟨registry, .publishing⟩ : Barrier).sealTick.value =
        (.ok registry.snapshot, ⟨registry, .deciding registry.snapshot⟩)) ∨
    (registry.missing ≠ [] ∧
      (⟨registry, .publishing⟩ : Barrier).sealTick.value =
        (.error (.incompleteSnapshot tick registry.missing), ⟨registry, .publishing⟩)) := by
  let barrier : Barrier := ⟨registry, .publishing⟩
  have hphase : barrier.phase = .publishing := rfl
  have hcurrent : barrier.currentTick = some tick := htick
  by_cases hmissing : registry.missing = []
  · left
    rw [sealTick_of_complete hphase hcurrent hmissing]
    exact ⟨hmissing, rfl⟩
  · right
    rw [sealTick_of_missing hphase hcurrent hmissing]
    exact ⟨hmissing, rfl⟩

theorem publishAndSeal_value_of_ok {barrier sealed : Barrier} {opened : Registry} {accepted : Nat}
    {result : Except Fault Snapshot}
    (hpublish : (Board.publishEach publishes (barrier.registry.beginTick tick).value 0).value =
      (.ok (), opened, accepted))
    (hseal : (⟨opened, .publishing⟩ : Barrier).sealTick.value = (result, sealed)) :
    (barrier.publishAndSeal tick publishes).value = (result, sealed, accepted) := by
  have hbarrier := publishEach_value_of_publishing hpublish
  have hbegin : (barrier.beginTick tick).value =
      ⟨(barrier.registry.beginTick tick).value, .publishing⟩ := rfl
  simp [publishAndSeal, hbegin, hbarrier, hseal]

theorem publishAndSeal_value_of_error {barrier : Barrier} {opened : Registry} {accepted : Nat}
    {fault : Fault}
    (hpublish : (Board.publishEach publishes (barrier.registry.beginTick tick).value 0).value =
      (.error fault, opened, accepted)) :
    (barrier.publishAndSeal tick publishes).value =
      (.error fault, ⟨opened, .publishing⟩, accepted) := by
  have hbarrier := publishEach_value_of_publishing hpublish
  have hbegin : (barrier.beginTick tick).value =
      ⟨(barrier.registry.beginTick tick).value, .publishing⟩ := rfl
  simp [publishAndSeal, hbegin, hbarrier]

/-- A registry and a barrier in any phase, which have the same expected sources, rule and counts,
run a tick with the same publishes.  Both get the same result, after the same number of accepted
publishes, and are left with the same registry: its current tick, values, expected sources and
counts.  All publishes are accepted and the result is the snapshot, or the sources that are
missing; or the publish after the accepted ones is a repeat, and the result is its fault.  The
barrier has sealed the tick exactly where the result is a snapshot, and is still open otherwise. -/
theorem sealing_refines_running (registry : Registry) (barrier : Barrier)
    (hdeclared : registry.declared = barrier.registry.declared)
    (hrule : registry.duplicateRule = barrier.registry.duplicateRule)
    (hcounts : registry.counts = barrier.registry.counts)
    (tick : Tick) (publishes : List (SourceId × Bool)) :
    ∃ result after phase accepted,
      (registry.publishAndRead tick publishes).value = (result, after, accepted) ∧
      (barrier.publishAndSeal tick publishes).value = (result, ⟨after, phase⟩, accepted) ∧
      after.currentTick = some tick ∧
      ((accepted = publishes.length ∧
          (after.missing = [] ∧ result = .ok after.snapshot ∨
            after.missing ≠ [] ∧ result = .error (.incompleteSnapshot tick after.missing))) ∨
        ∃ id value, publishes[accepted]? = some (id, value) ∧
          result = .error (.duplicatePublish id tick)) ∧
      (∀ sealed, phase = .deciding sealed ↔ result = .ok sealed) ∧
      (phase = .publishing ↔ ∃ fault, result = .error fault) := by
  have hbegun : (registry.beginTick tick).value.currentTick = some tick := rfl
  obtain ⟨answer, after, accepted, hsingle, hafter, hend⟩ :=
    Registry.publishEach_value_cases hbegun publishes 0
  rw [Nat.zero_add] at hsingle
  -- The registry behind the barrier begins the tick in the same state, and so publishes alike.
  have hbehind := hsingle
  rw [Registry.beginTick_value_congr hdeclared hrule hcounts tick] at hbehind
  rcases hend with ⟨rfl, hall⟩ | ⟨id, value, hrepeat, rfl⟩
  · rcases sealTick_value_of_open hafter with ⟨hmissing, hseal⟩ | ⟨hmissing, hseal⟩
    · have hran := Registry.runTick_value_of_complete hsingle hmissing
        fun registry accepted => pure (registry.snapshot, accepted)
      have hsealed := publishAndSeal_value_of_ok hbehind hseal
      exact ⟨_, _, _, _, hran, hsealed, hafter, .inl ⟨hall, .inl ⟨hmissing, rfl⟩⟩, by simp, by simp⟩
    · have hran := Registry.runTick_value_of_missing hsingle hmissing
        fun registry accepted => pure (registry.snapshot, accepted)
      have hsealed := publishAndSeal_value_of_ok hbehind hseal
      exact ⟨_, _, _, _, hran, hsealed, hafter, .inl ⟨hall, .inr ⟨hmissing, rfl⟩⟩, by simp, by simp⟩
  · have hran := Registry.runTick_value_of_error hsingle
      fun registry accepted => pure (registry.snapshot, accepted)
    have hsealed := publishAndSeal_value_of_error hbehind
    exact ⟨_, _, _, _, hran, hsealed, hafter, .inr ⟨id, value, hrepeat, rfl⟩, by simp, by simp⟩

/-- A registry in the middle of a tick, and a barrier that has sealed another one: a repeat is the
fault of both. -/
theorem sealing_refines_running_of_repeat :
    let declared : IdSet := IdMap.empty.insert "a" ()
    let counts : Registry.Counts := { ticks := 1, publishes := 1 }
    let rule : DuplicateRule := .reject
    let registry : Registry :=
      { snapshot := (Snapshot.ofTick 9).insert "b" true, declared, duplicateRule := rule, counts }
    let sealed := (Snapshot.ofTick 4).insert "c" false
    let barrier : Barrier :=
      { registry := { snapshot := sealed, declared, duplicateRule := rule, counts }
        phase := .deciding sealed }
    let publishes := [("a", true), ("b", false), ("a", false), ("c", true)]
    let after : Registry :=
      { snapshot := ((Snapshot.ofTick 3).insert "a" true).insert "b" false, declared,
        duplicateRule := rule, counts := { ticks := 2, publishes := 3, duplicates := 1 } }
    let fault : Fault := .duplicatePublish "a" 3
    registry.declared = barrier.registry.declared ∧
    registry.duplicateRule = barrier.registry.duplicateRule ∧
    registry.counts = barrier.registry.counts ∧
    (registry.publishAndRead 3 publishes).value = (.error fault, after, 2) ∧
    (barrier.publishAndSeal 3 publishes).value = (.error fault, ⟨after, .publishing⟩, 2) := by
  intro declared counts rule registry sealed barrier publishes after fault
  have hran : (registry.publishAndRead 3 publishes).value = (.error fault, after, 2) := rfl
  obtain ⟨result, left, phase, accepted, hsingle, hsealed, -, -, -, hopen⟩ :=
    sealing_refines_running registry barrier rfl rfl rfl 3 publishes
  rw [hran] at hsingle
  obtain ⟨rfl, hrest⟩ := Prod.mk.inj hsingle
  obtain ⟨rfl, rfl⟩ := Prod.mk.inj hrest
  have hphase : phase = .publishing := hopen.2 ⟨fault, rfl⟩
  rw [hphase] at hsealed
  exact ⟨rfl, rfl, rfl, hran, hsealed⟩

end Barrier
end TickGate
