import Mathlib.Data.List.Perm.Basic
import TickGate.Proofs.Barrier.Agreement
import TickGate.Proofs.Barrier.Refinement
import TickGate.Proofs.Registry.Growth

/-!
# After a refusal

An operation that fails leaves everything as it was, except that a repeated publish is counted.  So
a tick that could not be sealed is still open, with the values it had, and the sources that were
missing are all it lacks: once each of them has published, in whatever order, it can be sealed.
-/

namespace TickGate

/-! ## Refusals of a registry -/

namespace Registry

variable {registry : Registry} {id : SourceId} {value : Bool}

theorem publish_value_snd_of_noActiveTick
    (h : (registry.publish id value).value.1 = .error .noActiveTick) :
    (registry.publish id value).value.2 = registry := by
  rcases publish_refused_cases h with ⟨-, -, hnext⟩ | ⟨-, ⟨tick, -, hfault⟩, -⟩
  · exact hnext
  · exact nomatch hfault

/-- A rejected repeat is counted, up to the largest count, and changes nothing else. -/
theorem publish_value_snd_of_duplicatePublish {source : SourceId} {tick : Tick}
    (h : (registry.publish id value).value.1 = .error (.duplicatePublish source tick)) :
    (registry.publish id value).value.2 =
      { registry with
        counts :=
          { registry.counts with
            duplicates := .ofOccurrences (registry.counts.duplicates.toNat + 1) } } := by
  rcases publish_refused_cases h with ⟨-, hfault, -⟩ | ⟨-, -, hnext⟩
  · exact nomatch hfault
  · rw [hnext, countDuplicate, Counts.countDuplicate, Counts.next_eq_ofOccurrences]

/-! ## Publishing for silent sources -/

variable {tick : Tick}

/-- While a tick is open, sources that are silent are all accepted, each with one publish, and
nothing but their values changes. -/
theorem publishEach_value_of_silent (htick : registry.currentTick = some tick)
    {publishes : List (SourceId × Bool)} (hnodup : (sourcesOf publishes).Nodup)
    (hsilent : ∀ id ∈ sourcesOf publishes, registry.read id = none) (accepted : Nat) :
    ∃ after,
      (Board.publishEach publishes registry accepted).value =
        (.ok (), after, accepted + publishes.length) ∧
      after.currentTick = some tick ∧ after.declared = registry.declared ∧
      (∀ publish ∈ publishes, after.read publish.1 = some publish.2) ∧
      ∀ id, id ∉ sourcesOf publishes → after.read id = registry.read id := by
  induction publishes generalizing registry accepted with
  | nil => exact ⟨registry, rfl, htick, rfl, by simp, fun _ _ => rfl⟩
  | cons publish rest ih =>
      obtain ⟨id, value⟩ := publish
      obtain ⟨hfirst, hrest⟩ := List.nodup_cons.1 hnodup
      obtain ⟨hsilentFirst, hsilentRest⟩ := List.forall_mem_cons.1 hsilent
      have hpublish : (registry.publish id value).value = (.ok (), registry.store id value) := by
        rw [publish_of_silent htick hsilentFirst]
      -- The others are still silent once the first source has published.
      have hsilentNext : ∀ other ∈ sourcesOf rest,
          (registry.store id value).read other = none := by
        intro other hother
        have hne : other ≠ id := fun heq => hfirst (heq ▸ hother)
        rw [store_read, if_neg hne]
        exact hsilentRest other hother
      have hnext : (registry.store id value).currentTick = some tick := htick
      obtain ⟨after, heach, hafter, hdeclared, hvalues, hothers⟩ :=
        ih hnext hrest hsilentNext (accepted + 1)
      refine ⟨after, ?_, hafter, hdeclared, ?_, ?_⟩
      · rw [Board.publishEach_value_of_ok registry hpublish, heach, List.length_cons,
          Nat.add_assoc, Nat.add_comm 1]
      · refine List.forall_mem_cons.2 ⟨?_, hvalues⟩
        rw [hothers id hfirst, store_read, if_pos rfl]
      · intro other hother
        have hne : other ≠ id := List.ne_of_not_mem_cons hother
        rw [hothers other (List.not_mem_of_not_mem_cons hother), store_read, if_neg hne]

/-- Once every source that was missing has a value and no value is lost, none is missing. -/
theorem missing_eq_nil_of_supplied {after : Registry}
    (hdeclared : after.declared = registry.declared)
    (hsupplied : ∀ id ∈ registry.missing, after.read id ≠ none)
    (hkept : ∀ id ∉ registry.missing, after.read id = registry.read id) : after.missing = [] := by
  rw [List.eq_nil_iff_forall_not_mem]
  intro id hid
  obtain ⟨hexpected, hsilent⟩ := mem_missing.1 hid
  rw [hdeclared] at hexpected
  by_cases hmissing : id ∈ registry.missing
  · exact hsupplied id hmissing hsilent
  · rw [hkept id hmissing] at hsilent
    exact hmissing (mem_missing.2 ⟨hexpected, hsilent⟩)

end Registry

/-! ## Refusals of a barrier -/

namespace Barrier

variable {barrier : Barrier} {tick : Tick} {missing : List SourceId}

theorem publish_value_snd_of_not_publishing (h : barrier.phase ≠ .publishing) (id : SourceId)
    (value : Bool) : (barrier.publish id value).value.2 = barrier := by
  cases hphase : barrier.phase with
  | idle => rw [publish_of_idle hphase]; rfl
  | publishing => exact absurd hphase h
  | deciding sealed => rw [publish_of_deciding hphase]; rfl

theorem sealTick_value_snd_of_not_publishing (h : barrier.phase ≠ .publishing) :
    barrier.sealTick.value.2 = barrier := by
  cases hphase : barrier.phase with
  | idle => rw [sealTick_of_idle hphase]; rfl
  | publishing => exact absurd hphase h
  | deciding sealed => rw [sealTick_of_deciding hphase]; rfl

/-- A seal fails for missing sources only while the tick is open, and leaves it open. -/
theorem of_sealTick_incomplete
    (h : barrier.sealTick.value.1 = .error (.incompleteSnapshot tick missing)) :
    barrier.phase = .publishing ∧ barrier.currentTick = some tick ∧
      missing = barrier.registry.missing ∧ barrier.sealTick.value.2 = barrier := by
  cases hphase : barrier.phase with
  | idle => simp [sealTick_of_idle hphase] at h
  | deciding sealed => simp [sealTick_of_deciding hphase] at h
  | publishing =>
      cases htick : barrier.currentTick with
      | none => simp [sealTick, hphase, htick] at h
      | some current =>
          by_cases hmissing : barrier.registry.missing = []
          · simp [sealTick_of_complete hphase htick hmissing] at h
          · rw [sealTick_of_missing hphase htick hmissing] at h ⊢
            obtain ⟨rfl, rfl⟩ := Fault.incompleteSnapshot.inj (Except.error.inj h)
            exact ⟨rfl, rfl, rfl, rfl⟩

/-- A tick that lacks the values of some sources takes a value from each of them, in any order, and
can then be sealed: the snapshot holds the values from before and these. -/
theorem sealTick_of_supplied
    (h : barrier.sealTick.value.1 = .error (.incompleteSnapshot tick missing))
    {publishes : List (SourceId × Bool)} (hsources : (sourcesOf publishes).Perm missing) :
    ∃ after snapshot,
      (Board.publishEach publishes barrier 0).value = (.ok (), after, publishes.length) ∧
      after.sealTick.value = (.ok snapshot, { after with phase := .deciding snapshot }) ∧
      snapshot.tick = some tick ∧
      (∀ publish ∈ publishes, snapshot.read publish.1 = some publish.2) ∧
      ∀ id ∉ missing, snapshot.read id = barrier.registry.snapshot.read id := by
  obtain ⟨hphase, htick, rfl, -⟩ := of_sealTick_incomplete h
  have hnodup : (sourcesOf publishes).Nodup := by
    rw [hsources.nodup_iff]
    exact barrier.registry.declared.keys_nodup.filter _
  have hsilent : ∀ id ∈ sourcesOf publishes, barrier.registry.read id = none := by
    intro id hid
    exact (Registry.mem_missing.1 (hsources.mem_iff.1 hid)).2
  obtain ⟨after, heach, hafter, hdeclared, hvalues, hothers⟩ :=
    Registry.publishEach_value_of_silent htick hnodup hsilent 0
  have hkept : ∀ id ∉ barrier.registry.missing, after.read id = barrier.registry.read id := by
    intro id hid
    exact hothers id (mt hsources.mem_iff.1 hid)
  have hsupplied : ∀ id ∈ barrier.registry.missing, after.read id ≠ none := by
    intro id hid
    obtain ⟨publish, hmem, rfl⟩ := List.mem_map.1 (hsources.mem_iff.2 hid)
    rw [hvalues publish hmem]
    exact Option.some_ne_none _
  have hcomplete : after.missing = [] :=
    Registry.missing_eq_nil_of_supplied hdeclared hsupplied hkept
  have hbarrier : barrier = ⟨barrier.registry, .publishing⟩ := by rw [← hphase]
  have hopen := publishEach_value_of_publishing heach
  rw [← hbarrier, Nat.zero_add] at hopen
  refine ⟨⟨after, .publishing⟩, after.snapshot, hopen, ?_, hafter, hvalues, hkept⟩
  rcases sealTick_value_of_open hafter with ⟨-, hseal⟩ | ⟨hmissing, -⟩
  · exact hseal
  · exact absurd hcomplete hmissing

/-! ## What is left after a refusal -/

/-- In any state of a registry and of a barrier.  A publish that fails for want of a tick leaves the
registry as it was, and a rejected repeat is only counted.  A barrier is left as it was, with its
phase, its snapshots, its expected sources and its counts, by every publish and every seal outside
the publishing phase, by a seal that fails for missing sources, and by every reader.  Where a seal
fails so, the missing sources are accepted in any order and with any values, and the next seal hands
out the values from before and these. -/
theorem refusals_leave_state (registry : Registry) (barrier : Barrier) :
    (∀ id value next, (registry.publish id value).value = (.error .noActiveTick, next) →
      next = registry) ∧
    (∀ id value source tick next,
      (registry.publish id value).value = (.error (.duplicatePublish source tick), next) →
      next =
        { registry with
          counts :=
            { registry.counts with
              duplicates := .ofOccurrences (registry.counts.duplicates.toNat + 1) } }) ∧
    (barrier.phase ≠ .publishing →
      (∀ id value, (barrier.publish id value).value.2 = barrier) ∧
      barrier.sealTick.value.2 = barrier) ∧
    (barrier.perform .snapshot).2 = barrier ∧
    ∀ tick missing, barrier.sealTick.value.1 = .error (.incompleteSnapshot tick missing) →
      barrier.sealTick.value.2 = barrier ∧
      ∀ publishes : List (SourceId × Bool), (sourcesOf publishes).Perm missing →
        ∃ after snapshot,
          (Board.publishEach publishes barrier 0).value = (.ok (), after, publishes.length) ∧
          after.sealTick.value = (.ok snapshot, { after with phase := .deciding snapshot }) ∧
          snapshot.tick = some tick ∧
          (∀ publish ∈ publishes, snapshot.read publish.1 = some publish.2) ∧
          ∀ id ∉ missing, snapshot.read id = barrier.registry.snapshot.read id := by
  refine ⟨?_, ?_, ?_, rfl, ?_⟩
  · intro id value next h
    have hleft := Registry.publish_value_snd_of_noActiveTick (congrArg Prod.fst h)
    rwa [h] at hleft
  · intro id value source tick next h
    have hleft := Registry.publish_value_snd_of_duplicatePublish (congrArg Prod.fst h)
    rwa [h] at hleft
  · intro hphase
    exact ⟨publish_value_snd_of_not_publishing hphase, sealTick_value_snd_of_not_publishing hphase⟩
  · intro tick missing h
    obtain ⟨-, -, -, hsame⟩ := of_sealTick_incomplete h
    exact ⟨hsame, fun publishes hsources => sealTick_of_supplied h hsources⟩

/-- A barrier before its first tick, and one in a tick that lacks two of three values. -/
theorem refusals_leave_state_of_two_missing :
    let idle := Barrier.new .reject
    let opened := Session.final perform idle
      [.declare "a", .declare "b", .declare "c", .beginTick 3, .publish "b" true]
    let repeated := (opened.registry.publish "b" false).value
    let publishes := [("c", false), ("a", true)]
    (idle.registry.publish "b" true).value.1 = .error .noActiveTick ∧
    (idle.registry.publish "b" true).value.2 = idle.registry ∧
    idle.phase ≠ .publishing ∧ (idle.publish "b" true).value.2 = idle ∧
    repeated.1 = .error (.duplicatePublish "b" 3) ∧
    repeated.2.counts = { ticks := 1, publishes := 1, duplicates := 1 } ∧
    opened.sealTick.value.1 = .error (.incompleteSnapshot 3 ["a", "c"]) ∧
    (sourcesOf publishes).Perm ["a", "c"] ∧
    ∃ after snapshot,
      (Board.publishEach publishes opened 0).value = (.ok (), after, 2) ∧
      after.sealTick.value.1 = .ok snapshot ∧ snapshot.read "a" = some true ∧
      snapshot.read "b" = some true := by
  intro idle opened repeated publishes
  have hphase : idle.phase ≠ .publishing := nofun
  have hseal : opened.sealTick.value.1 = .error (.incompleteSnapshot 3 ["a", "c"]) := rfl
  have hperm : (sourcesOf publishes).Perm ["a", "c"] := List.Perm.swap "a" "c" []
  obtain ⟨hearly, -, hclosed, -, -⟩ := refusals_leave_state idle.registry idle
  obtain ⟨-, hrepeat, -, -, hmissing⟩ := refusals_leave_state opened.registry opened
  obtain ⟨after, snapshot, heach, hsealed, -, hvalues, hothers⟩ :=
    (hmissing 3 ["a", "c"] hseal).2 publishes hperm
  have hsame := hearly "b" true idle.registry rfl
  have hcounts := congrArg Registry.counts (hrepeat "b" false "b" 3 repeated.2 rfl)
  refine ⟨rfl, hsame, hphase, (hclosed hphase).1 "b" true, rfl, hcounts, hseal, hperm, after,
    snapshot, heach, congrArg Prod.fst hsealed, hvalues ("a", true) (by decide), ?_⟩
  exact hothers "b" (by decide)

end Barrier
end TickGate
