import TickGate.Barrier
import TickGate.Proofs.Registry.Tracking
import TickGate.Proofs.Session

/-!
# Agreement over a sealed tick

Every operation of a barrier is one atomic step, so whatever any number of threads call on it is
performed as one session.  `Explains` says how the log of the session accounts for the phase of
the barrier: since the tick began last there was no seal, and the registry tracks the publishes
accepted so far; or there was one, and the snapshot that it handed out has stayed what every
later caller gets.  `snapshots_agree` is what this means for the callers.
-/

namespace TickGate
namespace Barrier

/-- A call of a barrier. -/
inductive Call where
  | declare (id : SourceId)
  | beginTick (tick : Tick)
  | publish (id : SourceId) (value : Bool)
  | sealTick
  | snapshot
  deriving DecidableEq, Repr

/-- The answer to a call. -/
inductive Answer where
  | declared (isNew : Bool)
  | begun
  | published (result : Except Fault Unit)
  | snapshot (result : Except Fault Snapshot)

/-- Performs one call. -/
def perform (barrier : Barrier) : Call → Answer × Barrier
  | .declare id => (.declared (barrier.declare id).1, (barrier.declare id).2)
  | .beginTick tick => (.begun, (barrier.beginTick tick).value)
  | .publish id value =>
    (.published (barrier.publish id value).value.1, (barrier.publish id value).value.2)
  | .sealTick => (.snapshot barrier.sealTick.value.1, barrier.sealTick.value.2)
  | .snapshot => (.snapshot barrier.snapshot, barrier)

/-- A call with its answer. -/
abbrev Entry := Call × Answer

namespace Entry

/-- The tick that a call began. -/
def begun? : Entry → Option Tick
  | (.beginTick tick, _) => some tick
  | _ => none

/-- What a call published, if it was accepted. -/
def accepted? : Entry → Option (SourceId × Bool)
  | (.publish id value, .published (.ok ())) => some (id, value)
  | _ => none

/-- The snapshot that a call handed out. -/
def handedOut? : Entry → Option Snapshot
  | (_, .snapshot (.ok snapshot)) => some snapshot
  | _ => none

/-- The call sealed the tick, or found it sealed. -/
def IsSeal (entry : Entry) : Prop := entry.1 = .sealTick ∧ (handedOut? entry).isSome

end Entry

/-- The publishes that were accepted, the earliest first. -/
def accepted (log : List Entry) : List (SourceId × Bool) := log.filterMap Entry.accepted?

theorem accepted_concat (log : List Entry) (entry : Entry) :
    accepted (log ++ [entry]) = accepted log ++ (Entry.accepted? entry).toList := by
  cases h : Entry.accepted? entry <;> simp [accepted, h]

/-! ## How a log accounts for a phase -/

/-- How a log has brought a barrier into its phase. -/
inductive Explains (rule : DuplicateRule) (log : List Entry) (barrier : Barrier) : Prop where
  /-- No tick has begun. -/
  | idle
      (tracks : Registry.Tracks rule none [] barrier.registry)
      (phase : barrier.phase = .idle)
      (unbegun : ∀ entry ∈ log, Entry.begun? entry = none)
      (unsealed : ∀ entry ∈ log, Entry.handedOut? entry = none)
  /-- No snapshot was handed out since the tick began last. -/
  | publishing (earlier : List Entry) (tick : Tick) (opened : List Entry)
      (tracks : Registry.Tracks rule (some tick) (accepted opened) barrier.registry)
      (phase : barrier.phase = .publishing)
      (split : log = earlier ++ (.beginTick tick, .begun) :: opened)
      (unbegun : ∀ entry ∈ opened, Entry.begun? entry = none)
      (unsealed : ∀ entry ∈ opened, Entry.handedOut? entry = none)
  /-- The tick begun last was sealed, and nothing was accepted since. -/
  | deciding (earlier : List Entry) (tick : Tick) (opened : List Entry)
      (sealing : Entry) (closed : List Entry)
      (tracks : Registry.Tracks rule (some tick) (accepted opened) barrier.registry)
      (phase : barrier.phase = .deciding barrier.registry.snapshot)
      (split : log = earlier ++ (.beginTick tick, .begun) :: (opened ++ sealing :: closed))
      (unbegun : ∀ entry ∈ opened ++ sealing :: closed, Entry.begun? entry = none)
      (unsealed : ∀ entry ∈ opened, Entry.handedOut? entry = none)
      (sealing_eq : sealing = (.sealTick, .snapshot (.ok barrier.registry.snapshot)))
      (handedOut : ∀ entry ∈ closed, ∀ snapshot, Entry.handedOut? entry = some snapshot →
        snapshot = barrier.registry.snapshot)
      (refused : ∀ entry ∈ closed, Entry.accepted? entry = none)

/-! ## One call in each phase -/

/-- While a tick is sealed, a call that begins none hands out nothing but its snapshot, is not
accepted as a publish and leaves the seal as it is. -/
theorem perform_of_deciding {barrier : Barrier} {sealed : Snapshot}
    (hphase : barrier.phase = .deciding sealed) {call : Call}
    (hcall : Entry.begun? (call, (barrier.perform call).1) = none) :
    (barrier.perform call).2.phase = .deciding sealed ∧
    (barrier.perform call).2.registry.snapshot = barrier.registry.snapshot ∧
    (barrier.perform call).2.registry.duplicateRule = barrier.registry.duplicateRule ∧
    Entry.accepted? (call, (barrier.perform call).1) = none ∧
    ∀ snapshot, Entry.handedOut? (call, (barrier.perform call).1) = some snapshot →
      snapshot = sealed := by
  cases call with
  | declare id => exact ⟨hphase, rfl, rfl, rfl, fun _ hnone => nomatch hnone⟩
  | beginTick tick => exact nomatch hcall
  | publish id value =>
      rw [perform, publish_of_deciding hphase]
      exact ⟨hphase, rfl, rfl, rfl, fun _ hnone => nomatch hnone⟩
  | sealTick =>
      rw [perform, sealTick_of_deciding hphase]
      exact ⟨hphase, rfl, rfl, rfl, fun _ hsome => (Option.some.inj hsome).symm⟩
  | snapshot =>
      have hsnapshot : barrier.snapshot = .ok sealed := by simp [Barrier.snapshot, hphase]
      rw [perform, hsnapshot]
      exact ⟨hphase, rfl, rfl, rfl, fun _ hsome => (Option.some.inj hsome).symm⟩

/-- Before the first tick, a call that begins none hands out nothing and stores nothing. -/
theorem perform_of_idle {rule : DuplicateRule} {barrier : Barrier}
    (htracks : Registry.Tracks rule none [] barrier.registry) (hphase : barrier.phase = .idle)
    {call : Call} (hcall : Entry.begun? (call, (barrier.perform call).1) = none) :
    Registry.Tracks rule none [] (barrier.perform call).2.registry ∧
    (barrier.perform call).2.phase = .idle ∧
    Entry.handedOut? (call, (barrier.perform call).1) = none := by
  cases call with
  | declare id => exact ⟨htracks.declare id, hphase, rfl⟩
  | beginTick tick => exact nomatch hcall
  | publish id value =>
      rw [perform, publish_of_idle hphase]
      exact ⟨htracks, hphase, rfl⟩
  | sealTick =>
      rw [perform, sealTick_of_idle hphase]
      exact ⟨htracks, hphase, rfl⟩
  | snapshot =>
      have hsnapshot : barrier.snapshot = .error .noActiveTick := by
        simp [Barrier.snapshot, hphase]
      rw [perform, hsnapshot]
      exact ⟨htracks, hphase, rfl⟩

/-- While a tick is open, a publish is accepted exactly where the registry stores it. -/
theorem tracks_publish_of_publishing {rule : DuplicateRule} {barrier : Barrier} {tick : Tick}
    {opened : List Entry}
    (htracks : Registry.Tracks rule (some tick) (accepted opened) barrier.registry)
    (hphase : barrier.phase = .publishing) (id : SourceId) (value : Bool) :
    Registry.Tracks rule (some tick)
      (accepted (opened ++ [(.publish id value, (barrier.perform (.publish id value)).1)]))
      (barrier.perform (.publish id value)).2.registry := by
  rw [accepted_concat, perform, publish_value_of_publishing hphase]
  rcases htracks.publish id value with ⟨hnone, -⟩ | ⟨_, _, _, _, hvalue⟩ |
      ⟨_, next, _, _, hvalue, hnext⟩
  · exact absurd hnone (Option.some_ne_none tick)
  · rw [hvalue]
    simpa [Entry.accepted?] using htracks.countDuplicate
  · rw [hvalue]
    exact hnext

/-- While a tick is open, a call that begins none leaves it open and hands out nothing, or it is
the seal. -/
theorem perform_of_publishing {rule : DuplicateRule} {barrier : Barrier} {tick : Tick}
    {opened : List Entry}
    (htracks : Registry.Tracks rule (some tick) (accepted opened) barrier.registry)
    (hphase : barrier.phase = .publishing) {call : Call}
    (hcall : Entry.begun? (call, (barrier.perform call).1) = none) :
    ((barrier.perform call).2.phase = .publishing ∧
      Registry.Tracks rule (some tick) (accepted (opened ++ [(call, (barrier.perform call).1)]))
        (barrier.perform call).2.registry ∧
      Entry.handedOut? (call, (barrier.perform call).1) = none) ∨
    ((barrier.perform call).2 =
        { barrier with phase := .deciding barrier.registry.snapshot } ∧
      call = .sealTick ∧
      (barrier.perform call).1 = .snapshot (.ok barrier.registry.snapshot)) := by
  -- What a call other than a publish answers is no accepted publish.
  have hkeep : ∀ registry, Registry.Tracks rule (some tick) (accepted opened) registry →
      Entry.accepted? (call, (barrier.perform call).1) = none →
      Registry.Tracks rule (some tick) (accepted (opened ++ [(call, (barrier.perform call).1)]))
        registry := by
    intro registry hregistry hnone
    rw [accepted_concat, hnone]
    simpa using hregistry
  cases call with
  | declare id => exact .inl ⟨hphase, hkeep _ (htracks.declare id) rfl, rfl⟩
  | beginTick start => exact nomatch hcall
  | publish id value =>
      refine .inl ⟨?_, tracks_publish_of_publishing htracks hphase id value, rfl⟩
      rw [perform, publish_value_of_publishing hphase]
      exact hphase
  | sealTick =>
      by_cases hmissing : barrier.registry.missing = []
      · right
        rw [perform, sealTick_of_complete hphase htracks.currentTick hmissing]
        exact ⟨rfl, rfl, rfl⟩
      · left
        rw [perform, sealTick_of_missing hphase htracks.currentTick hmissing] at hkeep ⊢
        exact ⟨hphase, hkeep _ htracks rfl, rfl⟩
  | snapshot =>
      have htick : barrier.currentTick = some tick := htracks.currentTick
      have hsnapshot : barrier.snapshot = .error (.readBeforeSeal tick) := by
        simp [Barrier.snapshot, hphase, faultAt_of_currentTick htick]
      left
      rw [perform, hsnapshot] at hkeep ⊢
      exact ⟨hphase, hkeep _ htracks rfl, rfl⟩

/-! ## The invariant -/

namespace Explains

variable {rule : DuplicateRule} {log : List Entry} {barrier : Barrier}

theorem duplicateRule (h : Explains rule log barrier) :
    barrier.registry.duplicateRule = rule := by
  cases h with
  | idle tracks => exact tracks.duplicateRule
  | publishing _ _ _ tracks => exact tracks.duplicateRule
  | deciding _ _ _ _ _ tracks => exact tracks.duplicateRule

theorem beginTick (h : Explains rule log barrier) (tick : Tick) :
    Explains rule (log ++ [(.beginTick tick, .begun)]) (barrier.beginTick tick).value := by
  have htracks := Registry.Tracks.beginTick h.duplicateRule tick
  exact .publishing log tick [] htracks rfl rfl (by simp) (by simp)

section Concat

variable {call : Call} (hcall : Entry.begun? (call, (barrier.perform call).1) = none)

include hcall

theorem concat_of_idle (tracks : Registry.Tracks rule none [] barrier.registry)
    (phase : barrier.phase = .idle) (unbegun : ∀ entry ∈ log, Entry.begun? entry = none)
    (unsealed : ∀ entry ∈ log, Entry.handedOut? entry = none) :
    Explains rule (log ++ [(call, (barrier.perform call).1)]) (barrier.perform call).2 := by
  obtain ⟨htracks, hphase, hnone⟩ := perform_of_idle tracks phase hcall
  apply Explains.idle htracks hphase
  · exact List.forall_mem_append.2 ⟨unbegun, List.forall_mem_singleton.2 hcall⟩
  · exact List.forall_mem_append.2 ⟨unsealed, List.forall_mem_singleton.2 hnone⟩

theorem concat_of_publishing {earlier : List Entry} {tick : Tick} {opened : List Entry}
    (tracks : Registry.Tracks rule (some tick) (accepted opened) barrier.registry)
    (phase : barrier.phase = .publishing)
    (split : log = earlier ++ (.beginTick tick, .begun) :: opened)
    (unbegun : ∀ entry ∈ opened, Entry.begun? entry = none)
    (unsealed : ∀ entry ∈ opened, Entry.handedOut? entry = none) :
    Explains rule (log ++ [(call, (barrier.perform call).1)]) (barrier.perform call).2 := by
  have hbegun : ∀ entry ∈ opened ++ [(call, (barrier.perform call).1)],
      Entry.begun? entry = none :=
    List.forall_mem_append.2 ⟨unbegun, List.forall_mem_singleton.2 hcall⟩
  have hsplit : log ++ [(call, (barrier.perform call).1)] =
      earlier ++ (.beginTick tick, .begun) :: (opened ++ [(call, (barrier.perform call).1)]) := by
    rw [split, List.append_assoc, List.cons_append]
  rcases perform_of_publishing tracks phase hcall with
    ⟨hphase, htracks, hnone⟩ | ⟨hnext, hcallEq, hanswer⟩
  · apply Explains.publishing earlier tick _ htracks hphase hsplit hbegun
    exact List.forall_mem_append.2 ⟨unsealed, List.forall_mem_singleton.2 hnone⟩
  · rw [hnext]
    refine Explains.deciding earlier tick opened _ [] tracks rfl hsplit hbegun unsealed ?_ ?_ ?_
    · rw [hcallEq] at hanswer ⊢
      rw [hanswer]
    · intro entry hmem
      exact absurd hmem List.not_mem_nil
    · intro entry hmem
      exact absurd hmem List.not_mem_nil

theorem concat_of_deciding {earlier : List Entry} {tick : Tick} {opened : List Entry}
    {sealing : Entry} {closed : List Entry}
    (tracks : Registry.Tracks rule (some tick) (accepted opened) barrier.registry)
    (phase : barrier.phase = .deciding barrier.registry.snapshot)
    (split : log = earlier ++ (.beginTick tick, .begun) :: (opened ++ sealing :: closed))
    (unbegun : ∀ entry ∈ opened ++ sealing :: closed, Entry.begun? entry = none)
    (unsealed : ∀ entry ∈ opened, Entry.handedOut? entry = none)
    (sealing_eq : sealing = (.sealTick, .snapshot (.ok barrier.registry.snapshot)))
    (handedOut : ∀ entry ∈ closed, ∀ snapshot, Entry.handedOut? entry = some snapshot →
      snapshot = barrier.registry.snapshot)
    (refused : ∀ entry ∈ closed, Entry.accepted? entry = none) :
    Explains rule (log ++ [(call, (barrier.perform call).1)]) (barrier.perform call).2 := by
  obtain ⟨hphase, hsnapshot, hrule, hnone, hsame⟩ := perform_of_deciding phase hcall
  have htracks : Registry.Tracks rule (some tick) (accepted opened)
      (barrier.perform call).2.registry := tracks.congr hrule hsnapshot
  rw [← hsnapshot] at hphase sealing_eq handedOut hsame
  apply Explains.deciding earlier tick opened sealing
    (closed ++ [(call, (barrier.perform call).1)]) htracks hphase _ _ unsealed sealing_eq
  · exact List.forall_mem_append.2 ⟨handedOut, List.forall_mem_singleton.2 hsame⟩
  · exact List.forall_mem_append.2 ⟨refused, List.forall_mem_singleton.2 hnone⟩
  · rw [split]
    simp only [List.append_assoc, List.cons_append]
  · have hbegun := List.forall_mem_append.2 ⟨unbegun, List.forall_mem_singleton.2 hcall⟩
    simpa only [List.append_assoc, List.cons_append] using hbegun

end Concat

/-- Every call extends the log to one that accounts for the phase it leads to. -/
theorem concat (h : Explains rule log barrier) (call : Call) :
    Explains rule (log ++ [(call, (barrier.perform call).1)]) (barrier.perform call).2 := by
  cases hcall : Entry.begun? (call, (barrier.perform call).1) with
  | some tick =>
      cases call with
      | beginTick start => exact h.beginTick start
      | _ => exact nomatch hcall
  | none =>
      cases h with
      | idle tracks phase unbegun unsealed =>
          exact concat_of_idle hcall tracks phase unbegun unsealed
      | publishing _ _ _ tracks phase split unbegun unsealed =>
          exact concat_of_publishing hcall tracks phase split unbegun unsealed
      | deciding _ _ _ _ _ tracks phase split unbegun unsealed sealing_eq handedOut refused =>
          exact concat_of_deciding hcall tracks phase split unbegun unsealed sealing_eq handedOut
            refused

end Explains

/-- The log of any session of a new barrier accounts for the phase that the session reaches. -/
theorem explains_session (rule : DuplicateRule) (calls : List Call) :
    Explains rule (Session.log perform (Barrier.new rule) calls)
      (Session.final perform (Barrier.new rule) calls) := by
  induction calls using List.reverseRecOn with
  | nil =>
      have hempty : ∀ entry ∈ ([] : List Entry), Entry.begun? entry = none := by simp
      exact .idle (Registry.Tracks.of_new rule) rfl hempty (by simp [Session.log])
  | append_singleton calls call ih =>
      rw [Session.final_concat, Session.log_concat]
      exact ih.concat call

/-! ## What the callers get -/

/-- The entries up to the next beginning of a tick. -/
def untilBegun (log : List Entry) : List Entry :=
  log.takeWhile fun entry => (Entry.begun? entry).isNone

/-- Until the next tick begins, whatever is handed out is the sealed snapshot, and no publish is
accepted. -/
theorem untilBegun_of_deciding {barrier : Barrier} {sealed : Snapshot}
    (hphase : barrier.phase = .deciding sealed) (calls : List Call) :
    ∀ entry ∈ untilBegun (Session.log perform barrier calls),
      Entry.accepted? entry = none ∧
      ∀ snapshot, Entry.handedOut? entry = some snapshot → snapshot = sealed := by
  induction calls generalizing barrier with
  | nil => simp [untilBegun, Session.log]
  | cons call calls ih =>
      rw [Session.log, untilBegun, List.takeWhile_cons]
      cases hcall : Entry.begun? (call, (barrier.perform call).1) with
      | some tick => simp
      | none =>
          obtain ⟨hnext, -, -, hrefused, hsame⟩ := perform_of_deciding hphase hcall
          rw [Option.isNone_none, if_pos rfl, List.forall_mem_cons]
          exact ⟨⟨hrefused, hsame⟩, ih hnext⟩

theorem mem_of_concat_eq_append_cons {front back before : List Entry} {last middle : Entry}
    (h : front ++ [last] = before ++ middle :: back) : last ∈ middle :: back := by
  have hlast : (middle :: back).getLast? = some last := by
    have hboth := congrArg List.getLast? h
    rw [List.getLast?_concat, List.getLast?_append, List.getLast?_cons] at hboth
    rw [List.getLast?_cons]
    exact hboth.symm
  exact List.mem_of_getLast? hlast

/-- A log that ends with a snapshot handed out accounts for a sealed tick with this snapshot. -/
theorem Explains.deciding_of_handedOut {rule : DuplicateRule} {before : List Entry}
    {entry : Entry} {barrier : Barrier} {snapshot : Snapshot}
    (h : Explains rule (before ++ [entry]) barrier)
    (hentry : Entry.handedOut? entry = some snapshot) :
    barrier.phase = .deciding snapshot ∧
    ∃ tick opened sealing closed,
      lastMarked? Entry.begun? (before ++ [entry]) = some (tick, opened ++ sealing :: closed) ∧
      Entry.IsSeal sealing ∧ (∀ other ∈ opened, ¬Entry.IsSeal other) ∧
      Registry.Tracks rule (some tick) (accepted opened) barrier.registry ∧
      barrier.registry.snapshot = snapshot ∧
      (∀ other ∈ sealing :: closed, ∀ handed,
        Entry.handedOut? other = some handed → handed = snapshot) ∧
      ∀ other ∈ closed, Entry.accepted? other = none := by
  cases h with
  | idle _ _ _ unsealed =>
      have hnone := unsealed entry List.mem_concat_self
      exact nomatch hnone.symm.trans hentry
  | publishing earlier tick opened _ _ split _ unsealed =>
      have hnone : Entry.handedOut? entry = none := by
        rcases List.mem_cons.1 (mem_of_concat_eq_append_cons split) with hbegin | hmem
        · rw [hbegin]
          rfl
        · exact unsealed entry hmem
      exact nomatch hnone.symm.trans hentry
  | deciding earlier tick opened sealing closed tracks phase split unbegun unsealed sealing_eq
      handedOut refused =>
      have hsealing : Entry.handedOut? sealing = some barrier.registry.snapshot := by
        rw [sealing_eq]
        rfl
      have hclosed : ∀ other ∈ sealing :: closed, ∀ handed,
          Entry.handedOut? other = some handed → handed = barrier.registry.snapshot := by
        refine List.forall_mem_cons.2 ⟨fun handed hhanded => ?_, handedOut⟩
        exact Option.some.inj (hhanded.symm.trans hsealing)
      have hsplit : before ++ [entry] =
          (earlier ++ (.beginTick tick, .begun) :: opened) ++ sealing :: closed := by
        rw [split, List.append_assoc, List.cons_append]
      have hsnapshot : snapshot = barrier.registry.snapshot :=
        hclosed entry (mem_of_concat_eq_append_cons hsplit) snapshot hentry
      have hmarked := (lastMarked?_eq_some_iff Entry.begun?).2 ⟨earlier, _, split, rfl, unbegun⟩
      subst hsnapshot
      refine ⟨phase, tick, opened, sealing, closed, hmarked, ⟨?_, ?_⟩, ?_, tracks, rfl, hclosed,
        refused⟩
      · rw [sealing_eq]
      · rw [hsealing]
        rfl
      · intro other hmem hseal
        have hsome := hseal.2
        rw [unsealed other hmem] at hsome
        exact nomatch hsome

/-- Whatever snapshot a call hands out, in any session of a new barrier: the tick begun last
before the call was sealed, by the call itself or before it.  The snapshot carries that tick and
holds exactly what was accepted between the beginning of the tick and its first seal, repeats
being resolved by the rule.  From that seal until the next tick begins, every snapshot handed out
is the same and no publish is accepted. -/
theorem snapshots_agree (rule : DuplicateRule) (calls : List Call) (before after : List Entry)
    (entry : Entry) (snapshot : Snapshot)
    (hlog : Session.log perform (Barrier.new rule) calls = before ++ entry :: after)
    (hentry : Entry.handedOut? entry = some snapshot) :
    ∃ tick opened sealing closed,
      lastMarked? Entry.begun? (before ++ [entry]) = some (tick, opened ++ sealing :: closed) ∧
      Entry.IsSeal sealing ∧ (∀ other ∈ opened, ¬Entry.IsSeal other) ∧
      snapshot.tick = some tick ∧
      (∀ id, snapshot.read id = rule.kept (accepted opened) id) ∧
      (∀ id, (snapshot.read id).isSome ↔ id ∈ sourcesOf (accepted opened)) ∧
      (∀ other ∈ sealing :: (closed ++ untilBegun after), ∀ handed,
        Entry.handedOut? other = some handed → handed = snapshot) ∧
      ∀ other ∈ closed ++ untilBegun after, Entry.accepted? other = none := by
  obtain ⟨front, call, back, -, hbefore, hcall, hafter⟩ :=
    Session.exists_calls_of_log_eq_append_cons perform hlog
  have hexplains := explains_session rule (front ++ [call])
  rw [Session.log_concat, ← hbefore, ← hcall] at hexplains
  obtain ⟨hphase, tick, opened, sealing, closed, hsince, hseal, hfirst, htracks, hsnapshot,
    hclosed, hrefused⟩ := hexplains.deciding_of_handedOut hentry
  have hlater := untilBegun_of_deciding hphase back
  rw [← hafter] at hlater
  subst hsnapshot
  refine ⟨tick, opened, sealing, closed, hsince, hseal, hfirst, htracks.currentTick,
    htracks.read, fun id => htracks.read_isSome_iff, ?_, ?_⟩
  · rw [← List.cons_append]
    apply List.forall_mem_append.2 ⟨hclosed, _⟩
    intro other hmem
    exact (hlater other hmem).2
  · apply List.forall_mem_append.2 ⟨hrefused, _⟩
    intro other hmem
    exact (hlater other hmem).1

/-- A tick that was begun again and sealed, and in which a source was declared and refused after
the seal. -/
theorem snapshots_agree_after_late_publish :
    let calls : List Call :=
      [.declare "a", .beginTick 3, .publish "b" true, .beginTick 3, .publish "a" true,
        .publish "a" false, .sealTick, .declare "b", .publish "b" true, .snapshot, .beginTick 4]
    let log := Session.log perform (Barrier.new .lastWriteWins) calls
    ∃ entry snapshot tick opened sealing closed,
      log = log.take 9 ++ entry :: log.drop 10 ∧ Entry.handedOut? entry = some snapshot ∧
      lastMarked? Entry.begun? (log.take 9 ++ [entry]) = some (tick, opened ++ sealing :: closed) ∧
      snapshot.tick = some tick ∧
      ∀ id, snapshot.read id = DuplicateRule.lastWriteWins.kept (accepted opened) id := by
  intro calls log
  let snapshot : Snapshot := (Snapshot.ofTick 3).insert "a" false
  let entry : Entry := (.snapshot, .snapshot (.ok snapshot))
  have hlog : log = log.take 9 ++ entry :: log.drop 10 := rfl
  have hentry : Entry.handedOut? entry = some snapshot := rfl
  obtain ⟨tick, opened, sealing, closed, hsince, -, -, htick, hread, -⟩ :=
    snapshots_agree .lastWriteWins calls (log.take 9) (log.drop 10) entry snapshot hlog hentry
  exact ⟨entry, snapshot, tick, opened, sealing, closed, hlog, hentry, hsince, htick, hread⟩

end Barrier
end TickGate
