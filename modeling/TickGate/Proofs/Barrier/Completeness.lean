import TickGate.Proofs.Barrier.Agreement

/-!
# For which sources a sealed snapshot has a value

A tick is sealed only if no expected source is silent, and the snapshot that readers get is the one
that was sealed.  Sources may be declared at any time, however, also while a tick is sealed: such a
source is expected from the next tick on, and the snapshot of this one may lack its value.
`unread_after_late_declaration` is the smallest case; `sealed_snapshot_complete` says that there is
no other.
-/

namespace TickGate

namespace Barrier

/-! ## One call -/

variable {barrier : Barrier} {call : Call}

/-- A publish changes at most the registry, and expects nothing new. -/
theorem publish_value_snd (barrier : Barrier) (id : SourceId) (value : Bool) :
    ∃ registry, (barrier.publish id value).value.2 = { barrier with registry } ∧
      registry.declared = barrier.registry.declared := by
  cases hphase : barrier.phase with
  | idle =>
      rw [publish_of_idle hphase]
      exact ⟨barrier.registry, by rw [← hphase]; rfl, rfl⟩
  | publishing =>
      rw [publish_value_of_publishing hphase]
      exact ⟨_, by rw [hphase], Registry.publish_declared⟩
  | deciding sealed =>
      rw [publish_of_deciding hphase]
      exact ⟨barrier.registry, by rw [← hphase]; rfl, rfl⟩

/-- A seal ends the publishing of a complete tick, hands out the snapshot of a sealed one, or fails
and changes nothing. -/
theorem sealTick_value_cases (barrier : Barrier) :
    (barrier.phase = .publishing ∧ barrier.registry.missing = [] ∧
      barrier.sealTick.value =
        (.ok barrier.registry.snapshot,
          { barrier with phase := .deciding barrier.registry.snapshot })) ∨
    (∃ sealed, barrier.phase = .deciding sealed ∧ barrier.sealTick.value = (.ok sealed, barrier)) ∨
    ∃ fault, barrier.sealTick.value = (.error fault, barrier) := by
  cases hphase : barrier.phase with
  | idle =>
      right
      right
      exact ⟨_, by rw [sealTick_of_idle hphase]; rfl⟩
  | deciding sealed =>
      right
      left
      exact ⟨sealed, rfl, by rw [sealTick_of_deciding hphase]; rfl⟩
  | publishing =>
      cases htick : barrier.currentTick with
      | none =>
          right
          right
          exact ⟨.noActiveTick, by simp [sealTick, hphase, htick]⟩
      | some tick =>
          by_cases hmissing : barrier.registry.missing = []
          · left
            exact ⟨rfl, hmissing, by rw [sealTick_of_complete hphase htick hmissing]⟩
          · right
            right
            exact ⟨_, by rw [sealTick_of_missing hphase htick hmissing]; rfl⟩

/-- A source is expected after a call if it was before, or the call declares it. -/
theorem mem_declared_perform {id : SourceId} :
    id ∈ (barrier.perform call).2.registry.declared.keys ↔
      call = .declare id ∨ id ∈ barrier.registry.declared.keys := by
  cases call with
  | declare other =>
      rw [perform, declare_registry, Registry.mem_declare]
      simp [eq_comm]
  | beginTick tick => simp [perform]
  | publish source value =>
      obtain ⟨registry, hpublish, hdeclared⟩ := publish_value_snd barrier source value
      simp [perform, hpublish, hdeclared]
  | sealTick =>
      rcases sealTick_value_cases barrier with ⟨-, -, hseal⟩ | ⟨sealed, -, hseal⟩ | ⟨fault, hseal⟩
      · simp [perform, hseal]
      · simp [perform, hseal]
      · simp [perform, hseal]
  | snapshot => simp [perform]

/-- A call leaves the phase as it is, begins a tick, or seals one in which nothing is missing. -/
theorem perform_phase_cases (barrier : Barrier) (call : Call) :
    ((∀ tick, call ≠ .beginTick tick) ∧ (barrier.perform call).2.phase = barrier.phase) ∨
    (∃ tick, call = .beginTick tick ∧ (barrier.perform call).2.phase = .publishing) ∨
    (call = .sealTick ∧ barrier.phase = .publishing ∧ barrier.registry.missing = [] ∧
      (barrier.perform call).1 = .snapshot (.ok barrier.registry.snapshot) ∧
      (barrier.perform call).2.phase = .deciding barrier.registry.snapshot) := by
  cases call with
  | declare id => exact .inl ⟨by simp, rfl⟩
  | beginTick tick => exact .inr (.inl ⟨tick, rfl, rfl⟩)
  | publish id value =>
      left
      obtain ⟨registry, hpublish, -⟩ := publish_value_snd barrier id value
      rw [perform, hpublish]
      exact ⟨by simp, rfl⟩
  | sealTick =>
      rcases sealTick_value_cases barrier with
        ⟨hphase, hmissing, hseal⟩ | ⟨sealed, -, hseal⟩ | ⟨fault, hseal⟩
      · right
        right
        rw [perform, hseal]
        exact ⟨rfl, hphase, hmissing, rfl, rfl⟩
      · left
        rw [perform, hseal]
        exact ⟨by simp, rfl⟩
      · left
        rw [perform, hseal]
        exact ⟨by simp, rfl⟩
  | snapshot => exact .inl ⟨by simp, rfl⟩

/-- Whatever snapshot is handed out is sealed. -/
theorem phase_of_handedOut {snapshot : Snapshot}
    (h : Entry.handedOut? (call, (barrier.perform call).1) = some snapshot) :
    (barrier.perform call).2.phase = .deciding snapshot := by
  have hsome := Option.some_ne_none snapshot
  cases call with
  | declare id => exact absurd h.symm hsome
  | beginTick tick => exact absurd h.symm hsome
  | publish id value => exact absurd h.symm hsome
  | sealTick =>
      rcases sealTick_value_cases barrier with
        ⟨-, -, hseal⟩ | ⟨sealed, hphase, hseal⟩ | ⟨fault, hseal⟩
      · rw [perform, hseal] at h ⊢
        exact congrArg Phase.deciding (Option.some.inj h)
      · rw [perform, hseal] at h ⊢
        rw [← Option.some.inj h]
        exact hphase
      · rw [perform, hseal] at h
        exact absurd h.symm hsome
  | snapshot =>
      cases hphase : barrier.phase with
      | idle => simp [perform, Barrier.snapshot, hphase, Entry.handedOut?] at h
      | publishing => simp [perform, Barrier.snapshot, hphase, Entry.handedOut?] at h
      | deciding sealed =>
          have hsnapshot : barrier.snapshot = .ok sealed := by simp [Barrier.snapshot, hphase]
          rw [perform, hsnapshot] at h
          rw [← Option.some.inj h]
          exact hphase

/-! ## Any calls -/

theorem mem_declared_final {id : SourceId} (barrier : Barrier) (calls : List Call) :
    id ∈ (Session.final perform barrier calls).registry.declared.keys ↔
      .declare id ∈ calls ∨ id ∈ barrier.registry.declared.keys := by
  induction calls generalizing barrier with
  | nil => simp
  | cons call calls ih =>
      rw [Session.final_cons, ih, mem_declared_perform, List.mem_cons]
      tauto

/-- A sealed tick was sealed by a call, when nothing was missing, and none has begun since. -/
theorem exists_seal_of_deciding (rule : DuplicateRule) {calls : List Call} {snapshot : Snapshot}
    (h : (Session.final perform (Barrier.new rule) calls).phase = .deciding snapshot) :
    ∃ opened closed, calls = opened ++ .sealTick :: closed ∧ (∀ tick, .beginTick tick ∉ closed) ∧
      let before := Session.final perform (Barrier.new rule) opened
      before.phase = .publishing ∧ before.registry.missing = [] ∧
      (before.perform .sealTick).1 = .snapshot (.ok snapshot) ∧
      before.registry.snapshot = snapshot := by
  -- From the right end: only the last call can have sealed the tick, or left it sealed.
  induction calls using List.reverseRecOn with
  | nil => exact nomatch h
  | append_singleton calls call ih =>
      rw [Session.final_concat] at h
      rcases perform_phase_cases (Session.final perform (Barrier.new rule) calls) call with
        ⟨hcall, hsame⟩ | ⟨tick, -, hbegun⟩ | ⟨rfl, hphase, hmissing, hanswer, hsealed⟩
      · rw [hsame] at h
        obtain ⟨opened, closed, rfl, hclosed, hbefore⟩ := ih h
        refine ⟨opened, closed ++ [call], by simp, ?_, hbefore⟩
        intro tick hmem
        rcases List.mem_append.1 hmem with hmem | hmem
        · exact hclosed tick hmem
        · exact hcall tick (List.mem_singleton.1 hmem).symm
      · rw [hbegun] at h
        exact nomatch h
      · rw [hsealed] at h
        obtain rfl := Phase.deciding.inj h
        exact ⟨calls, [], rfl, by simp, hphase, hmissing, hanswer, rfl⟩

/-! ## What readers get -/

/-- A source that is declared while a tick is sealed is missing from what is handed out, by another
seal as well as to a reader. -/
theorem unread_after_late_declaration :
    let calls : List Call := [.beginTick 0, .sealTick, .declare "a"]
    let barrier := Session.final perform (Barrier.new .reject) calls
    "a" ∈ barrier.registry.declared.keys ∧
    ∃ snapshot, barrier.sealTick.value.1 = .ok snapshot ∧ barrier.snapshot = .ok snapshot ∧
      snapshot.read "a" = none :=
  ⟨List.mem_cons_self, .ofTick 0, rfl, rfl, rfl⟩

/-- Whatever snapshot a call hands out, after any calls of a new barrier: it was sealed by a call
since the tick began last, and has a value for every source that was expected then.  A source that
is expected when the snapshot is handed out, and has no value in it, was declared after the seal. -/
theorem sealed_snapshot_complete (rule : DuplicateRule) (calls : List Call) (call : Call)
    (snapshot : Snapshot)
    (h : Entry.handedOut? (call,
      ((Session.final perform (Barrier.new rule) calls).perform call).1) = some snapshot) :
    ∃ opened closed, calls ++ [call] = opened ++ .sealTick :: closed ∧
      (∀ tick, .beginTick tick ∉ closed) ∧
      let before := Session.final perform (Barrier.new rule) opened
      let barrier := Session.final perform (Barrier.new rule) calls
      before.phase = .publishing ∧ (before.perform .sealTick).1 = .snapshot (.ok snapshot) ∧
      (∀ id ∈ before.registry.declared.keys, (snapshot.read id).isSome) ∧
      ∀ id ∈ barrier.registry.declared.keys,
        (snapshot.read id).isSome ∨ id ∉ before.registry.declared.keys ∧ .declare id ∈ closed := by
  have hphase := phase_of_handedOut h
  rw [← Session.final_concat] at hphase
  obtain ⟨opened, closed, hsplit, hclosed, hopen, hmissing, hanswer, rfl⟩ :=
    exists_seal_of_deciding rule hphase
  refine ⟨opened, closed, hsplit, hclosed, ?_⟩
  intro before barrier
  have hcomplete : ∀ id ∈ before.registry.declared.keys,
      (before.registry.snapshot.read id).isSome := by
    intro id hid
    by_contra hsilent
    have hmem := Registry.mem_missing.2 ⟨hid, Option.not_isSome_iff_eq_none.1 hsilent⟩
    rw [hmissing] at hmem
    exact List.not_mem_nil hmem
  refine ⟨hopen, hanswer, hcomplete, ?_⟩
  intro id hid
  by_cases hearly : id ∈ before.registry.declared.keys
  · exact .inl (hcomplete id hearly)
  · right
    have hlate : id ∈ (barrier.perform call).2.registry.declared.keys :=
      mem_declared_perform.2 (.inr hid)
    rw [← Session.final_concat, hsplit, Session.final_append, mem_declared_final] at hlate
    rcases hlate with hmem | hmem
    · exact ⟨hearly, (List.mem_cons.1 hmem).resolve_left nofun⟩
    · exact absurd hmem hearly

/-- A seal that is repeated after one source was published and another declared. -/
theorem sealed_snapshot_complete_of_late_declaration :
    let calls : List Call :=
      [.declare "a", .beginTick 3, .publish "a" true, .sealTick, .declare "b"]
    let barrier := Session.final perform (Barrier.new .reject) calls
    let snapshot := (Snapshot.ofTick 3).insert "a" true
    Entry.handedOut? (.sealTick, (barrier.perform .sealTick).1) = some snapshot ∧
    ∃ opened closed, calls ++ [.sealTick] = opened ++ .sealTick :: closed ∧
      let before := Session.final perform (Barrier.new .reject) opened
      ∀ id ∈ barrier.registry.declared.keys,
        (snapshot.read id).isSome ∨ id ∉ before.registry.declared.keys ∧ .declare id ∈ closed := by
  intro calls barrier snapshot
  have hhanded : Entry.handedOut? (.sealTick, (barrier.perform .sealTick).1) = some snapshot := rfl
  obtain ⟨opened, closed, hsplit, -, -, -, -, hlate⟩ :=
    sealed_snapshot_complete .reject calls .sealTick snapshot hhanded
  exact ⟨hhanded, opened, closed, hsplit, hlate⟩

end Barrier
end TickGate
