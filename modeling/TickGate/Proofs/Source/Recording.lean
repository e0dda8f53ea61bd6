import TickGate.Proofs.Barrier.Agreement
import TickGate.Proofs.Registry.Growth

/-!
# The tick under which a value is recorded

A source evaluates for the tick that it is asked about, while a board records under the tick that
has begun last.  Nothing brings the two together.  A publisher that was overtaken by the beginning
of another tick publishes in that tick, if it is accepted at all.
-/

namespace TickGate

/-! ## Accepted publishes -/

namespace Registry

theorem recorded_of_ok {registry : Registry} {id : SourceId} {value : Bool}
    (h : (registry.publish id value).value.1 = .ok ()) :
    ∃ current, registry.currentTick = some current ∧
      (registry.publish id value).value.2.currentTick = some current ∧
      (registry.publish id value).value.2.read id = some value := by
  obtain ⟨tick, htick, hnext | hnext⟩ := publish_accepted_cases h
  · rw [hnext]
    exact ⟨tick, htick, htick, by rw [store_read, if_pos rfl]⟩
  · rw [hnext]
    exact ⟨tick, htick, htick, by rw [store_read, if_pos rfl]⟩

end Registry

namespace Barrier

/-- A barrier accepts what its registry accepts in the publishing phase, and nothing else. -/
theorem recorded_of_ok {barrier : Barrier} {id : SourceId} {value : Bool}
    (h : (barrier.publish id value).value.1 = .ok ()) :
    barrier.phase = .publishing ∧
    ∃ current, barrier.currentTick = some current ∧
      (barrier.publish id value).value.2.phase = .publishing ∧
      (barrier.publish id value).value.2.currentTick = some current ∧
      (barrier.publish id value).value.2.registry.read id = some value := by
  cases hphase : barrier.phase with
  | idle =>
      rw [publish_of_idle hphase] at h
      exact nomatch h
  | deciding sealed =>
      rw [publish_of_deciding hphase] at h
      exact nomatch h
  | publishing =>
      rw [publish_value_of_publishing hphase] at h ⊢
      obtain ⟨current, htick, hafter, hread⟩ := Registry.recorded_of_ok h
      exact ⟨rfl, current, htick, hphase, hafter, hread⟩

/-- What is sealed in the publishing phase is the snapshot of the registry. -/
theorem sealTick_snapshot {barrier : Barrier} {current : Tick} {snapshot : Snapshot}
    (hphase : barrier.phase = .publishing) (htick : barrier.currentTick = some current)
    (h : barrier.sealTick.value.1 = .ok snapshot) : snapshot = barrier.registry.snapshot := by
  by_cases hmissing : barrier.registry.missing = []
  · rw [sealTick_of_complete hphase htick hmissing] at h
    exact (Except.ok.inj h).symm
  · rw [sealTick_of_missing hphase htick hmissing] at h
    exact nomatch h

end Barrier

/-! ## Sources -/

namespace Source

variable {S β : Type} [Board β]

theorem publish_value (source : Source S) (board : β) (tick : Tick) (host : S) :
    let value := (source.evaluate tick host).1
    (source.publish board tick host).value =
      ((Board.publish board source.id value).value.1.map fun _ => value,
        (source.evaluate tick host).2, (Board.publish board source.id value).value.2) := by
  intro value
  rw [publish, Traced.bind_value, evaluate_id]
  rfl

/-- A source that is accepted has published the value of its tick. -/
theorem accepted_of_ok {source : Source S} {board : β} {tick : Tick} {host : S} {value : Bool}
    (h : (source.publish board tick host).value.1 = .ok value) :
    value = (source.evaluate tick host).1 ∧
      (Board.publish board source.id value).value.1 = .ok () ∧
      (source.publish board tick host).value.2.2 =
        (Board.publish board source.id value).value.2 := by
  rw [publish_value] at h ⊢
  cases hanswer : (Board.publish board source.id (source.evaluate tick host).1).value.1 with
  | error fault =>
      rw [hanswer] at h
      exact nomatch h
  | ok =>
      rw [hanswer] at h
      obtain rfl := Except.ok.inj h
      exact ⟨rfl, hanswer, rfl⟩

/-- A barrier that was begun for another tick takes the value of a source that is late. -/
theorem recorded_under_other_tick :
    let barrier :=
      Session.final Barrier.perform (.new .reject) [.beginTick 0, .sealTick, .beginTick 1]
    let source : Source Unit := .probe { id := "a", condition := .always }
    let out := (source.publish barrier 0 ()).value
    out.1 = .ok true ∧ out.2.2.currentTick = some 1 ∧ out.2.2.currentTick ≠ some 0 ∧
      out.2.2.registry.snapshot.read "a" = some true := by
  intro barrier source out
  exact ⟨rfl, rfl, by decide, rfl⟩

/-- A source that is accepted by a registry or a barrier, after any calls on it, has published the
value of the tick that it was asked about.  The value is recorded under the tick that has begun
last, which a barrier has not sealed since: whoever seals it gets the value.  So the value is
recorded under the source's own tick only where that tick has begun last.  As evaluating a source
touches no board, the calls may go on between the evaluation and the publish. -/
theorem recorded_under_begun_tick {S : Type} (rule : DuplicateRule) (source : Source S)
    (tick : Tick) (host : S) (value : Bool) :
    (∀ calls : List Registry.Call,
      let registry := Session.final Registry.perform (Registry.new rule) calls
      let out := (source.publish registry tick host).value
      out.1 = .ok value →
      value = (source.evaluate tick host).1 ∧
      ∃ current, Registry.latestTick calls = some current ∧
        out.2.2.currentTick = some current ∧ out.2.2.snapshot.read source.id = some value ∧
        View.readAt out.2.2 tick source.id = if current = tick then some value else none) ∧
    ∀ calls : List Barrier.Call,
      let barrier := Session.final Barrier.perform (Barrier.new rule) calls
      let out := (source.publish barrier tick host).value
      out.1 = .ok value →
      value = (source.evaluate tick host).1 ∧
      ∃ before current since,
        Session.log Barrier.perform (Barrier.new rule) calls =
          before ++ (.beginTick current, .begun) :: since ∧
        (∀ entry ∈ since, Barrier.Entry.begun? entry = none ∧
          Barrier.Entry.handedOut? entry = none) ∧
        out.2.2.currentTick = some current ∧
        out.2.2.registry.snapshot.read source.id = some value ∧
        ∀ snapshot, out.2.2.sealTick.value.1 = .ok snapshot →
          snapshot.tick = some current ∧ snapshot.read source.id = some value := by
  constructor
  · intro calls registry out hout
    obtain ⟨hvalue, haccepted, hafter⟩ := accepted_of_ok hout
    obtain ⟨current, htick, hcurrent, hread⟩ := Registry.recorded_of_ok haccepted
    have hlatest : Registry.latestTick calls = some current :=
      (Registry.tracks_session rule calls).currentTick.symm.trans htick
    have hregistry : out.2.2 = (registry.publish source.id value).value.2 := hafter
    rw [← hregistry] at hcurrent hread
    refine ⟨hvalue, current, hlatest, hcurrent, hread, ?_⟩
    rw [Registry.readAt_eq_ite, hcurrent, hread]
    simp
  · intro calls barrier out hout
    obtain ⟨hvalue, haccepted, hafter⟩ := accepted_of_ok hout
    obtain ⟨hphase, current, htick, hopen, hcurrent, hread⟩ := Barrier.recorded_of_ok haccepted
    have hbarrier : out.2.2 = (barrier.publish source.id value).value.2 := hafter
    rw [← hbarrier] at hopen hcurrent hread
    have hsealed : ∀ snapshot, out.2.2.sealTick.value.1 = .ok snapshot →
        snapshot.tick = some current ∧ snapshot.read source.id = some value := by
      intro snapshot hseal
      rw [Barrier.sealTick_snapshot hopen hcurrent hseal]
      exact ⟨hcurrent, hread⟩
    cases Barrier.explains_session rule calls with
    | idle tracks phase => exact nomatch phase.symm.trans hphase
    | deciding _ _ _ _ _ tracks phase => exact nomatch phase.symm.trans hphase
    | publishing before begun since tracks phase split unbegun unsealed =>
        have hbegun : begun = current := Option.some.inj (tracks.currentTick.symm.trans htick)
        rw [hbegun] at split
        exact ⟨hvalue, before, current, since, split,
          fun entry hmem => ⟨unbegun entry hmem, unsealed entry hmem⟩, hcurrent, hread, hsealed⟩

/-- A balance that was asked about tick zero and comes to a registry and a barrier in tick one. -/
theorem recorded_under_begun_tick_of_late_balance :
    let registry := Session.final Registry.perform (.new .reject) [.beginTick 0, .beginTick 1]
    let barrier :=
      Session.final Barrier.perform (.new .reject) [.beginTick 0, .sealTick, .beginTick 1]
    let source : Source Unit := .balance { id := "a", credit := .always, debit := .never }
    let late := (source.publish registry 0 ()).value
    let shared := (source.publish barrier 0 ()).value
    late.1 = .ok true ∧ View.readAt late.2.2 0 "a" = none ∧
      shared.1 = .ok true ∧ shared.2.2.currentTick = some 1 ∧
      ∀ snapshot, shared.2.2.sealTick.value.1 = .ok snapshot → snapshot.read "a" = some true := by
  intro registry barrier source late shared
  obtain ⟨hregistry, hbarrier⟩ := recorded_under_begun_tick .reject source 0 () true
  obtain ⟨-, current, hlatest, -, -, hreadAt⟩ := hregistry [.beginTick 0, .beginTick 1] rfl
  obtain rfl : 1 = current := Option.some.inj hlatest
  obtain ⟨-, before, begun, since, -, -, -, -, hseal⟩ :=
    hbarrier [.beginTick 0, .sealTick, .beginTick 1] rfl
  refine ⟨rfl, hreadAt, rfl, rfl, ?_⟩
  intro snapshot hsnapshot
  exact (hseal snapshot hsnapshot).2

end Source
end TickGate
