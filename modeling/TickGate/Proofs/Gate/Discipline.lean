import Mathlib.Data.List.Chain
import Mathlib.Data.List.Nodup
import TickGate.Gate.Basic
import TickGate.Proofs.Session
import TickGate.Registry.Basic

/-!
# When a gate runs its actions

A gate may be called with any views, at ticks in any order.  It remembers one tick, the last in
which an action ran, so two calls that run their actions in one tick have a call between them that
ran its action in another: consecutive ticks of the ticks that fired are different.  Where the
ticks of the calls never go back, this makes them all different.  `Accounts` relates what the gate
holds to the log of its calls, and `fires_once_until_tick_changes` states the discipline.
-/

namespace TickGate

namespace Outcome

variable {α : Type}

/-- Whether the trigger decided false. -/
def isSuppressed : Outcome α → Bool
  | suppressed => true
  | _ => false

/-- Whether the action had already run in the tick. -/
def isRepeated : Outcome α → Bool
  | alreadyFired => true
  | _ => false

theorem isFired_add_isSuppressed_add_isRepeated (outcome : Outcome α) :
    outcome.isFired.toNat + outcome.isSuppressed.toNat + outcome.isRepeated.toNat = 1 := by
  cases outcome <;> rfl

end Outcome

/-- Callers that read different kinds of views read their sum. -/
instance {ρ τ : Type} [View ρ] [View τ] : View (ρ ⊕ τ) where
  tick := Sum.elim View.tick View.tick
  read := Sum.elim View.read View.read

namespace Gate

structure Call (ρ σ α : Type) where
  view : ρ
  tick : Tick
  action : σ → Traced (α × σ)

variable {ρ σ α : Type}

/-- Performs one call on a gate and on the host that its action changes.  The answer is the outcome
and what was reported on the way. -/
def perform [View ρ] (state : Gate × σ) (call : Call ρ σ α) : Traced (Outcome α) × Gate × σ :=
  let ended := state.1.fire call.view call.tick call.action state.2
  ({ value := ended.value.1, events := ended.events }, ended.value.2)

abbrev Entry (ρ σ α : Type) := Call ρ σ α × Traced (Outcome α)

namespace Entry

/-- The tick of a call that ran its action. -/
def fired? (entry : Entry ρ σ α) : Option Tick :=
  if entry.2.value.isFired then some entry.1.tick else none

theorem fired?_eq_some_iff {entry : Entry ρ σ α} {tick : Tick} :
    fired? entry = some tick ↔ entry.2.value.isFired = true ∧ entry.1.tick = tick := by
  simp [fired?]

end Entry

/-- The ticks in which actions ran, the earliest first. -/
def firedTicks (log : List (Entry ρ σ α)) : List Tick := log.filterMap Entry.fired?

def tally (ending : Outcome α → Bool) (log : List (Entry ρ σ α)) : ℕ :=
  log.countP fun entry => ending entry.2.value

theorem firedTicks_concat (log : List (Entry ρ σ α)) (entry : Entry ρ σ α) :
    firedTicks (log ++ [entry]) = firedTicks log ++ (Entry.fired? entry).toList := by
  cases h : Entry.fired? entry <;> simp [firedTicks, h]

theorem firedTicks_concat_of_not_fired (log : List (Entry ρ σ α)) {entry : Entry ρ σ α}
    (h : entry.2.value.isFired = false) : firedTicks (log ++ [entry]) = firedTicks log := by
  rw [firedTicks_concat, Entry.fired?, h]
  exact List.append_nil _

theorem firedTicks_concat_of_fired (log : List (Entry ρ σ α)) {entry : Entry ρ σ α}
    (h : entry.2.value.isFired = true) :
    firedTicks (log ++ [entry]) = firedTicks log ++ [entry.1.tick] := by
  rw [firedTicks_concat, Entry.fired?, if_pos h]
  rfl

theorem tally_concat (ending : Outcome α → Bool) (log : List (Entry ρ σ α))
    (entry : Entry ρ σ α) :
    tally ending (log ++ [entry]) = tally ending log + (ending entry.2.value).toNat := by
  cases h : ending entry.2.value <;> simp [tally, List.countP_append, h]

/-- Every call ends in one of the three ways. -/
theorem tally_sum (log : List (Entry ρ σ α)) :
    tally Outcome.isFired log + tally Outcome.isSuppressed log + tally Outcome.isRepeated log =
      log.length := by
  induction log using List.reverseRecOn with
  | nil => rfl
  | append_singleton log entry ih =>
      have hone := entry.2.value.isFired_add_isSuppressed_add_isRepeated
      rw [tally_concat, tally_concat, tally_concat, List.length_append, List.length_singleton]
      omega

/-! ## One call -/

/-- The three ways in which a call ends, and all that it changes. -/
theorem perform_cases [View ρ] (gate : Gate) (host : σ) (call : Call ρ σ α) :
    let reported := (gate.trigger.decide call.view call.tick).events
    let ran := call.action host
    (gate.lastFired = some call.tick ∧
      perform (gate, host) call =
        ({ value := .alreadyFired },
          { gate with counts := gate.counts.countRepeated }, host)) ∨
    (gate.lastFired ≠ some call.tick ∧ gate.trigger.decision call.view call.tick = false ∧
      perform (gate, host) call =
        ({ value := .suppressed, events := reported },
          { gate with counts := gate.counts.countSuppressed }, host)) ∨
    (gate.lastFired ≠ some call.tick ∧ gate.trigger.decision call.view call.tick = true ∧
      perform (gate, host) call =
        ({ value := .fired ran.value.1, events := reported ++ ran.events },
          { gate with lastFired := some call.tick, counts := gate.counts.countFired },
          ran.value.2)) := by
  intro reported ran
  by_cases hlast : gate.lastFired = some call.tick
  · left
    refine ⟨hlast, ?_⟩
    rw [perform, fire_of_lastFired hlast]
    rfl
  · right
    cases hdecision : gate.trigger.decision call.view call.tick with
    | false =>
        have hvalue := fire_of_decision_false hlast hdecision call.action host
        have hevents := fire_events_of_decision_false hlast hdecision call.action host
        exact .inl ⟨hlast, rfl, by simp only [perform, hvalue, hevents, reported]⟩
    | true =>
        have hvalue := fire_of_decision_true hlast hdecision call.action host
        have hevents := fire_events_of_decision_true hlast hdecision call.action host
        exact .inr ⟨hlast, rfl, by simp only [perform, hvalue, hevents, reported, ran]⟩

/-- How a call is answered, and what it leaves, by what the trigger decides. -/
theorem perform_answer [View ρ] {gate : Gate} {trigger : Trigger} (host : σ) (call : Call ρ σ α)
    (htrigger : gate.trigger = trigger) :
    let answer := (perform (gate, host) call).1
    let after := (perform (gate, host) call).2
    let reported := (trigger.decide call.view call.tick).events
    let ran := call.action host
    (answer.value.isFired = true ↔
      gate.lastFired ≠ some call.tick ∧ trigger.decision call.view call.tick = true) ∧
    (answer.value.isFired = true →
      answer.value = .fired ran.value.1 ∧ answer.events = reported ++ ran.events ∧
      after = ({ gate with lastFired := some call.tick, counts := gate.counts.countFired },
        ran.value.2)) ∧
    (answer.value = .suppressed → answer.events = reported ∧
      after = ({ gate with counts := gate.counts.countSuppressed }, host)) ∧
    (answer.value = .alreadyFired → answer.events = #[] ∧
      after = ({ gate with counts := gate.counts.countRepeated }, host)) := by
  subst htrigger
  intro answer after reported ran
  rcases perform_cases gate host call with
    ⟨hlast, hcall⟩ | ⟨-, hdecision, hcall⟩ | ⟨hlast, hdecision, hcall⟩
  · simp [answer, after, hcall, Outcome.isFired, hlast]
  · simp [answer, after, hcall, Outcome.isFired, hdecision, reported]
  · simp [answer, after, hcall, Outcome.isFired, hlast, hdecision, reported, ran]

/-! ## Any calls -/

/-- What a gate holds, by the log of its calls. -/
structure Accounts (trigger : Trigger) (log : List (Entry ρ σ α)) (gate : Gate) : Prop where
  trigger : gate.trigger = trigger
  lastFired : gate.lastFired = (firedTicks log).getLast?
  changing : (firedTicks log).IsChain (· ≠ ·)
  fired : gate.counts.fired.toNat = min (tally Outcome.isFired log) Count.limit.toNat
  suppressed : gate.counts.suppressed.toNat = min (tally Outcome.isSuppressed log) Count.limit.toNat
  repeated : gate.counts.repeated.toNat = min (tally Outcome.isRepeated log) Count.limit.toNat

namespace Accounts

variable {trigger : Trigger} {log : List (Entry ρ σ α)} {gate : Gate}

theorem of_new (trigger : Trigger) : Accounts trigger ([] : List (Entry ρ σ α)) { trigger } where
  trigger := rfl
  lastFired := rfl
  changing := .nil
  fired := rfl
  suppressed := rfl
  repeated := rfl

/-- Together the three counts are the number of calls. -/
theorem attempts (h : Accounts trigger log gate) :
    gate.counts.attempts.toNat = min log.length Count.limit.toNat := by
  rw [Counts.toNat_attempts, h.fired, h.suppressed, h.repeated, ← tally_sum log]
  omega

/-- A tick that fires after the last one that did is another. -/
theorem changing_concat (h : Accounts trigger log gate) {tick : Tick}
    (hlast : gate.lastFired ≠ some tick) : (firedTicks log ++ [tick]).IsChain (· ≠ ·) := by
  refine List.isChain_append.2 ⟨h.changing, .singleton tick, ?_⟩
  intro last hmem next hnext
  obtain rfl : tick = next := Option.some.inj hnext
  intro heq
  rw [h.lastFired, hmem, heq] at hlast
  exact hlast rfl

theorem toNat_next_of_eq {count : Count} {n : ℕ} (h : count.toNat = min n Count.limit.toNat) :
    count.next.toNat = min (n + 1) Count.limit.toNat := by
  rw [Count.toNat_next, h]
  omega

section Endings

variable (h : Accounts trigger log gate) {entry : Entry ρ σ α}

include h

theorem concat_of_not_fired (counts : Counts) (hentry : entry.2.value.isFired = false)
    (hfired : counts.fired = gate.counts.fired)
    (hsuppressed : counts.suppressed.toNat =
      min (tally Outcome.isSuppressed (log ++ [entry])) Count.limit.toNat)
    (hrepeated : counts.repeated.toNat =
      min (tally Outcome.isRepeated (log ++ [entry])) Count.limit.toNat) :
    Accounts trigger (log ++ [entry]) { gate with counts } := by
  have hticks := firedTicks_concat_of_not_fired log hentry
  constructor
  · exact h.trigger
  · rw [hticks]
    exact h.lastFired
  · rw [hticks]
    exact h.changing
  · rw [hfired, tally_concat, hentry]
    exact h.fired
  · exact hsuppressed
  · exact hrepeated

theorem countRepeated (hentry : entry.2.value = .alreadyFired) :
    Accounts trigger (log ++ [entry]) { gate with counts := gate.counts.countRepeated } := by
  apply h.concat_of_not_fired gate.counts.countRepeated (by rw [hentry]; rfl) rfl
  all_goals rw [tally_concat, hentry]
  · exact h.suppressed
  · exact toNat_next_of_eq h.repeated

theorem countSuppressed (hentry : entry.2.value = .suppressed) :
    Accounts trigger (log ++ [entry]) { gate with counts := gate.counts.countSuppressed } := by
  apply h.concat_of_not_fired gate.counts.countSuppressed (by rw [hentry]; rfl) rfl
  all_goals rw [tally_concat, hentry]
  · exact toNat_next_of_eq h.suppressed
  · exact h.repeated

theorem countFired {result : α} (hentry : entry.2.value = .fired result)
    (hlast : gate.lastFired ≠ some entry.1.tick) :
    Accounts trigger (log ++ [entry])
      { gate with lastFired := some entry.1.tick, counts := gate.counts.countFired } := by
  have hticks : firedTicks (log ++ [entry]) = firedTicks log ++ [entry.1.tick] :=
    firedTicks_concat_of_fired log (by rw [hentry]; rfl)
  constructor
  · exact h.trigger
  · rw [hticks, List.getLast?_concat]
  · rw [hticks]
    exact h.changing_concat hlast
  all_goals rw [tally_concat, hentry]
  · exact toNat_next_of_eq h.fired
  · exact h.suppressed
  · exact h.repeated

end Endings

/-- Every call extends the log to one that accounts for the gate it leaves. -/
theorem concat [View ρ] (h : Accounts trigger log gate) (host : σ) (call : Call ρ σ α) :
    Accounts trigger (log ++ [(call, (perform (gate, host) call).1)])
      (perform (gate, host) call).2.1 := by
  rcases perform_cases gate host call with ⟨-, hcall⟩ | ⟨-, -, hcall⟩ | ⟨hlast, -, hcall⟩
  · rw [hcall]
    exact h.countRepeated rfl
  · rw [hcall]
    exact h.countSuppressed rfl
  · rw [hcall]
    exact h.countFired rfl hlast

end Accounts

/-- The log of any calls of a new gate accounts for the gate that they leave. -/
theorem accounts_session [View ρ] (trigger : Trigger) (host : σ) (calls : List (Call ρ σ α)) :
    Accounts trigger (Session.log perform (({ trigger } : Gate), host) calls)
      (Session.final perform (({ trigger } : Gate), host) calls).1 := by
  induction calls using List.reverseRecOn with
  | nil => exact .of_new trigger
  | append_singleton calls call ih =>
      rw [Session.final_concat, Session.log_concat]
      exact ih.concat _ call

/-! ## How often a tick fires -/

/-- Between two entries of one tick that fired, another tick fired. -/
theorem exists_fired_between {log front middle back : List (Entry ρ σ α)}
    {earlier later : Entry ρ σ α} (hchanging : (firedTicks log).IsChain (· ≠ ·))
    (hlog : log = front ++ earlier :: (middle ++ later :: back)) {tick : Tick}
    (hearlier : Entry.fired? earlier = some tick) (hlater : Entry.fired? later = some tick) :
    ∃ other ∈ middle, ∃ between, Entry.fired? other = some between ∧ between ≠ tick := by
  have hticks : firedTicks log =
      firedTicks front ++ (tick :: (firedTicks middle ++ tick :: firedTicks back)) := by
    simp only [hlog, firedTicks, List.filterMap_append, List.filterMap_cons, hearlier, hlater]
  rw [hticks] at hchanging
  have hrest := hchanging.right_of_append
  cases hmiddle : firedTicks middle with
  | nil =>
      rw [hmiddle, List.nil_append, List.isChain_cons_cons] at hrest
      exact absurd rfl hrest.1
  | cons between more =>
      rw [hmiddle, List.cons_append, List.isChain_cons_cons] at hrest
      have hmem : between ∈ firedTicks middle := by
        rw [hmiddle]
        exact List.mem_cons_self
      obtain ⟨other, hother, hfired⟩ := List.mem_filterMap.1 hmem
      exact ⟨other, hother, between, hfired, Ne.symm hrest.1⟩

/-- Ticks that never go back and always change are all different. -/
theorem nodup_of_changing {ticks : List Tick} (hchanging : ticks.IsChain (· ≠ ·))
    (hordered : ticks.Pairwise (· ≤ ·)) : ticks.Nodup := by
  have hascending : ticks.IsChain (· < ·) := by
    rw [List.isChain_iff_forall_rel_of_append_cons_cons] at hchanging ⊢
    intro first second front back hsplit
    have hle : first ≤ second := by
      rw [hsplit, List.pairwise_append] at hordered
      exact List.rel_of_pairwise_cons hordered.2.1 List.mem_cons_self
    exact UInt64.lt_of_le_of_ne hle (hchanging hsplit)
  refine (List.isChain_iff_pairwise.1 hascending).imp ?_
  intro first second hlt heq
  exact UInt64.lt_irrefl second (heq ▸ hlt)

theorem firedTicks_sublist (log : List (Entry ρ σ α)) :
    (firedTicks log).Sublist (log.map fun entry => entry.1.tick) := by
  induction log using List.reverseRecOn with
  | nil => exact List.Sublist.refl []
  | append_singleton log entry ih =>
      rw [firedTicks_concat, List.map_append]
      refine ih.append ?_
      cases hfired : Entry.fired? entry with
      | none => exact List.nil_sublist _
      | some tick =>
          obtain ⟨-, rfl⟩ := Entry.fired?_eq_some_iff.1 hfired
          exact List.Sublist.refl _

/-- Where the ticks of the calls never go back, no tick fires twice. -/
theorem Accounts.nodup_firedTicks [View ρ] {trigger : Trigger} {gate : Gate} {state : Gate × σ}
    {calls : List (Call ρ σ α)} (h : Accounts trigger (Session.log perform state calls) gate)
    (hordered : (calls.map Call.tick).Pairwise (· ≤ ·)) :
    (firedTicks (Session.log perform state calls)).Nodup := by
  have hsublist := firedTicks_sublist (Session.log perform state calls)
  have hticks : (Session.log perform state calls).map (fun entry => entry.1.tick) =
      calls.map Call.tick := by
    rw [← Session.map_fst_log perform state calls, List.map_map, Session.map_fst_log]
    rfl
  rw [hticks] at hsublist
  exact nodup_of_changing h.changing (hordered.sublist hsublist)

/-- Calls of a new gate with any views, of the same tick or not, and at ticks in any order.  A call
runs its action, once, exactly where it answers that it fired, and it fires exactly where the last
tick that fired is another and the trigger decides true; a call that does not fire changes nothing
but the count of its outcome.  Between two calls that fired in one tick there is a call that fired
in another, so where the ticks of the calls never go back, every tick fires at most once.  The gate
remembers the tick that fired last and counts the calls by their outcomes, up to the limit. -/
theorem fires_once_until_tick_changes [View ρ] (trigger : Trigger) (host : σ)
    (calls : List (Call ρ σ α)) :
    let new : Gate × σ := ({ trigger }, host)
    let log := Session.log perform new calls
    let gate := (Session.final perform new calls).1
    (∀ n call, calls[n]? = some call →
      let before := Session.final perform new (calls.take n)
      let after := Session.final perform new (calls.take (n + 1))
      let reported := (trigger.decide call.view call.tick).events
      let ran := call.action before.2
      ∃ answer, log[n]? = some (call, answer) ∧
        (answer.value.isFired = true ↔
          before.1.lastFired ≠ some call.tick ∧
            trigger.decision call.view call.tick = true) ∧
        (answer.value.isFired = true →
          answer.value = .fired ran.value.1 ∧ answer.events = reported ++ ran.events ∧
          after = ({ before.1 with lastFired := some call.tick,
                                   counts := before.1.counts.countFired }, ran.value.2)) ∧
        (answer.value = .suppressed → answer.events = reported ∧
          after = ({ before.1 with counts := before.1.counts.countSuppressed }, before.2)) ∧
        (answer.value = .alreadyFired → answer.events = #[] ∧
          after = ({ before.1 with counts := before.1.counts.countRepeated }, before.2))) ∧
    (∀ front middle back earlier later tick,
      log = front ++ earlier :: (middle ++ later :: back) →
      Entry.fired? earlier = some tick → Entry.fired? later = some tick →
      ∃ other ∈ middle, ∃ between, Entry.fired? other = some between ∧ between ≠ tick) ∧
    ((calls.map Call.tick).Pairwise (· ≤ ·) → ∀ tick, (firedTicks log).count tick ≤ 1) ∧
    gate.lastFired = (firedTicks log).getLast? ∧
    gate.counts.fired.toNat = min (tally Outcome.isFired log) Count.limit.toNat ∧
    gate.counts.suppressed.toNat = min (tally Outcome.isSuppressed log) Count.limit.toNat ∧
    gate.counts.repeated.toNat = min (tally Outcome.isRepeated log) Count.limit.toNat ∧
    gate.counts.attempts.toNat = min calls.length Count.limit.toNat := by
  intro new log gate
  have haccounts : Accounts trigger log gate := accounts_session trigger host calls
  have hlength : log.length = calls.length := by
    rw [← List.length_map Prod.fst, Session.map_fst_log]
  have hattempts := haccounts.attempts
  rw [hlength] at hattempts
  refine ⟨?_, ?_, ?_, haccounts.lastFired, haccounts.fired, haccounts.suppressed,
    haccounts.repeated, hattempts⟩
  · intro n call hn before after reported ran
    have hlog : log[n]? = some (call, (perform before call).1) := by
      rw [Session.getElem?_log, hn]
      rfl
    have hafter : after = (perform before call).2 := Session.final_take_succ perform new hn
    have htrigger : before.1.trigger = trigger :=
      (accounts_session trigger host (calls.take n)).trigger
    refine ⟨_, hlog, ?_⟩
    rw [hafter]
    exact perform_answer before.2 call htrigger
  · intro front middle back earlier later tick hsplit hearlier hlater
    exact exists_fired_between haccounts.changing hsplit hearlier hlater
  · intro hordered tick
    exact List.nodup_iff_count_le_one.1 (haccounts.nodup_firedTicks hordered) tick

/-- A snapshot and a registry of another tick, read alternately: a tick fires again once another
has fired, but not where the ticks never go back. -/
theorem fires_once_until_tick_changes_of_revisit :
    let first : Snapshot ⊕ Registry := .inl ((Snapshot.ofTick 1).insert "a" true)
    let silent : Snapshot ⊕ Registry := .inl (Snapshot.ofTick 1)
    let second : Snapshot ⊕ Registry :=
      .inr { snapshot := (Snapshot.ofTick 2).insert "a" true, duplicateRule := .reject }
    let count : ℕ → Traced (ℕ × ℕ) := fun runs => pure (runs, runs + 1)
    let revisiting : List (Call (Snapshot ⊕ Registry) ℕ ℕ) :=
      [⟨first, 1, count⟩, ⟨second, 2, count⟩, ⟨silent, 1, count⟩, ⟨first, 1, count⟩]
    let ordered : List (Call (Snapshot ⊕ Registry) ℕ ℕ) :=
      [⟨silent, 1, count⟩, ⟨first, 1, count⟩, ⟨first, 1, count⟩, ⟨second, 2, count⟩]
    let new : Gate × ℕ := ({ trigger := .level "a" }, 0)
    let log := Session.log perform new revisiting
    firedTicks log = [1, 2, 1] ∧
    (∃ earlier middle later, log = [] ++ earlier :: (middle ++ later :: []) ∧
      Entry.fired? earlier = some 1 ∧ Entry.fired? later = some 1 ∧
      ∃ other ∈ middle, ∃ between, Entry.fired? other = some between ∧ between ≠ 1) ∧
    (ordered.map Call.tick).Pairwise (· ≤ ·) ∧
    ∀ tick, (firedTicks (Session.log perform new ordered)).count tick ≤ 1 := by
  intro first silent second count revisiting ordered new log
  obtain ⟨-, hbetween, -⟩ := fires_once_until_tick_changes (.level "a") 0 revisiting
  obtain ⟨-, -, honce, -⟩ := fires_once_until_tick_changes (.level "a") 0 ordered
  have hordered : (ordered.map Call.tick).Pairwise (· ≤ ·) := by decide
  refine ⟨rfl, ⟨_, [_, _], _, rfl, rfl, rfl, ?_⟩, hordered, honce hordered⟩
  exact hbetween [] _ [] _ _ 1 rfl rfl rfl

end Gate
end TickGate
