import TickGate.Proofs.Gate.Discipline
import TickGate.Proofs.Interleaving

/-!
# The three call forms of a gate

A gate that is given its action, a gate that holds it, and a trigger without a gate do the same as
long as no gate meets the tick in which it fired last: the action runs where the trigger decides
true.  `fire_eq_whenEnabled` is the one step that this rests on; it splits a call into the part that
a trigger does alone and the bookkeeping of the gate.  As the bookkeeping depends on the decisions
only, gates that share a trigger hold the same, whatever their actions do to the host and in
whatever order they are called.
-/

namespace TickGate

/-- A view and the tick for which it is asked. -/
structure Occasion (ρ : Type) where
  view : ρ
  tick : Tick

namespace Outcome

/-- The outcome in a tick that has not fired, by the result of the action if it ran. -/
def ofResult? {α : Type} : Option α → Outcome α
  | some result => fired result
  | none => suppressed

end Outcome

/-! ## Fresh ticks -/

namespace Trigger

variable {ρ : Type} [View ρ]

/-- Whether the trigger decides true. -/
def enables (trigger : Trigger) (occasion : Occasion ρ) : Bool :=
  trigger.decision occasion.view occasion.tick

/-- The tick of the last occasion at which the trigger decides true. -/
def lastEnabled? (trigger : Trigger) (occasions : List (Occasion ρ)) : Option Tick :=
  (occasions.filter trigger.enables).getLast?.map Occasion.tick

/-- No occasion has the tick of the last one before it at which the trigger decides true. -/
def FreshTicks (trigger : Trigger) (occasions : List (Occasion ρ)) : Prop :=
  ∀ n occasion, occasions[n]? = some occasion →
    trigger.lastEnabled? (occasions.take n) ≠ some occasion.tick

variable {trigger : Trigger} {occasions : List (Occasion ρ)}

theorem lastEnabled?_concat (occasion : Occasion ρ) :
    trigger.lastEnabled? (occasions ++ [occasion]) =
      if trigger.enables occasion then some occasion.tick else trigger.lastEnabled? occasions := by
  by_cases henables : trigger.enables occasion = true
  · simp [lastEnabled?, henables]
  · simp [lastEnabled?, henables]

theorem FreshTicks.of_append {front back : List (Occasion ρ)}
    (h : trigger.FreshTicks (front ++ back)) : trigger.FreshTicks front := by
  intro n occasion hn
  have hlt : n < front.length := (List.getElem?_eq_some_iff.1 hn).1
  have hfresh := h n occasion (by rw [List.getElem?_append_left hlt, hn])
  rwa [List.take_append_of_le_length hlt.le] at hfresh

theorem FreshTicks.last {occasion : Occasion ρ} (h : trigger.FreshTicks (occasions ++ [occasion])) :
    trigger.lastEnabled? occasions ≠ some occasion.tick := by
  have hfresh := h occasions.length occasion (by simp)
  rwa [List.take_left] at hfresh

theorem FreshTicks.take (h : trigger.FreshTicks occasions) (n : ℕ) :
    trigger.FreshTicks (occasions.take n) := by
  rw [← List.take_append_drop n occasions] at h
  exact h.of_append

/-- Ticks that always grow are fresh. -/
theorem freshTicks_of_ascending (h : (occasions.map Occasion.tick).Pairwise (· < ·)) :
    trigger.FreshTicks occasions := by
  intro n occasion hn hlast
  obtain ⟨earlier, hearlier, htick⟩ := Option.map_eq_some_iff.1 hlast
  have hmem : earlier ∈ occasions.take n :=
    List.mem_of_mem_filter (List.mem_of_getLast? hearlier)
  have hsplit : occasions = occasions.take n ++ occasion :: occasions.drop (n + 1) := by
    obtain ⟨hlt, hget⟩ := List.getElem?_eq_some_iff.1 hn
    rw [← hget, List.getElem_cons_drop, List.take_append_drop]
  rw [hsplit, List.map_append, List.pairwise_append] at h
  have hlt := h.2.2 earlier.tick (List.mem_map_of_mem hmem) occasion.tick (by simp)
  rw [htick] at hlt
  exact UInt64.lt_irrefl _ hlt

end Trigger

namespace Gate

variable {ρ σ α : Type} [View ρ]

/-! ## One call -/

/-- The gate after a decision in a tick that has not fired. -/
def settle (gate : Gate) (tick : Tick) : Bool → Gate
  | true => { gate with lastFired := some tick, counts := gate.counts.countFired }
  | false => { gate with counts := gate.counts.countSuppressed }

/-- In a tick that has not fired, a gate does what its trigger does alone, and notes the
decision. -/
theorem fire_eq_whenEnabled {gate : Gate} {tick : Tick} (hlast : gate.lastFired ≠ some tick)
    (view : ρ) (action : σ → Traced (α × σ)) (host : σ) :
    gate.fire view tick action host =
      (fun ended => (Outcome.ofResult? ended.1,
        gate.settle tick (gate.trigger.decision view tick), ended.2)) <$>
      gate.trigger.whenEnabled view tick action host := by
  cases hdecision : gate.trigger.decision view tick with
  | false =>
      apply Traced.ext
      · rw [fire_of_decision_false hlast hdecision]
        simp [Trigger.whenEnabled, hdecision, Outcome.ofResult?, settle]
      · rw [fire_events_of_decision_false hlast hdecision]
        simp [Trigger.whenEnabled, hdecision]
  | true =>
      apply Traced.ext
      · rw [fire_of_decision_true hlast hdecision]
        simp [Trigger.whenEnabled, hdecision, Outcome.ofResult?, settle]
      · rw [fire_events_of_decision_true hlast hdecision]
        simp [Trigger.whenEnabled, hdecision]

end Gate

section Performing

variable {ρ σ α : Type} [View ρ]

/-- What is asked of a gate at an occasion, with an action that is told the tick. -/
def Occasion.call (action : Tick → σ → Traced (α × σ)) (occasion : Occasion ρ) :
    Gate.Call ρ σ α :=
  ⟨occasion.view, occasion.tick, action occasion.tick⟩

def Gate.Call.occasion (call : Gate.Call ρ σ α) : Occasion ρ := ⟨call.view, call.tick⟩

/-- Performs one call on a trigger without a gate. -/
def Trigger.perform (trigger : Trigger) (host : σ) (call : Gate.Call ρ σ α) :
    Traced (Option α) × σ :=
  let ended := trigger.whenEnabled call.view call.tick call.action host
  ({ value := ended.value.1, events := ended.events }, ended.value.2)

/-- Calls a gate that holds its action. -/
def GatedAction.perform (state : GatedAction σ × σ) (occasion : Occasion ρ) :
    Traced (Outcome Unit) × GatedAction σ × σ :=
  let ended := state.1.fireStored occasion.view occasion.tick state.2
  ({ value := ended.value.1, events := ended.events }, ended.value.2)

/-- An action without its result. -/
def discard (action : Tick → σ → Traced (α × σ)) (tick : Tick) (host : σ) : Traced (Unit × σ) :=
  (fun out => ((), out.2)) <$> action tick host

/-- A gate that holds an action, without the action's result. -/
def GatedAction.ofGate (gate : Gate) (action : Tick → σ → Traced (α × σ)) : GatedAction σ where
  gate
  action tick host := Prod.snd <$> action tick host

/-- What is answered at an occasion and reported on the way, by what is answered where the action
runs and where it does not. -/
def Trigger.answerAt {β : Type} (trigger : Trigger) (occasion : Occasion ρ) (running : Array Event)
    (fired suppressed : β) : Traced β :=
  let reported := (trigger.decide occasion.view occasion.tick).events
  if trigger.enables occasion then { value := fired, events := reported ++ running }
  else { value := suppressed, events := reported }

theorem Trigger.map_answerAt {β γ : Type} (f : β → γ) (trigger : Trigger) (occasion : Occasion ρ)
    (running : Array Event) (fired suppressed : β) :
    f <$> trigger.answerAt occasion running fired suppressed =
      trigger.answerAt occasion running (f fired) (f suppressed) := by
  rw [answerAt, apply_ite (f <$> ·), Traced.map_mk, Traced.map_mk]
  rfl

theorem Trigger.perform_eq (trigger : Trigger) (host : σ) (call : Gate.Call ρ σ α) :
    trigger.perform host call =
      (trigger.answerAt call.occasion (call.action host).events
          (some (call.action host).value.1) none,
        if trigger.enables call.occasion then (call.action host).value.2 else host) := by
  cases hdecision : trigger.decision call.view call.tick <;>
    simp [perform, whenEnabled, answerAt, enables, Gate.Call.occasion, hdecision]

theorem Gate.perform_of_lastFired_ne {gate : Gate} {call : Call ρ σ α}
    (hlast : gate.lastFired ≠ some call.tick) (host : σ) :
    Gate.perform (gate, host) call =
      (Outcome.ofResult? <$> (gate.trigger.perform host call).1,
        gate.settle call.tick (gate.trigger.enables call.occasion),
        (gate.trigger.perform host call).2) := by
  simp only [Gate.perform, fire_eq_whenEnabled hlast, Trigger.perform, Traced.map_mk,
    Traced.map_value, Traced.map_events]
  rfl

theorem GatedAction.fireStored_eq (gated : GatedAction σ) (view : ρ) (tick : Tick) (host : σ) :
    gated.fireStored view tick host =
      (fun ended => (ended.1, { gated with gate := ended.2.1 }, ended.2.2)) <$>
        gated.gate.fire view tick (fun host => Prod.mk () <$> gated.action tick host) host := by
  simp only [fireStored, bind_pure_comp]

/-- A gate that holds its action does what its gate does when it is given the action. -/
theorem GatedAction.perform_ofGate (gate : Gate) (action : Tick → σ → Traced (α × σ)) (host : σ)
    (occasion : Occasion ρ) :
    let ended := Gate.perform (gate, host) (occasion.call (discard action))
    perform (ofGate gate action, host) occasion =
      (ended.1, ofGate ended.2.1 action, ended.2.2) := by
  intro ended
  have hunit : (fun host => Prod.mk () <$> (ofGate gate action).action occasion.tick host) =
      discard action occasion.tick := by
    funext host
    simp [ofGate, discard]
  simp only [perform, fireStored_eq, hunit, Traced.map_value, Traced.map_events]
  rfl

end Performing

/-! ## Calls at fresh ticks -/

namespace Gate

variable {ρ σ α : Type} [View ρ]

/-- The gate after the decisions at occasions whose ticks are fresh. -/
def settleEach (trigger : Trigger) (occasions : List (Occasion ρ)) : Gate :=
  occasions.foldl (fun gate occasion => gate.settle occasion.tick (trigger.enables occasion))
    { trigger }

variable {trigger : Trigger} {occasions : List (Occasion ρ)}

theorem settleEach_concat (trigger : Trigger) (occasions : List (Occasion ρ))
    (occasion : Occasion ρ) :
    settleEach trigger (occasions ++ [occasion]) =
      (settleEach trigger occasions).settle occasion.tick (trigger.enables occasion) := by
  rw [settleEach, List.foldl_append]
  rfl

theorem settleEach_trigger (trigger : Trigger) (occasions : List (Occasion ρ)) :
    (settleEach trigger occasions).trigger = trigger := by
  induction occasions using List.reverseRecOn with
  | nil => rfl
  | append_singleton occasions occasion ih =>
      rw [settleEach_concat]
      cases trigger.enables occasion with
      | false => exact ih
      | true => exact ih

theorem settleEach_lastFired (trigger : Trigger) (occasions : List (Occasion ρ)) :
    (settleEach trigger occasions).lastFired = trigger.lastEnabled? occasions := by
  induction occasions using List.reverseRecOn with
  | nil => rfl
  | append_singleton occasions occasion ih =>
      rw [settleEach_concat, Trigger.lastEnabled?_concat]
      cases henables : trigger.enables occasion with
      | false => exact ih
      | true => rfl

/-- A call at a fresh tick. -/
theorem perform_settleEach (call : Call ρ σ α)
    (hfresh : trigger.FreshTicks (occasions ++ [call.occasion])) (host : σ) :
    perform (settleEach trigger occasions, host) call =
      (Outcome.ofResult? <$> (trigger.perform host call).1,
        settleEach trigger (occasions ++ [call.occasion]), (trigger.perform host call).2) := by
  have hlast : (settleEach trigger occasions).lastFired ≠ some call.tick := by
    rw [settleEach_lastFired]
    exact hfresh.last
  rw [perform_of_lastFired_ne hlast, settleEach_trigger, settleEach_concat]
  rfl

/-! ### One gate -/

/-- The host after the action ran at each of the occasions at which the trigger decides true. -/
def runEnabled (trigger : Trigger) (action : Tick → σ → Traced (α × σ)) (host : σ)
    (occasions : List (Occasion ρ)) : σ :=
  (occasions.filter trigger.enables).foldl
    (fun host occasion => (action occasion.tick host).value.2) host

theorem runEnabled_concat (action : Tick → σ → Traced (α × σ)) (host : σ)
    (occasions : List (Occasion ρ)) (occasion : Occasion ρ) :
    runEnabled trigger action host (occasions ++ [occasion]) =
      (trigger.perform (runEnabled trigger action host occasions) (occasion.call action)).2 := by
  rw [Trigger.perform_eq]
  show _ = if trigger.enables occasion then _ else _
  by_cases henables : trigger.enables occasion = true
  · simp [runEnabled, henables, Occasion.call]
  · simp [runEnabled, henables]

theorem runEnabled_discard (action : Tick → σ → Traced (α × σ)) (host : σ)
    (occasions : List (Occasion ρ)) :
    runEnabled trigger (discard action) host occasions =
      runEnabled trigger action host occasions := by
  simp [runEnabled, discard]

section OneGate

variable (action : Tick → σ → Traced (α × σ)) (host : σ)

theorem final_trigger_perform (occasions : List (Occasion ρ)) :
    Session.final trigger.perform host (occasions.map (Occasion.call action)) =
      runEnabled trigger action host occasions := by
  induction occasions using List.reverseRecOn with
  | nil => rfl
  | append_singleton occasions occasion ih =>
      rw [List.map_append, List.map_singleton, Session.final_concat, ih, runEnabled_concat]

theorem final_perform (h : trigger.FreshTicks occasions) :
    Session.final perform (({ trigger } : Gate), host) (occasions.map (Occasion.call action)) =
      (settleEach trigger occasions, runEnabled trigger action host occasions) := by
  induction occasions using List.reverseRecOn with
  | nil => rfl
  | append_singleton occasions occasion ih =>
      rw [List.map_append, List.map_singleton, Session.final_concat, ih h.of_append,
        runEnabled_concat]
      exact congrArg Prod.snd (perform_settleEach (occasion.call action) h _)

theorem final_perform_ofGate (h : trigger.FreshTicks occasions) :
    Session.final GatedAction.perform (GatedAction.ofGate { trigger } action, host) occasions =
      (GatedAction.ofGate (settleEach trigger occasions) action,
        runEnabled trigger action host occasions) := by
  induction occasions using List.reverseRecOn with
  | nil => rfl
  | append_singleton occasions occasion ih =>
      have hcall := perform_settleEach (occasion.call (discard action)) h
        (runEnabled trigger (discard action) host occasions)
      rw [← runEnabled_concat, runEnabled_discard, runEnabled_discard] at hcall
      rw [Session.final_concat, ih h.of_append, GatedAction.perform_ofGate, hcall]
      rfl

/-- What the three call forms answer at one of some occasions, on the host that the occasions before
it left. -/
theorem answers_getElem? (h : trigger.FreshTicks occasions) {n : ℕ} {occasion : Occasion ρ}
    (hn : occasions[n]? = some occasion) :
    let calls := occasions.map (Occasion.call action)
    let ran := action occasion.tick (runEnabled trigger action host (occasions.take n))
    (Session.log perform (({ trigger } : Gate), host) calls)[n]? = some (occasion.call action,
      trigger.answerAt occasion ran.events (.fired ran.value.1) .suppressed) ∧
    (Session.log GatedAction.perform (GatedAction.ofGate { trigger } action, host) occasions)[n]? =
      some (occasion, trigger.answerAt occasion ran.events (.fired ()) .suppressed) ∧
    (Session.log trigger.perform host calls)[n]? = some (occasion.call action,
      trigger.answerAt occasion ran.events (some ran.value.1) none) := by
  intro calls ran
  have hcalls : calls[n]? = some (occasion.call action) := by simp [calls, hn]
  have htake : calls.take n = (occasions.take n).map (Occasion.call action) := List.map_take.symm
  have hfresh : trigger.FreshTicks (occasions.take n ++ [occasion]) := by
    have hsucc := h.take (n + 1)
    rwa [List.take_add_one, hn] at hsucc
  refine ⟨?_, ?_, ?_⟩
  · rw [Session.getElem?_log, hcalls, htake, final_perform action host (h.take n), Option.map_some,
      perform_settleEach (occasion.call action) hfresh, Trigger.perform_eq,
      Trigger.map_answerAt]
    rfl
  · rw [Session.getElem?_log, hn, final_perform_ofGate action host (h.take n), Option.map_some,
      GatedAction.perform_ofGate,
      perform_settleEach (occasion.call (discard action)) hfresh, Trigger.perform_eq,
      Trigger.map_answerAt]
    simp [Occasion.call, discard, ran]
    rfl
  · rw [Session.getElem?_log, hcalls, htake, final_trigger_perform, Option.map_some,
      Trigger.perform_eq]
    rfl

/-- A gate that is given the action has the results that its trigger has alone. -/
theorem results_eq (h : trigger.FreshTicks occasions) :
    let calls := occasions.map (Occasion.call action)
    (Session.log perform (({ trigger } : Gate), host) calls).map
        (fun entry => entry.2.value.result?) =
      (Session.log trigger.perform host calls).map fun entry => entry.2.value := by
  intro calls
  apply List.ext_getElem?
  intro n
  rw [List.getElem?_map, List.getElem?_map]
  cases hn : occasions[n]? with
  | none =>
      have hcalls : calls[n]? = none := by simp [calls, hn]
      rw [Session.getElem?_log, Session.getElem?_log, hcalls]
      rfl
  | some occasion =>
      obtain ⟨hgiven, -, hdirect⟩ := answers_getElem? action host h hn
      rw [hgiven, hdirect, Option.map_some, Option.map_some, Trigger.answerAt, Trigger.answerAt]
      cases trigger.enables occasion with
      | true => rfl
      | false => rfl

end OneGate

/-! ### Gates that share a trigger -/

section Shared

variable {ι : Type} [DecidableEq ι]

/-- Calls one of some gates. -/
def performShared (state : (ι → Gate) × σ) (call : ι × Call ρ σ α) :
    Traced (Outcome α) × (ι → Gate) × σ :=
  let ended := perform (state.1 call.1, state.2) call.2
  (ended.1, Function.update state.1 call.1 ended.2.1, ended.2.2)

/-- The occasions at which a gate is called. -/
def occasionsOf (owner : ι) (calls : List (ι × Call ρ σ α)) : List (Occasion ρ) :=
  (Session.ofCaller owner calls).map Call.occasion

/-- What a gate answers to its calls. -/
def answersOf (owner : ι) (log : List ((ι × Call ρ σ α) × Traced (Outcome α))) :
    List (Traced (Outcome α)) :=
  Session.ofCaller owner (log.map fun entry => (entry.1.1, entry.2))

omit [View ρ] in
theorem occasionsOf_append (owner : ι) (front back : List (ι × Call ρ σ α)) :
    occasionsOf owner (front ++ back) = occasionsOf owner front ++ occasionsOf owner back := by
  rw [occasionsOf, Session.ofCaller_append, List.map_append]
  rfl

omit [View ρ] in
theorem occasionsOf_concat_self (owner : ι) (calls : List (ι × Call ρ σ α)) (call : Call ρ σ α) :
    occasionsOf owner (calls ++ [(owner, call)]) = occasionsOf owner calls ++ [call.occasion] := by
  rw [occasionsOf_append, occasionsOf, occasionsOf, Session.ofCaller_cons_self]
  rfl

omit [View ρ] in
theorem occasionsOf_concat_of_ne {owner other : ι} (h : other ≠ owner)
    (calls : List (ι × Call ρ σ α)) (call : Call ρ σ α) :
    occasionsOf owner (calls ++ [(other, call)]) = occasionsOf owner calls := by
  rw [occasionsOf_append, occasionsOf, occasionsOf, Session.ofCaller_cons_of_ne h]
  exact List.append_nil _

omit [View ρ] in
theorem answersOf_concat_self (owner : ι) (log : List ((ι × Call ρ σ α) × Traced (Outcome α)))
    (call : Call ρ σ α) (answer : Traced (Outcome α)) :
    answersOf owner (log ++ [((owner, call), answer)]) = answersOf owner log ++ [answer] := by
  rw [answersOf, List.map_append, Session.ofCaller_append]
  exact congrArg _ (Session.ofCaller_cons_self owner answer [])

omit [View ρ] in
theorem answersOf_concat_of_ne {owner other : ι} (h : other ≠ owner)
    (log : List ((ι × Call ρ σ α) × Traced (Outcome α))) (call : Call ρ σ α)
    (answer : Traced (Outcome α)) :
    answersOf owner (log ++ [((other, call), answer)]) = answersOf owner log := by
  rw [answersOf, List.map_append, Session.ofCaller_append]
  exact (congrArg _ (Session.ofCaller_cons_of_ne h answer [])).trans (List.append_nil _)

/-- Gates that share a trigger, after calls at ticks that are fresh to each of them: what a gate
holds depends on its own occasions alone, and so does in which way its calls end. -/
structure Shares (trigger : Trigger) (calls : List (ι × Call ρ σ α))
    (log : List ((ι × Call ρ σ α) × Traced (Outcome α))) (gates : ι → Gate) : Prop where
  gates (owner : ι) : gates owner = settleEach trigger (occasionsOf owner calls)
  fired (owner : ι) : (answersOf owner log).map (fun answer => answer.value.isFired) =
    (occasionsOf owner calls).map trigger.enables
  suppressed (owner : ι) : (answersOf owner log).map (fun answer => answer.value.isSuppressed) =
    (occasionsOf owner calls).map fun occasion => !trigger.enables occasion

theorem isFired_answer (trigger : Trigger) (host : σ) (call : Call ρ σ α) :
    let answer := Outcome.ofResult? <$> (trigger.perform host call).1
    answer.value.isFired = trigger.enables call.occasion ∧
      answer.value.isSuppressed = !trigger.enables call.occasion := by
  intro answer
  have hanswer : answer = trigger.answerAt call.occasion (call.action host).events
      (.fired (call.action host).value.1) .suppressed := by
    show Outcome.ofResult? <$> (trigger.perform host call).1 = _
    rw [Trigger.perform_eq, Trigger.map_answerAt]
    rfl
  rw [hanswer, Trigger.answerAt]
  cases trigger.enables call.occasion with
  | true => exact ⟨rfl, rfl⟩
  | false => exact ⟨rfl, rfl⟩

theorem Shares.concat {calls : List (ι × Call ρ σ α)}
    {log : List ((ι × Call ρ σ α) × Traced (Outcome α))} {gates : ι → Gate}
    (h : Shares trigger calls log gates) {owner : ι} {call : Call ρ σ α}
    (hfresh : trigger.FreshTicks (occasionsOf owner (calls ++ [(owner, call)]))) (host : σ) :
    Shares trigger (calls ++ [(owner, call)])
      (log ++ [((owner, call), (performShared (gates, host) (owner, call)).1)])
      (performShared (gates, host) (owner, call)).2.1 := by
  have hcall := perform_settleEach call (occasionsOf_concat_self owner calls call ▸ hfresh) host
  rw [← h.gates owner] at hcall
  have hanswer : (performShared (gates, host) (owner, call)).1 =
      Outcome.ofResult? <$> (trigger.perform host call).1 := congrArg Prod.fst hcall
  have hafter : (performShared (gates, host) (owner, call)).2.1 =
      Function.update gates owner
        (settleEach trigger (occasionsOf owner (calls ++ [(owner, call)]))) := by
    rw [occasionsOf_concat_self]
    exact congrArg (Function.update gates owner) (congrArg (fun ended => ended.2.1) hcall)
  obtain ⟨hfired, hsuppressed⟩ := isFired_answer trigger host call
  rw [hanswer, hafter]
  constructor
  all_goals
    intro other
    by_cases hother : owner = other
  · subst hother
    exact Function.update_self ..
  · rw [Function.update_of_ne (Ne.symm hother), occasionsOf_concat_of_ne hother]
    exact h.gates other
  · subst hother
    rw [answersOf_concat_self, occasionsOf_concat_self, List.map_append, List.map_append,
      h.fired, List.map_singleton, hfired]
    rfl
  · rw [answersOf_concat_of_ne hother, occasionsOf_concat_of_ne hother]
    exact h.fired other
  · subst hother
    rw [answersOf_concat_self, occasionsOf_concat_self, List.map_append, List.map_append,
      h.suppressed, List.map_singleton, hsuppressed]
    rfl
  · rw [answersOf_concat_of_ne hother, occasionsOf_concat_of_ne hother]
    exact h.suppressed other

theorem shares_session {calls : List (ι × Call ρ σ α)}
    (h : ∀ owner, trigger.FreshTicks (occasionsOf owner calls)) (host : σ) :
    let new : (ι → Gate) × σ := (fun _ => { trigger }, host)
    Shares trigger calls (Session.log performShared new calls)
      (Session.final performShared new calls).1 := by
  intro new
  induction calls using List.reverseRecOn with
  | nil => exact ⟨fun _ => rfl, fun _ => rfl, fun _ => rfl⟩
  | append_singleton calls call ih =>
      obtain ⟨owner, call⟩ := call
      have hearlier : ∀ owner, trigger.FreshTicks (occasionsOf owner calls) := by
        intro other
        have hother := h other
        rw [occasionsOf_append] at hother
        exact hother.of_append
      rw [Session.log_concat, Session.final_concat]
      exact (ih hearlier).concat (h owner) (Session.final performShared new calls).2

omit [View ρ] in
/-- Up to any point of an order of calls, a gate has seen as many occasions as it had calls. -/
theorem occasionsOf_front {owner : ι} {front back : List (ι × Call ρ σ α)}
    (h : occasionsOf owner (front ++ back) = occasions) :
    occasionsOf owner front = occasions.take (Session.ofCaller owner front).length := by
  have hlength : (occasionsOf owner front).length = (Session.ofCaller owner front).length :=
    List.length_map _
  rw [← h, occasionsOf_append, ← hlength, List.take_left]

/-- Called once at each occasion, all gates fire at it or all are suppressed. -/
theorem Shares.outcomes {calls : List (ι × Call ρ σ α)}
    {log : List ((ι × Call ρ σ α) × Traced (Outcome α))} {gates : ι → Gate}
    (h : Shares trigger calls log gates) (hcalls : ∀ owner, occasionsOf owner calls = occasions)
    {n : ℕ} {occasion : Occasion ρ} (hn : occasions[n]? = some occasion) :
    (∀ owner, ∃ answer, (answersOf owner log)[n]? = some answer ∧ answer.value.isFired = true) ∨
      ∀ owner, ∃ answer, (answersOf owner log)[n]? = some answer ∧
        answer.value.isSuppressed = true := by
  cases henables : trigger.enables occasion with
  | true =>
      left
      intro owner
      have hfired := congrArg (fun list => list[n]?) (h.fired owner)
      simp only [List.getElem?_map, hcalls owner, hn, Option.map_some, henables] at hfired
      exact Option.map_eq_some_iff.1 hfired
  | false =>
      right
      intro owner
      have hsuppressed := congrArg (fun list => list[n]?) (h.suppressed owner)
      simp only [List.getElem?_map, hcalls owner, hn, Option.map_some, henables,
        Bool.not_false] at hsuppressed
      exact Option.map_eq_some_iff.1 hsuppressed

/-- At any point, gates that have been called equally often hold the same. -/
theorem gates_eq_of_length_eq {front back : List (ι × Call ρ σ α)}
    (hcalls : ∀ owner, occasionsOf owner (front ++ back) = occasions)
    (hfresh : trigger.FreshTicks occasions) (host : σ) {left right : ι}
    (hlength : (Session.ofCaller left front).length = (Session.ofCaller right front).length) :
    let gates := (Session.final performShared ((fun _ => ({ trigger } : Gate)), host) front).1
    gates left = gates right := by
  intro gates
  have hfront : ∀ owner, trigger.FreshTicks (occasionsOf owner front) := by
    intro owner
    rw [occasionsOf_front (hcalls owner)]
    exact hfresh.take _
  have hshares := shares_session hfront host
  simp only [gates]
  rw [hshares.gates left, hshares.gates right, occasionsOf_front (hcalls left),
    occasionsOf_front (hcalls right), hlength]

end Shared

/-! ## Ticks that have fired -/

theorem fireStored_of_lastFired {gated : GatedAction σ} {tick : Tick}
    (h : gated.gate.lastFired = some tick) (view : ρ) (host : σ) :
    gated.fireStored view tick host =
      pure (.alreadyFired,
        { gated with gate := { gated.gate with counts := gated.gate.counts.countRepeated } },
        host) := by
  rw [GatedAction.fireStored_eq, fire_of_lastFired h, map_pure]

/-- Ticks are fresh as long as none is the tick in which the trigger last decided true; ticks that
always grow are.  At fresh ticks, a gate that is given an action, one that holds it, and the trigger
alone run it at the same occasions, which are those at which the trigger decides true, in their
order and at their ticks; so they leave the same host, and they answer alike.  Gates that share the
trigger and are called once at each occasion, in any interleaving and with any actions, all fire at
an occasion or are all suppressed, and gates that have been called equally often hold the same.
Called in the tick that it fired last, a gate runs nothing, whatever the trigger decides. -/
theorem call_forms_agree (trigger : Trigger) :
    (∀ occasions : List (Occasion ρ), (occasions.map Occasion.tick).Pairwise (· < ·) →
      trigger.FreshTicks occasions) ∧
    (∀ (occasions : List (Occasion ρ)) (action : Tick → σ → Traced (α × σ)) (host : σ),
      trigger.FreshTicks occasions →
      let calls := occasions.map (Occasion.call action)
      let given := (({ trigger } : Gate), host)
      let stored := (GatedAction.ofGate { trigger } action, host)
      (∀ n,
        let after := ((occasions.take n).filter trigger.enables).foldl
          (fun host occasion => (action occasion.tick host).value.2) host
        (Session.final perform given (calls.take n)).2 = after ∧
        (Session.final GatedAction.perform stored (occasions.take n)).2 = after ∧
        Session.final trigger.perform host (calls.take n) = after) ∧
      (∀ (n : ℕ) occasion, occasions[n]? = some occasion →
        let ran := action occasion.tick (Session.final trigger.perform host (calls.take n))
        (Session.log perform given calls)[n]? = some (occasion.call action,
          trigger.answerAt occasion ran.events (.fired ran.value.1) .suppressed) ∧
        (Session.log GatedAction.perform stored occasions)[n]? = some (occasion,
          trigger.answerAt occasion ran.events (.fired ()) .suppressed) ∧
        (Session.log trigger.perform host calls)[n]? = some (occasion.call action,
          trigger.answerAt occasion ran.events (some ran.value.1) none)) ∧
      (Session.log perform given calls).map (fun entry => entry.2.value.result?) =
        (Session.log trigger.perform host calls).map fun entry => entry.2.value) ∧
    (∀ {ι : Type} [DecidableEq ι] (occasions : List (Occasion ρ)) (calls : List (ι × Call ρ σ α))
      (host : σ), trigger.FreshTicks occasions →
      (∀ owner, occasionsOf owner calls = occasions) →
      let new : (ι → Gate) × σ := (fun _ => { trigger }, host)
      let log := Session.log performShared new calls
      (∀ (n : ℕ) occasion, occasions[n]? = some occasion →
        (∀ owner, ∃ answer, (answersOf owner log)[n]? = some answer ∧
          answer.value.isFired = true) ∨
        (∀ owner, ∃ answer, (answersOf owner log)[n]? = some answer ∧
          answer.value.isSuppressed = true)) ∧
      ∀ front back left right, calls = front ++ back →
        (Session.ofCaller left front).length = (Session.ofCaller right front).length →
        let gates := (Session.final performShared new front).1
        gates left = gates right) ∧
    (∀ (gate : Gate) (view : ρ) (tick : Tick) (action : σ → Traced (α × σ)) (host : σ),
      gate.lastFired = some tick →
      gate.fire view tick action host =
        pure (.alreadyFired, { gate with counts := gate.counts.countRepeated }, host)) ∧
    (∀ (gated : GatedAction σ) (view : ρ) (tick : Tick) (host : σ),
      gated.gate.lastFired = some tick →
      gated.fireStored view tick host =
        pure (.alreadyFired,
          { gated with gate := { gated.gate with counts := gated.gate.counts.countRepeated } },
          host)) := by
  refine ⟨fun _ => Trigger.freshTicks_of_ascending, ?_, ?_, ?_, ?_⟩
  · intro occasions action host hfresh calls given stored
    have htake : ∀ n, calls.take n = (occasions.take n).map (Occasion.call action) :=
      fun n => List.map_take.symm
    refine ⟨?_, ?_, results_eq action host hfresh⟩
    · intro n after
      rw [htake, final_perform action host (hfresh.take n),
        final_perform_ofGate action host (hfresh.take n), final_trigger_perform]
      exact ⟨rfl, rfl, rfl⟩
    · intro n occasion hn
      rw [htake, final_trigger_perform]
      exact answers_getElem? action host hfresh hn
  · intro ι _ occasions calls host hfresh hcalls new log
    constructor
    · intro n occasion hn
      have hshares : Shares trigger calls log (Session.final performShared new calls).1 := by
        apply shares_session
        intro owner
        rw [hcalls owner]
        exact hfresh
      exact hshares.outcomes hcalls hn
    · intro front back left right hsplit hlength
      subst hsplit
      exact gates_eq_of_length_eq hcalls hfresh host hlength
  · intro gate view tick action host hlast
    exact fire_of_lastFired hlast view action host
  · intro gated view tick host hlast
    exact fireStored_of_lastFired hlast view host

/-- A tick that fires again after another, two gates of which one is ahead of the other, and a gate
in the tick that it fired last.  The action notes its ticks in the host. -/
theorem call_forms_agree_of_revisit :
    let trigger := Trigger.level "a"
    let silent : Occasion Snapshot := ⟨.ofTick 1, 1⟩
    let first : Occasion Snapshot := ⟨(Snapshot.ofTick 1).insert "a" true, 1⟩
    let second : Occasion Snapshot := ⟨(Snapshot.ofTick 2).insert "a" true, 2⟩
    let occasions := [silent, first, second, first]
    let note : Tick → List Tick → Traced (ℕ × List Tick) :=
      fun tick ticks => pure (ticks.length, ticks ++ [tick])
    let calls := occasions.map (Occasion.call note)
    let order : List (Bool × Call Snapshot (List Tick) ℕ) :=
      (calls.take 2).map (Prod.mk false) ++
        (calls.map (Prod.mk true) ++ (calls.drop 2).map (Prod.mk false))
    let new : (Bool → Gate) × List Tick := (fun _ => { trigger }, [])
    let fired : Gate := { trigger, lastFired := some 1 }
    trigger.FreshTicks [silent, second] ∧
    (Session.log perform (({ trigger } : Gate), []) calls).map
        (fun entry => entry.2.value.result?) =
      [none, some 0, some 1, some 2] ∧
    (Session.final GatedAction.perform (GatedAction.ofGate { trigger } note, []) occasions).2 =
      [1, 2, 1] ∧
    (∀ owner, ∃ answer, (answersOf owner (Session.log performShared new order))[2]? = some answer ∧
      answer.value.isFired = true) ∧
    (Session.final performShared new (order.take 4)).1 false =
      (Session.final performShared new (order.take 4)).1 true ∧
    (fired.fire silent.view 1 (note 1) []).value.1 = .alreadyFired ∧
    ((GatedAction.ofGate fired note).fireStored first.view 1 []).value.2.2 = [] := by
  intro trigger silent first second occasions note calls order new fired
  obtain ⟨hascending, hforms, hshared, hrepeated, hstored⟩ :=
    call_forms_agree (ρ := Snapshot) (σ := List Tick) (α := ℕ) trigger
  have hfresh : trigger.FreshTicks occasions := by
    intro n occasion hn
    rcases n with _ | _ | _ | _ | n
    all_goals cases hn
    all_goals decide
  have hcalls : ∀ owner, occasionsOf owner order = occasions := by
    intro owner
    cases owner <;> rfl
  obtain ⟨hhosts, -, hresults⟩ := hforms occasions note [] hfresh
  obtain ⟨houtcomes, hgates⟩ := hshared occasions order [] hfresh hcalls
  refine ⟨hascending _ (by decide), hresults.trans (by decide), ?_, ?_, ?_, ?_, ?_⟩
  · exact (hhosts 4).2.1
  · refine (houtcomes 2 second rfl).resolve_right ?_
    intro hsuppressed
    obtain ⟨answer, hanswer, hvalue⟩ := hsuppressed false
    cases hanswer
    exact absurd hvalue (by decide)
  · exact hgates (order.take 4) (order.drop 4) false true rfl rfl
  · rw [hrepeated fired silent.view 1 (note 1) [] rfl]
    rfl
  · rw [hstored (GatedAction.ofGate fired note) first.view 1 [] rfl]
    rfl

end Gate
end TickGate
