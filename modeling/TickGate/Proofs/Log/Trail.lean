import TickGate.Proofs.Freshness

/-!
# What a run leaves behind

A run ends in one state and reports one list of events.  Its trail takes both apart: the steps
that were completed, each with the states on its two sides and with the events that it reported.
`Registry.Script.exists_trail` and `Barrier.exists_trail` say that every run has a trail.  Whatever
holds of single steps and can be put together is then proved by induction over trails.
-/

namespace TickGate

/-- A completed step, with the states on its two sides and the events that it reported. -/
structure Done (σ α : Type) where
  before : σ
  step : α
  events : List Event
  after : σ

namespace Done

variable {σ α : Type}

/-- The events that steps reported, in order. -/
def log (trail : List (Done σ α)) : List Event := trail.flatMap Done.events

@[simp] theorem log_nil : log ([] : List (Done σ α)) = [] := rfl

@[simp] theorem log_cons (done : Done σ α) (trail : List (Done σ α)) :
    log (done :: trail) = done.events ++ log trail := rfl

@[simp] theorem log_append (front back : List (Done σ α)) :
    log (front ++ back) = log front ++ log back := List.flatMap_append

end Done

/-- Steps that follow one another from one state to another.  What a step may do is given as a
relation between the state before, the step, its events and the state after. -/
inductive Trail {σ α : Type} (Takes : σ → α → List Event → σ → Prop) :
    σ → List (Done σ α) → σ → Prop
  | nil (state : σ) : Trail Takes state [] state
  | cons {before middle after : σ} {step : α} {events : List Event} {rest : List (Done σ α)}
      (first : Takes before step events middle) (later : Trail Takes middle rest after) :
      Trail Takes before (⟨before, step, events, middle⟩ :: rest) after

namespace Trail

variable {σ α : Type} {Takes : σ → α → List Event → σ → Prop}

theorem append {before middle after : σ} {front back : List (Done σ α)}
    (hfront : Trail Takes before front middle) (hback : Trail Takes middle back after) :
    Trail Takes before (front ++ back) after := by
  induction hfront with
  | nil state => exact hback
  | cons first later ih => exact .cons first (ih hback)

theorem single {before after : σ} {step : α} {events : List Event}
    (h : Takes before step events after) :
    Trail Takes before [⟨before, step, events, after⟩] after :=
  .cons h (.nil after)

/-- A trail up to one of its steps is a trail to the state after that step. -/
theorem upTo {before after : σ} {front back : List (Done σ α)} {done : Done σ α}
    (h : Trail Takes before (front ++ done :: back) after) :
    Trail Takes before (front ++ [done]) done.after := by
  induction front generalizing before with
  | nil =>
      cases h with
      | cons first later => exact single first
  | cons head front ih =>
      cases h with
      | cons first later => exact .cons first (ih later)

theorem takes_of_mem {before after : σ} {trail : List (Done σ α)}
    (h : Trail Takes before trail after) {done : Done σ α} (hmem : done ∈ trail) :
    Takes done.before done.step done.events done.after := by
  induction h with
  | nil state => exact nomatch hmem
  | cons first later ih =>
      rcases List.mem_cons.mp hmem with rfl | hlater
      · exact first
      · exact ih hlater

/-- What every step keeps, a trail keeps. -/
theorem invariant {P : σ → Prop} {before after : σ} {trail : List (Done σ α)}
    (hkeeps : ∀ {before step events after}, Takes before step events after → P before → P after)
    (h : Trail Takes before trail after) (hbefore : P before) : P after := by
  induction h with
  | nil state => exact hbefore
  | cons first later ih => exact ih (hkeeps first hbefore)

end Trail

/-- The trail of a run that adds the steps it takes to a log. -/
structure LeavesTrail {σ α : Type} (Takes : σ → α → List Event → σ → Prop) (before : σ)
    (log : List α) (out : Traced (σ × List α)) (trail : List (Done σ α)) : Prop where
  takes : Trail Takes before trail out.value.1
  steps : out.value.2 = log ++ trail.map Done.step
  events : out.events.toList = Done.log trail

namespace LeavesTrail

variable {σ α : Type} {Takes : σ → α → List Event → σ → Prop} {before : σ} {log : List α}

theorem nil : LeavesTrail Takes before log (pure (before, log)) [] where
  takes := .nil before
  steps := (List.append_nil log).symm
  events := rfl

theorem single {after : σ} {step : α} {events : Array Event}
    (h : Takes before step events.toList after) :
    LeavesTrail Takes before log { value := (after, log ++ [step]), events }
      [⟨before, step, events.toList, after⟩] where
  takes := .single h
  steps := rfl
  events := (List.append_nil events.toList).symm

theorem append {first second : Traced (σ × List α)} {front back : List (Done σ α)}
    (hfront : LeavesTrail Takes before log first front)
    (hback : LeavesTrail Takes first.value.1 first.value.2 second back) :
    LeavesTrail Takes before log
      { value := second.value, events := first.events ++ second.events } (front ++ back) where
  takes := hfront.takes.append hback.takes
  steps := by rw [hback.steps, hfront.steps, List.map_append, List.append_assoc]
  events := by rw [Array.toList_append, hfront.events, hback.events, Done.log_append]

end LeavesTrail

/-! ## Registries -/

namespace Registry

/-- A completed step on a registry.  The decision of a tick is one step, or the failure where the
tick is not decided; the beginning of the tick and its publishing are steps of their own. -/
inductive Takes : Registry → Step → List Event → Registry → Prop
  | called (registry : Registry) (request : Call) :
      Takes registry (.called (request, (registry.make request).value.1))
        (registry.make request).events.toList (registry.make request).value.2
  | asked (registry : Registry) (question : Question) :
      Takes registry (.asked question (registry.ask question).value)
        (registry.ask question).events.toList registry
  | failed (registry : Registry) (tick : Tick) (fault : Fault) :
      Takes registry (.ran tick (.error fault)) [] registry
  | decided (registry : Registry) (tick : Tick) (deciding : Inquiry) :
      Takes registry (.ran tick (.ok (deciding.replies registry).value))
        (deciding.replies registry).events.toList registry

theorem inspect_events (deciding : Inquiry) (registry : Registry) (log : List Step) :
    (inspect deciding registry log).events = (deciding.replies registry).events := by
  simp [inspect]

/-- Every run of a script has a trail. -/
theorem Script.exists_trail (script : Script) (registry : Registry) (log : List Step) :
    let out := script.run registry log
    ∃ trail,
      LeavesTrail Takes registry log { value := out.value.2, events := out.events } trail := by
  induction script generalizing registry log with
  | finish result => exact ⟨[], LeavesTrail.nil⟩
  | call request next ih =>
      obtain ⟨rest, hrest⟩ := ih (registry.make request).value.1 (registry.make request).value.2
        (log ++ [.called (request, (registry.make request).value.1)])
      exact ⟨_, (LeavesTrail.single (.called registry request)).append hrest⟩
  | ask question next ih =>
      obtain ⟨rest, hrest⟩ := ih (registry.ask question).value registry
        (log ++ [.asked question (registry.ask question).value])
      exact ⟨_, (LeavesTrail.single (.asked registry question)).append hrest⟩
  | runTick tick publishing deciding next ihp ihn =>
      let opened := log ++ [.called (.beginTick tick, .begun)]
      let published := publishing.run (registry.beginTick tick).value opened
      obtain ⟨inner, hinner⟩ := ihp (registry.beginTick tick).value opened
      have hbegun : LeavesTrail Takes registry log
          { value := ((registry.beginTick tick).value, opened)
            events := (registry.beginTick tick).events } _ :=
        LeavesTrail.single (.called registry (.beginTick tick))
      have hpublished := hbegun.append hinner
      have hran : ∃ trail, LeavesTrail Takes registry log
          (let out := registry.runTick tick publishing.run (inspect deciding) opened
           { value := (out.value.2.1, out.value.2.2 ++ [.ran tick out.value.1])
             events := out.events }) trail := by
        rcases runTick_cases registry tick publishing.run (inspect deciding) opened with
          ⟨fault, hout⟩ | hout
        · have hfailed : LeavesTrail Takes published.value.2.1 published.value.2.2
              { value := (published.value.2.1, published.value.2.2 ++ [.ran tick (.error fault)])
                events := #[] } _ :=
            .single (.failed published.value.2.1 tick fault)
          have hended := hpublished.append hfailed
          rw [Array.append_empty] at hended
          rw [hout]
          exact ⟨_, hended⟩
        · have hdecided := hpublished.append (.single (.decided published.value.2.1 tick deciding))
          rw [hout, inspect_events]
          exact ⟨_, hdecided⟩
      obtain ⟨trail, htrail⟩ := hran
      obtain ⟨rest, hrest⟩ := ihn _ _ _
      exact ⟨trail ++ rest, htrail.append hrest⟩

end Registry

/-! ## Barriers -/

namespace Barrier

/-- A completed step on a barrier. -/
inductive Takes : Barrier → Act × Reaction → List Event → Barrier → Prop
  | called (barrier : Barrier) (request : Call) :
      Takes barrier (.call request, .answered (barrier.make request).value.1)
        (barrier.make request).events.toList (barrier.make request).value.2
  | asked (barrier : Barrier) (question : Question) :
      Takes barrier (.ask question, .replied (barrier.ask question).value)
        (barrier.ask question).events.toList barrier

/-- Every run of a host has a trail. -/
theorem exists_trail (barrier : Barrier) (acts : List Act) :
    let out := barrier.play acts
    ∃ trail, Trail Takes barrier trail out.value.2 ∧
      trail.map (fun done => done.step.1) = acts ∧
      trail.map (fun done => done.step.2) = out.value.1 ∧
      out.events.toList = Done.log trail := by
  induction acts generalizing barrier with
  | nil => exact ⟨[], .nil barrier, rfl, rfl, rfl⟩
  | cons act acts ih =>
      cases act with
      | call request =>
          obtain ⟨rest, htrail, hacts, hreactions, hevents⟩ := ih (barrier.make request).value.2
          refine ⟨_, .cons (.called barrier request) htrail, ?_, ?_, ?_⟩
          · rw [List.map_cons, hacts]
          · rw [List.map_cons, hreactions]
            rfl
          · rw [Done.log_cons, ← hevents]
            simp [play]
      | ask question =>
          obtain ⟨rest, htrail, hacts, hreactions, hevents⟩ := ih barrier
          refine ⟨_, .cons (.asked barrier question) htrail, ?_, ?_, ?_⟩
          · rw [List.map_cons, hacts]
          · rw [List.map_cons, hreactions]
            rfl
          · rw [Done.log_cons, ← hevents]
            simp [play]

end Barrier
end TickGate
