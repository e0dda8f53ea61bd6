import TickGate.Proofs.Registry.Growth
import TickGate.Trigger

/-!
# What a host does with a registry

A host makes calls, asks questions and runs ticks.  It may choose each step by the answers so far,
and what it does in the publishing phase of a tick is of the same kind.  A `Script` is all of this
as data.  Running ticks adds nothing to what calls can do to a registry: the calls that a script
makes, those within ticks and the beginnings of these ticks among them, form one session, which is
`Script.leads`.
-/

namespace TickGate
namespace Registry

/-- A call with its answer. -/
abbrev Entry := Call × Answer

/-- What can be asked of a registry. -/
inductive Question where
  | currentTick
  | snapshot
  | read (id : SourceId)
  | readAt (tick : Tick) (id : SourceId)
  | missing
  | isComplete
  | decide (trigger : Trigger) (tick : Tick)

/-- The reply to a question. -/
inductive Reply where
  | tick (current : Option Tick)
  | snapshot (snapshot : Snapshot)
  | value (value : Option Bool)
  | sources (ids : List SourceId)
  | truth (holds : Bool)
  deriving DecidableEq

def ask (registry : Registry) : Question → Traced Reply
  | .currentTick => pure (.tick registry.currentTick)
  | .snapshot => pure (.snapshot registry.snapshot)
  | .read id => pure (.value (registry.read id))
  | .readAt tick id => pure (.value (View.readAt registry tick id))
  | .missing => pure (.sources registry.missing)
  | .isComplete => pure (.truth registry.isComplete)
  | .decide trigger tick => do
    let decision ← trigger.decide registry tick
    pure (.truth decision)

/-- The questions that a host asks in the deciding phase of a tick. -/
inductive Inquiry where
  | finish
  | ask (question : Question) (next : Reply → Inquiry)

/-- The replies that an inquiry gets, in order. -/
def Inquiry.replies : Inquiry → Registry → Traced (List Reply)
  | finish, _ => pure []
  | ask question next, registry => do
    let reply ← registry.ask question
    let replies ← (next reply).replies registry
    pure (reply :: replies)

/-- The steps that a host takes.  The last one says how a publishing phase ends. -/
inductive Script where
  | finish (result : Except Fault Unit)
  | call (request : Call) (next : Answer → Script)
  | ask (question : Question) (next : Reply → Script)
  /-- Runs a tick, whose publishing is a script and whose decision is what an inquiry gets. -/
  | runTick (tick : Tick) (publishing : Script) (deciding : Inquiry)
      (next : Except Fault (List Reply) → Script)

/-- A step that was taken, with what came of it. -/
inductive Step where
  | called (entry : Entry)
  | asked (question : Question) (reply : Reply)
  | ran (tick : Tick) (result : Except Fault (List Reply))

/-- The calls among some steps. -/
def Step.entry? : Step → Option Entry
  | called entry => some entry
  | _ => none

/-- An inquiry as the deciding phase of a tick. -/
def inspect (inquiry : Inquiry) (registry : Registry) (log : List Step) :
    Traced (List Reply × List Step) := do
  let replies ← inquiry.replies registry
  pure (replies, log)

namespace Script

/-- Takes the steps on a registry.  The steps taken are added to a log, within a tick as well; a
tick that is run counts as the call that begins it, followed by the steps of its publishing. -/
def run : Script → Registry → List Step → Traced (Except Fault Unit × Registry × List Step)
  | finish result, registry, log => pure (result, registry, log)
  | call request next, registry, log => do
    let (answer, registry) ← registry.make request
    (next answer).run registry (log ++ [.called (request, answer)])
  | ask question next, registry, log => do
    let reply ← registry.ask question
    (next reply).run registry (log ++ [.asked question reply])
  | runTick tick publishing deciding next, registry, log => do
    let (result, registry, log) ←
      registry.runTick tick (fun registry log => publishing.run registry log) (inspect deciding)
        (log ++ [.called (.beginTick tick, .begun)])
    (next result).run registry (log ++ [.ran tick result])

/-- The publishing phase that makes calls in order and stops at the first fault. -/
def inOrder : List Call → Script
  | [] => finish (.ok ())
  | request :: requests => call request fun
    | .published (.error fault) => finish (.error fault)
    | _ => inOrder requests

/-- The calls that a script makes on a registry, with their answers. -/
def entries (script : Script) (registry : Registry) : List Entry :=
  (script.run registry []).value.2.2.filterMap Step.entry?

/-- The registry that a script leaves. -/
def final (script : Script) (registry : Registry) : Registry :=
  (script.run registry []).value.2.1

end Script

/-! ## Running a tick -/

section RunTick

variable {σ ρ : Type} (registry : Registry) (tick : Tick)
  (publish : Registry → σ → Traced (Except Fault Unit × Registry × σ))
  (decide : Registry → σ → Traced (ρ × σ)) (host : σ)

/-- A tick either fails, with no events after those of its publishing, or is decided over the
registry that the publishing left. -/
theorem runTick_cases :
    let published := publish (registry.beginTick tick).value host
    let events := (registry.beginTick tick).events ++ published.events
    let out := registry.runTick tick publish decide host
    (∃ fault, out = { value := (.error fault, published.value.2), events }) ∨
    (let decided := decide published.value.2.1 published.value.2.2
     out =
      { value := (.ok decided.value.1, published.value.2.1, decided.value.2)
        events := events ++ decided.events }) := by
  intro published events out
  rcases hpublished : published.value with ⟨answer, next, after⟩
  cases answer with
  | error fault =>
      left
      exact ⟨fault, Traced.ext (by simp [out, runTick, published, hpublished])
        (by simp [out, runTick, published, hpublished, events])⟩
  | ok =>
      cases hmissing : next.missing with
      | nil =>
          right
          exact Traced.ext (by simp [out, runTick, published, hpublished, hmissing])
            (by simp [out, runTick, published, hpublished, hmissing, events])
      | cons first rest =>
          left
          exact ⟨_, Traced.ext (by simp [out, runTick, published, hpublished, hmissing]; rfl)
            (by simp [out, runTick, published, hpublished, hmissing, events])⟩

/-- Whatever is decided, a tick leaves the registry as its publishing left it. -/
theorem runTick_value_registry :
    (registry.runTick tick publish decide host).value.2.1 =
      (publish (registry.beginTick tick).value host).value.2.1 := by
  rcases runTick_cases registry tick publish decide host with ⟨fault, hout⟩ | hout
  · rw [hout]
  · rw [hout]

/-- If deciding does not change the host, it is left so too. -/
theorem runTick_value_snd (hdecide : ∀ registry host, (decide registry host).value.2 = host) :
    (registry.runTick tick publish decide host).value.2 =
      (publish (registry.beginTick tick).value host).value.2 := by
  rcases runTick_cases registry tick publish decide host with ⟨fault, hout⟩ | hout
  · rw [hout]
  · rw [hout, hdecide]

end RunTick

/-! ## A script as a session -/

/-- The calls in what was added to a log lead from one registry to the other. -/
def Extends (before after : Registry × List Step) : Prop :=
  ∃ steps, after.2 = before.2 ++ steps ∧
    Session.Leads perform before.1 (steps.filterMap Step.entry?) after.1

namespace Extends

theorem refl (state : Registry × List Step) : Extends state state :=
  ⟨[], (List.append_nil state.2).symm, Session.leads_nil perform state.1⟩

theorem trans {first second third : Registry × List Step} (hfirst : Extends first second)
    (hsecond : Extends second third) : Extends first third := by
  obtain ⟨front, hfront, hleads⟩ := hfirst
  obtain ⟨back, hback, hrest⟩ := hsecond
  refine ⟨front ++ back, ?_, ?_⟩
  · rw [hback, hfront, List.append_assoc]
  · rw [List.filterMap_append]
    exact hleads.append perform hrest

theorem called (registry : Registry) (log : List Step) (request : Call) :
    Extends (registry, log)
      ((registry.perform request).2,
        log ++ [.called (request, (registry.perform request).1)]) := by
  refine ⟨_, rfl, ?_⟩
  exact (Session.leads_nil perform _).cons perform

theorem of_entry?_eq_none (registry : Registry) (log : List Step) {step : Step}
    (h : step.entry? = none) : Extends (registry, log) (registry, log ++ [step]) := by
  refine ⟨_, rfl, ?_⟩
  rw [List.filterMap_cons_none h]
  exact Session.leads_nil perform registry

end Extends

namespace Script

theorem extends_run (script : Script) (registry : Registry) (log : List Step) :
    Extends (registry, log) (script.run registry log).value.2 := by
  induction script generalizing registry log with
  | finish result => exact Extends.refl (registry, log)
  | call request next ih =>
      have hcalled := Extends.called registry log request
      rw [← make_value] at hcalled
      exact hcalled.trans (ih _ _ _)
  | ask question next ih =>
      exact (Extends.of_entry?_eq_none registry log rfl).trans (ih _ _ _)
  | runTick tick publishing deciding next ihp ihn =>
      have hbegun := Extends.called registry log (.beginTick tick)
      have hpublished := hbegun.trans (ihp _ _)
      have hsame := runTick_value_snd registry tick publishing.run (inspect deciding)
        (log ++ [.called (.beginTick tick, .begun)]) (fun _ _ => rfl)
      have hran : Extends (registry, log)
          (registry.runTick tick publishing.run (inspect deciding)
            (log ++ [.called (.beginTick tick, .begun)])).value.2 := by
        rw [hsame]
        exact hpublished
      exact (hran.trans (Extends.of_entry?_eq_none _ _ rfl)).trans (ihn _ _ _)

/-- The calls of a script, those within the ticks that it runs and the beginnings of these ticks
among them, are a session that leads to the registry that the script leaves. -/
theorem leads (script : Script) (registry : Registry) :
    Session.Leads perform registry (script.entries registry) (script.final registry) := by
  obtain ⟨steps, hlog, hleads⟩ := extends_run script registry []
  rw [List.nil_append] at hlog
  rw [entries, hlog]
  exact hleads

end Script

end Registry
end TickGate
