import Mathlib.Logic.Function.Basic
import TickGate.Proofs.Registry.Script
import TickGate.Proofs.Source.Recording

/-!
# When a tick is decided

What a host does in the publishing phase of a tick is its own affair.  It may declare sources, fail
after some publishes or begin a tick again.  A `Publishing` is all of this as data.  Whatever it
does, the tick is decided if and only if it succeeds and every source that is expected by then has
published since a tick began last.
-/

namespace TickGate
namespace Registry

/-- The fault that a call was answered with. -/
def Answer.fault? : Answer → Option Fault
  | published (.error fault) => some fault
  | _ => none

/-! ## Publishing phases -/

/-- What a host has done in a publishing phase. -/
structure Work (ι S : Type) where
  sources : ι → Source S
  /-- The calls made on the registry, with their answers. -/
  made : List Entry := []

/-- The steps of a publishing phase.  The host may look at the registry and its sources before
each of them, and the phase ends as the host says or with the first fault. -/
inductive Publishing (ι S : Type) where
  | finish (result : Except Fault Unit)
  | look (next : Registry → (ι → Source S) → Publishing ι S)
  | call (request : Call) (next : Publishing ι S)
  | publishSource (source : ι) (tick : Tick) (host : S) (next : Publishing ι S)

section Phases

variable {ι S : Type}

/-- Takes down a call with its answer. -/
def Work.takeDown (work : Work ι S) (entry : Entry) : Work ι S :=
  { work with made := work.made ++ [entry] }

/-- Takes down a call and goes on, unless the call failed. -/
def proceed (entry : Entry) (registry : Registry) (work : Work ι S)
    (rest : Registry → Work ι S → Traced (Except Fault Unit × Registry × Work ι S)) :
    Traced (Except Fault Unit × Registry × Work ι S) :=
  match entry.2.fault? with
  | some fault => pure (.error fault, registry, work.takeDown entry)
  | none => rest registry (work.takeDown entry)

/-- Takes the steps of a publishing phase. -/
def Publishing.run [DecidableEq ι] : Publishing ι S → Registry → Work ι S →
    Traced (Except Fault Unit × Registry × Work ι S)
  | finish result, registry, work => pure (result, registry, work)
  | look next, registry, work => (next registry work.sources).run registry work
  | call request next, registry, work => do
    let (answer, registry) ← registry.make request
    proceed (request, answer) registry work fun registry work => next.run registry work
  | publishSource source tick host next, registry, work => do
    let value := ((work.sources source).evaluate tick host).1
    let (result, moved, registry) ← (work.sources source).publish registry tick host
    proceed (.publish moved.id value, .published (result.map fun _ => ())) registry
      { work with sources := Function.update work.sources source moved }
      fun registry work => next.run registry work

/-- Only the last entry may be a fault, and a fault is the result. -/
def StopsAtFault (entries : List Entry) (result : Except Fault Unit) : Prop :=
  ∀ front entry back fault, entries = front ++ entry :: back → entry.2.fault? = some fault →
    back = [] ∧ result = .error fault

theorem StopsAtFault.nil (result : Except Fault Unit) : StopsAtFault [] result := by
  intro front entry back fault hsplit
  exact absurd hsplit.symm (List.append_ne_nil_of_right_ne_nil front (List.cons_ne_nil entry back))

theorem StopsAtFault.single {entry : Entry} {fault : Fault} (h : entry.2.fault? = some fault) :
    StopsAtFault [entry] (.error fault) := by
  intro front found back other hsplit hfault
  obtain ⟨rfl, hcons⟩ | ⟨rest, rfl, hrest⟩ := List.cons_eq_append_iff.1 hsplit
  · obtain ⟨rfl, rfl⟩ := List.cons.inj hcons
    rw [h] at hfault
    exact ⟨rfl, congrArg Except.error (Option.some.inj hfault)⟩
  · exact absurd hrest.symm (List.append_ne_nil_of_right_ne_nil rest (List.cons_ne_nil found back))

theorem StopsAtFault.cons {entry : Entry} {entries : List Entry} {result : Except Fault Unit}
    (hentry : entry.2.fault? = none) (h : StopsAtFault entries result) :
    StopsAtFault (entry :: entries) result := by
  intro front found back fault hsplit hfault
  obtain ⟨rfl, hcons⟩ | ⟨rest, rfl, hrest⟩ := List.cons_eq_append_iff.1 hsplit
  · obtain ⟨rfl, -⟩ := List.cons.inj hcons
    rw [hentry] at hfault
    exact nomatch hfault
  · exact h rest found back fault hrest hfault

/-- The calls taken down on the way lead from one registry to the other, and stop at a fault. -/
def Records (before : Registry × Work ι S) (out : Except Fault Unit × Registry × Work ι S) :
    Prop :=
  ∃ entries, out.2.2.made = before.2.made ++ entries ∧
    Session.Leads perform before.1 entries out.2.1 ∧ StopsAtFault entries out.1

theorem Records.refl (registry : Registry) (work : Work ι S) (result : Except Fault Unit) :
    Records (registry, work) (result, registry, work) :=
  ⟨[], (List.append_nil work.made).symm, Session.leads_nil perform registry, .nil result⟩

/-- The call of an entry is made and taken down, and what follows records its calls. -/
theorem records_proceed (request : Call) {registry : Registry} {before work : Work ι S}
    (hmade : work.made = before.made)
    {rest : Registry → Work ι S → Traced (Except Fault Unit × Registry × Work ι S)}
    (hrest : ∀ registry work, Records (registry, work) (rest registry work).value) :
    Records (registry, before)
      (proceed (request, (registry.perform request).1) (registry.perform request).2 work
        rest).value := by
  cases hanswer : (registry.perform request).1.fault? with
  | some fault =>
      rw [proceed, hanswer]
      refine ⟨[(request, (registry.perform request).1)], ?_, ?_, .single hanswer⟩
      · exact congrArg (· ++ _) hmade
      · exact (Session.leads_nil perform _).cons perform
  | none =>
      rw [proceed, hanswer]
      obtain ⟨entries, hentries, hleads, hstops⟩ := hrest (registry.perform request).2
        (work.takeDown (request, (registry.perform request).1))
      refine ⟨_, ?_, hleads.cons perform, .cons hanswer hstops⟩
      rw [hentries, Work.takeDown, hmade, ← List.append_cons]

variable [DecidableEq ι]

theorem map_unit_map (result : Except Fault Unit) (value : Bool) :
    (result.map fun _ => value).map (fun _ => ()) = result := by
  cases result <;> rfl

/-- A source that publishes makes the call that publishes its value. -/
theorem Publishing.run_publishSource_value (source : ι) (tick : Tick) (host : S)
    (next : Publishing ι S) (registry : Registry) (work : Work ι S) :
    let evaluated := (work.sources source).evaluate tick host
    let request := Call.publish (work.sources source).id evaluated.1
    ((publishSource source tick host next).run registry work).value =
      (proceed (request, (registry.perform request).1) (registry.perform request).2
        { work with sources := Function.update work.sources source evaluated.2 }
        next.run).value := by
  intro evaluated request
  rw [run, Traced.bind_value, Source.publish_value]
  simp only [map_unit_map, Source.evaluate_id]
  rfl

/-- What a publishing phase takes down is what it does to the registry, up to its first fault. -/
theorem Publishing.records_run (publishing : Publishing ι S) (registry : Registry)
    (work : Work ι S) :
    Records (registry, work) (publishing.run registry work).value := by
  induction publishing generalizing registry work with
  | finish result =>
      exact .refl registry work result
  | look next ih => exact ih registry work.sources registry work
  | call request next ih =>
      rw [run, Traced.bind_value, make_value]
      exact records_proceed request rfl ih
  | publishSource source tick host next ih =>
      rw [run_publishSource_value]
      exact records_proceed _ rfl ih

end Phases

/-! ## The registry that publishing leaves -/

section Left

variable {registry left : Registry} {tick : Tick} {entries : List Entry} {id : SourceId}

theorem mem_declared_perform (registry : Registry) (call : Call) :
    id ∈ (registry.perform call).2.declared.keys ↔
      call = .declare id ∨ id ∈ registry.declared.keys := by
  cases call with
  | declare other =>
      rw [perform, mem_declare]
      simp [eq_comm]
  | beginTick tick => simp [perform]
  | publish source value => simp [perform]

theorem mem_declared_final (registry : Registry) (calls : List Call) :
    id ∈ (Session.final perform registry calls).declared.keys ↔
      .declare id ∈ calls ∨ id ∈ registry.declared.keys := by
  induction calls generalizing registry with
  | nil => simp
  | cons call calls ih =>
      rw [Session.final_cons, ih, mem_declared_perform, List.mem_cons]
      tauto

/-- What is expected after the calls of a publishing phase. -/
theorem mem_declared_of_leads
    (h : Session.Leads perform (registry.beginTick tick).value entries left) :
    id ∈ left.declared.keys ↔
      id ∈ registry.declared.keys ∨ .declare id ∈ entries.map Prod.fst := by
  rw [← h.final, mem_declared_final, beginTick_declared, or_comm]

theorem tracks_of_leads
    (h : Session.Leads perform (registry.beginTick tick).value entries left) :
    let calls := .beginTick tick :: entries.map Prod.fst
    Tracks registry.duplicateRule (latestTick calls) (publishes calls) left := by
  have hbegun : Tracks registry.duplicateRule (latestTick [.beginTick tick])
      (publishes [.beginTick tick]) (registry.beginTick tick).value := Tracks.beginTick rfl tick
  have hleft := tracks_final hbegun (entries.map Prod.fst)
  rwa [h.final] at hleft

/-- The silent sources after the calls of a publishing phase. -/
theorem mem_missing_of_leads
    (h : Session.Leads perform (registry.beginTick tick).value entries left) :
    id ∈ left.missing ↔
      (id ∈ registry.declared.keys ∨ .declare id ∈ entries.map Prod.fst) ∧
        id ∉ sourcesOf (publishes (.beginTick tick :: entries.map Prod.fst)) := by
  rw [mem_missing, mem_declared_of_leads h, (tracks_of_leads h).read_eq_none_iff]

theorem missing_eq_nil_iff_of_leads
    (h : Session.Leads perform (registry.beginTick tick).value entries left) :
    left.missing = [] ↔
      ∀ id, id ∈ registry.declared.keys ∨ .declare id ∈ entries.map Prod.fst →
        id ∈ sourcesOf (publishes (.beginTick tick :: entries.map Prod.fst)) := by
  rw [List.eq_nil_iff_forall_not_mem]
  apply forall_congr'
  intro id
  rw [mem_missing_of_leads h, not_and, not_not]

end Left

/-! ## The decision -/

section Decision

variable {ι S τ ρ : Type}

/-- What a host has at hand in a tick. -/
structure Host (ι S τ : Type) where
  work : Work ι S
  /-- The state of whoever decides. -/
  own : τ
  /-- The registries that were decided over. -/
  decided : List Registry := []

/-- A publishing phase as the host's. -/
def Publishing.onHost [DecidableEq ι] (publishing : Publishing ι S) (registry : Registry)
    (host : Host ι S τ) : Traced (Except Fault Unit × Registry × Host ι S τ) := do
  let (result, registry, work) ← publishing.run registry host.work
  pure (result, registry, { host with work })

/-- Decides, and takes down the registry that was decided over. -/
def noting (decide : Registry → τ → Traced (ρ × τ)) (registry : Registry) (host : Host ι S τ) :
    Traced (ρ × Host ι S τ) := do
  let (decision, own) ← decide registry host.own
  pure (decision, { host with own, decided := host.decided ++ [registry] })

variable [DecidableEq ι]

/-- A tick is decided, once and over the registry that its publishing left, if and only if the
publishing succeeded and every source that is expected by then has published since a tick began
last.  If not, the result is the fault of the publishing, or tells the sources that are silent.
Either way the registry is as the publishing left it. -/
theorem decides_iff_complete (registry : Registry) (tick : Tick) (publishing : Publishing ι S)
    (decide : Registry → τ → Traced (ρ × τ)) (sources : ι → Source S) (own : τ) :
    let phase := (publishing.run (registry.beginTick tick).value { sources }).value
    let result := phase.1
    let left := phase.2.1
    let work := phase.2.2
    let calls := work.made.map Prod.fst
    let published := sourcesOf (publishes (.beginTick tick :: calls))
    let expected := fun id => id ∈ registry.declared.keys ∨ .declare id ∈ calls
    let ran := (registry.runTick tick publishing.onHost (noting decide)
      { work := { sources }, own }).value
    Session.Leads perform (registry.beginTick tick).value work.made left ∧
    StopsAtFault work.made result ∧
    (∀ id, id ∈ left.declared.keys ↔ expected id) ∧
    (∀ id, left.read id ≠ none ↔ id ∈ published) ∧
    (ran.2.2.decided = [left] ↔ result = .ok () ∧ ∀ id, expected id → id ∈ published) ∧
    (result = .ok () → (∀ id, expected id → id ∈ published) →
      ran = (.ok (decide left own).value.1, left,
        { work, own := (decide left own).value.2, decided := [left] })) ∧
    (result = .ok () → (¬∀ id, expected id → id ∈ published) →
      ∃ silent, ran = (.error (.incompleteSnapshot tick silent), left, { work, own }) ∧
        silent.Pairwise (· < ·) ∧ ∀ id, id ∈ silent ↔ expected id ∧ id ∉ published) ∧
    ∀ fault, result = .error fault → ran = (.error fault, left, { work, own }) := by
  intro phase result left work calls published expected ran
  obtain ⟨entries, hmade, hleads, hstops⟩ :=
    publishing.records_run (registry.beginTick tick).value { sources }
  obtain rfl : work.made = entries := hmade
  have hcomplete : left.missing = [] ↔ ∀ id, expected id → id ∈ published :=
    missing_eq_nil_iff_of_leads hleads
  have hphase : (publishing.onHost (registry.beginTick tick).value
      ({ work := { sources }, own } : Host ι S τ)).value = (result, left, { work, own }) := rfl
  have hdecided : result = .ok () → (∀ id, expected id → id ∈ published) →
      ran = (.ok (decide left own).value.1, left,
        { work, own := (decide left own).value.2, decided := [left] }) := by
    intro hok hall
    rw [hok] at hphase
    exact runTick_value_of_complete hphase (hcomplete.2 hall) (noting decide)
  have hsilent : result = .ok () → (¬∀ id, expected id → id ∈ published) →
      ran = (.error (.incompleteSnapshot tick left.missing), left, { work, own }) := by
    intro hok hall
    rw [hok] at hphase
    exact runTick_value_of_missing hphase (mt hcomplete.1 hall) (noting decide)
  have hfault : ∀ fault, result = .error fault → ran = (.error fault, left, { work, own }) := by
    intro fault herror
    rw [herror] at hphase
    exact runTick_value_of_error hphase (noting decide)
  refine ⟨hleads, hstops, fun id => mem_declared_of_leads hleads, ?_, ?_, hdecided, ?_, hfault⟩
  · intro id
    rw [ne_eq, (tracks_of_leads hleads).read_eq_none_iff, Decidable.not_not]
  · constructor
    · intro hran
      cases hresult : result with
      | error fault =>
          rw [hfault fault hresult] at hran
          exact nomatch hran
      | ok =>
          by_contra hnot
          rw [hsilent hresult fun hall => hnot ⟨rfl, hall⟩] at hran
          exact nomatch hran
    · rintro ⟨hok, hall⟩
      rw [hdecided hok hall]
  · intro hok hall
    exact ⟨left.missing, hsilent hok hall, missing_ascending, fun id => mem_missing_of_leads hleads⟩

/-- A tick that is begun again within its publishing, under another number.  It is decided if the
source that published before does so again, and is incomplete if not. -/
theorem decides_iff_complete_of_nested_tick :
    let registry := ((Registry.new .reject).declare "a").2
    let source : Source Unit := .probe { id := "a", condition := .always }
    let publishing (last : Publishing Unit Unit) : Publishing Unit Unit :=
      .publishSource () 3 () <| .call (.declare "b") <| .call (.beginTick 7) <|
        .call (.publish "b" false) last
    let decide (registry : Registry) (own : ℕ) : Traced (Option Bool × ℕ) :=
      pure (registry.read "a", own + 1)
    let again := publishing (.publishSource () 7 () (.finish (.ok ())))
    let ended := publishing (.finish (.ok ()))
    let host : Host Unit Unit ℕ := { work := { sources := fun _ => source }, own := 0 }
    let ran (publishing : Publishing Unit Unit) :=
      (registry.runTick 3 publishing.onHost (noting decide) host).value
    (ran again).1 = .ok (some true) ∧ (ran again).2.2.own = 1 ∧
      (ran again).2.2.decided = [(ran again).2.1] ∧
      (ran ended).1 = .error (.incompleteSnapshot 3 ["a"]) ∧ (ran ended).2.2.own = 0 ∧
      (ran ended).2.2.decided ≠ [(ran ended).2.1] := by
  intro registry source publishing decide again ended host ran
  obtain ⟨-, -, -, -, -, hdecided, -⟩ :=
    decides_iff_complete registry 3 again decide (fun _ => source) 0
  obtain ⟨-, -, -, -, -, -, hsilent, -⟩ :=
    decides_iff_complete registry 3 ended decide (fun _ => source) 0
  have hpublished : ∀ id, id ∈ registry.declared.keys ∨ Call.declare id ∈
      [.publish "a" true, .declare "b", .beginTick 7, .publish "b" false, .publish "a" true] →
      id ∈ ["b", "a"] := by
    rintro id (hid | hid)
    · obtain rfl := List.mem_singleton.1 hid
      decide
    · obtain rfl : id = "b" := by simpa using hid
      decide
  have hagain : ran again = _ := hdecided rfl hpublished
  obtain ⟨silent, hended, -, -⟩ := hsilent rfl fun hall =>
    absurd (hall "a" (.inl (by decide))) (by decide)
  refine ⟨?_, ?_, ?_, rfl, ?_, ?_⟩
  · rw [hagain]
    rfl
  · rw [hagain]
    rfl
  · rw [hagain]
  · exact congrArg (fun out => out.2.2.own) hended
  · intro hdecide
    have hnone : (ran ended).2.2.decided = [] := congrArg (fun out => out.2.2.decided) hended
    rw [hnone] at hdecide
    exact nomatch hdecide

end Decision
end Registry
end TickGate
