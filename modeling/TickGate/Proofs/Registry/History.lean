import Mathlib.Data.Finset.Card
import TickGate.Proofs.Registry.Tracking
import TickGate.Proofs.Session

/-!
# A registry after any calls

The state of a registry after calls is a function of its rule and of the calls made since the
tick began last: `tracks_session` is the invariant, and `session_reflects_history` reads off it
what every view of the registry and every publish answers.
-/

namespace TickGate
namespace Registry

/-- A call of a registry. -/
inductive Call where
  | declare (id : SourceId)
  | beginTick (tick : Tick)
  | publish (id : SourceId) (value : Bool)
  deriving DecidableEq, Repr

/-- The answer to a call. -/
inductive Answer where
  | declared (isNew : Bool)
  | begun
  | published (result : Except Fault Unit)

/-- Performs one call. -/
def perform (registry : Registry) : Call → Answer × Registry
  | .declare id => (.declared (registry.declare id).1, (registry.declare id).2)
  | .beginTick tick => (.begun, (registry.beginTick tick).value)
  | .publish id value =>
    (.published (registry.publish id value).value.1, (registry.publish id value).value.2)

namespace Call

/-- The tick that a call begins. -/
def begun? : Call → Option Tick
  | beginTick tick => some tick
  | _ => none

/-- What a call publishes. -/
def published? : Call → Option (SourceId × Bool)
  | publish id value => some (id, value)
  | _ => none

end Call

/-! ## What calls amount to -/

/-- The tick begun last. -/
def latestTick (calls : List Call) : Option Tick :=
  (lastMarked? Call.begun? calls).map Prod.fst

/-- What was published since the tick began last. -/
def publishes (calls : List Call) : List (SourceId × Bool) :=
  match lastMarked? Call.begun? calls with
  | none => []
  | some (_, since) => since.filterMap Call.published?

theorem latestTick_concat_beginTick (calls : List Call) (tick : Tick) :
    latestTick (calls ++ [.beginTick tick]) = some tick := by
  simp [latestTick, lastMarked?_concat, Call.begun?]

theorem publishes_concat_beginTick (calls : List Call) (tick : Tick) :
    publishes (calls ++ [.beginTick tick]) = [] := by
  simp [publishes, lastMarked?_concat, Call.begun?]

theorem latestTick_concat_of_begun?_eq_none (calls : List Call) {call : Call}
    (h : call.begun? = none) : latestTick (calls ++ [call]) = latestTick calls := by
  simp [latestTick, lastMarked?_concat, h, Function.comp_def]

theorem publishes_concat_declare (calls : List Call) (id : SourceId) :
    publishes (calls ++ [.declare id]) = publishes calls := by
  rw [publishes, publishes, lastMarked?_concat]
  cases lastMarked? Call.begun? calls with
  | none => rfl
  | some found => simp [Call.begun?, Call.published?]

/-- Before the first tick a publish counts for nothing. -/
theorem publishes_concat_publish (calls : List Call) (id : SourceId) (value : Bool) :
    publishes (calls ++ [.publish id value]) =
      if (latestTick calls).isSome then publishes calls ++ [(id, value)] else publishes calls := by
  rw [publishes, publishes, latestTick, lastMarked?_concat]
  cases lastMarked? Call.begun? calls with
  | none => rfl
  | some found => simp [Call.begun?, Call.published?]

/-! ## The invariant -/

theorem tracks_publish {rule : DuplicateRule} {calls : List Call} {registry : Registry}
    (h : Tracks rule (latestTick calls) (publishes calls) registry) (id : SourceId)
    (value : Bool) :
    Tracks rule (latestTick calls) (publishes (calls ++ [.publish id value]))
      (registry.publish id value).value.2 := by
  rw [publishes_concat_publish]
  rcases h.publish id value with ⟨htick, hvalue⟩ | ⟨tick, htick, hrule, hmem, hvalue⟩ |
      ⟨tick, next, htick, _, hvalue, hnext⟩
  · rw [htick] at h ⊢
    rw [hvalue]
    exact h
  · subst hrule
    rw [htick] at h ⊢
    rw [hvalue]
    exact h.countDuplicate.concat_of_mem hmem value
  · rw [htick] at hnext ⊢
    rw [hvalue]
    exact hnext

theorem tracks_perform {rule : DuplicateRule} {calls : List Call} {registry : Registry}
    (h : Tracks rule (latestTick calls) (publishes calls) registry) (call : Call) :
    Tracks rule (latestTick (calls ++ [call])) (publishes (calls ++ [call]))
      (registry.perform call).2 := by
  cases call with
  | declare id =>
      rw [latestTick_concat_of_begun?_eq_none calls rfl, publishes_concat_declare]
      exact h.declare id
  | beginTick tick =>
      rw [latestTick_concat_beginTick, publishes_concat_beginTick]
      exact Tracks.beginTick h.duplicateRule tick
  | publish id value =>
      rw [latestTick_concat_of_begun?_eq_none calls rfl]
      exact tracks_publish h id value

/-- A registry that tracks what was published goes on tracking it. -/
theorem tracks_final {rule : DuplicateRule} {front : List Call} {registry : Registry}
    (h : Tracks rule (latestTick front) (publishes front) registry) (calls : List Call) :
    Tracks rule (latestTick (front ++ calls)) (publishes (front ++ calls))
      (Session.final perform registry calls) := by
  induction calls generalizing front registry with
  | nil => rwa [List.append_nil]
  | cons call calls ih =>
      rw [List.append_cons]
      exact ih (tracks_perform h call)

/-- After any calls a registry tracks what was published since the tick began last. -/
theorem tracks_session (rule : DuplicateRule) (calls : List Call) :
    Tracks rule (latestTick calls) (publishes calls)
      (Session.final perform (Registry.new rule) calls) :=
  @tracks_final rule [] _ (Tracks.of_new rule) calls

/-! ## What the views and the publishes answer -/

theorem readAt_eq_ite (registry : Registry) (tick : Tick) (id : SourceId) :
    View.readAt registry tick id =
      if registry.currentTick = some tick then registry.read id else none := rfl

namespace Tracks

variable {rule : DuplicateRule} {tick : Option Tick} {published : List (SourceId × Bool)}
  {registry : Registry}

theorem mem_keys_iff (h : Tracks rule tick published registry) {id : SourceId} :
    id ∈ registry.snapshot.values.keys ↔ id ∈ sourcesOf published := by
  rw [IdMap.mem_keys, ← h.read_isSome_iff]
  rfl

/-- The size of the snapshot is the number of names published under. -/
theorem size_eq_card (h : Tracks rule tick published registry) :
    registry.snapshot.size = (sourcesOf published).toFinset.card := by
  have hkeys : registry.snapshot.values.keys.toFinset = (sourcesOf published).toFinset := by
    ext id
    rw [List.mem_toFinset, List.mem_toFinset, h.mem_keys_iff]
  calc
    registry.snapshot.size = registry.snapshot.values.keys.length := (List.length_map _).symm
    _ = registry.snapshot.values.keys.toFinset.card :=
      (List.toFinset_card_of_nodup registry.snapshot.values.keys_nodup).symm
    _ = (sourcesOf published).toFinset.card := by rw [hkeys]

/-- Which of its three answers a publish gives. -/
theorem publish_answer_iff (h : Tracks rule tick published registry) (id : SourceId)
    (value : Bool) :
    ((registry.publish id value).value.1 = .error .noActiveTick ↔ tick = none) ∧
    (∀ source current,
      (registry.publish id value).value.1 = .error (.duplicatePublish source current) ↔
        source = id ∧ tick = some current ∧ rule = .reject ∧ id ∈ sourcesOf published) ∧
    ((registry.publish id value).value.1 = .ok () ↔
      tick ≠ none ∧ ¬(rule = .reject ∧ id ∈ sourcesOf published)) := by
  rcases h.publish id value with ⟨htick, hvalue⟩ | ⟨current, htick, hrule, hmem, hvalue⟩ |
      ⟨current, next, htick, hfree, hvalue, -⟩
  · simp [hvalue, htick]
  · simp [hvalue, htick, hrule, hmem, eq_comm]
  · rw [hvalue, htick]
    refine ⟨by simp, fun source start => ?_, ?_⟩
    · constructor
      · intro herror
        exact nomatch herror
      · rintro ⟨-, -, hreject⟩
        exact absurd hreject hfree
    · exact ⟨fun _ => ⟨Option.some_ne_none current, hfree⟩, fun _ => rfl⟩

end Tracks

/-- After any calls of a new registry, the current tick is the one begun last, a source reads as
what the rule keeps of its publishes since, another tick reads as silent, the snapshot lists the
sources that published in strictly ascending order, and each publish was answered by what the
calls before it amount to. -/
theorem session_reflects_history (rule : DuplicateRule) (calls : List Call) :
    let registry := Session.final perform (Registry.new rule) calls
    (∀ id, registry.read id = rule.kept (publishes calls) id) ∧
    (∀ id, registry.read id = none ↔ id ∉ sourcesOf (publishes calls)) ∧
    registry.currentTick = latestTick calls ∧
    (∀ tick id, View.readAt registry tick id =
      if latestTick calls = some tick then registry.read id else none) ∧
    (registry.snapshot.values.toList.map Prod.fst).Pairwise (· < ·) ∧
    (∀ id, id ∈ registry.snapshot.values.toList.map Prod.fst ↔
      id ∈ sourcesOf (publishes calls)) ∧
    registry.snapshot.size = (sourcesOf (publishes calls)).toFinset.card ∧
    ∀ n id value answer,
      (Session.log perform (Registry.new rule) calls)[n]? = some (.publish id value, answer) →
      let tick := latestTick (calls.take n)
      let published := sourcesOf (publishes (calls.take n))
      ∃ result, answer = .published result ∧
        (result = .error .noActiveTick ↔ tick = none) ∧
        (∀ source current, result = .error (.duplicatePublish source current) ↔
          source = id ∧ tick = some current ∧ rule = .reject ∧ id ∈ published) ∧
        (result = .ok () ↔ tick ≠ none ∧ ¬(rule = .reject ∧ id ∈ published)) := by
  intro registry
  have htracks : Tracks rule (latestTick calls) (publishes calls) registry :=
    tracks_session rule calls
  refine ⟨htracks.read, fun id => htracks.read_eq_none_iff, htracks.currentTick, ?_,
    registry.snapshot.values.keys_ascending, fun id => htracks.mem_keys_iff,
    htracks.size_eq_card, ?_⟩
  · intro tick id
    rw [readAt_eq_ite, htracks.currentTick]
  · intro n id value answer hentry
    rw [Session.getElem?_log] at hentry
    obtain ⟨call, -, hpair⟩ := Option.map_eq_some_iff.1 hentry
    obtain ⟨rfl, rfl⟩ := Prod.mk.inj hpair
    exact ⟨_, rfl, (tracks_session rule (calls.take n)).publish_answer_iff id value⟩

/-- A repeat in a tick that was begun after a later one. -/
theorem session_reflects_history_of_repeat :
    let calls : List Call :=
      [.declare "b", .publish "a" true, .beginTick 5, .publish "a" true, .beginTick 4,
        .publish "b" true, .publish "a" true, .publish "a" false]
    let answer : Answer := .published (.error (.duplicatePublish "a" 4))
    (Session.log perform (Registry.new .reject) calls)[7]? = some (.publish "a" false, answer) ∧
    ∃ result, answer = .published result ∧
      ∀ source current, result = .error (.duplicatePublish source current) ↔
        source = "a" ∧ latestTick (calls.take 7) = some current ∧
          DuplicateRule.reject = .reject ∧ "a" ∈ sourcesOf (publishes (calls.take 7)) := by
  intro calls answer
  have hentry : (Session.log perform (Registry.new .reject) calls)[7]? =
      some (.publish "a" false, answer) := rfl
  obtain ⟨-, -, -, -, -, -, -, hanswers⟩ := session_reflects_history .reject calls
  obtain ⟨result, hresult, -, hrepeat, -⟩ := hanswers 7 "a" false answer hentry
  exact ⟨hentry, result, hresult, hrepeat⟩

end Registry
end TickGate
