import Mathlib.Algebra.GroupWithZero.Nat
import TickGate.Proofs.Registry.Script

/-!
# What becomes of the publishes of a registry

The snapshot of a tick is thrown away when the next tick begins, while the counts go on.  Over a
lifetime the values that were stored are those that the snapshots held when they were thrown away,
and, where later values replace earlier ones, those that were replaced, each of which was counted
as a duplicate.  `growthOver_publishes` is this balance for calls on any registry, and
`publishes_conserved` is what it comes to for a new one.
-/

namespace TickGate

/-- How many values the rule has replaced when it has met so many duplicates. -/
def DuplicateRule.replaced (rule : DuplicateRule) (duplicates : ℕ) : ℕ :=
  match rule with
  | .reject => 0
  | .lastWriteWins => duplicates

@[simp] theorem DuplicateRule.replaced_zero (rule : DuplicateRule) : rule.replaced 0 = 0 := by
  cases rule <;> rfl

theorem DuplicateRule.replaced_add (rule : DuplicateRule) (first second : ℕ) :
    rule.replaced (first + second) = rule.replaced first + rule.replaced second := by
  cases rule <;> rfl

namespace Registry

/-- Whether a call was answered that its source has published before. -/
def Answer.isDuplicate : Answer → Bool
  | published (.error (.duplicatePublish _ _)) => true
  | _ => false

/-! ## The snapshots that ticks leave -/

/-- The calls up to the next one that begins a tick. -/
def untilBegun (calls : List Call) : List Call := calls.takeWhile fun call => call.begun?.isNone

/-- For each tick that some calls begin, the snapshot as it was when the next tick began or the
calls were over. -/
def lastSnapshots (registry : Registry) : List Call → List Snapshot
  | [] => []
  | call :: calls =>
    let next := (registry.perform call).2
    match call.begun? with
    | some _ => (Session.final perform next (untilBegun calls)).snapshot :: next.lastSnapshots calls
    | none => next.lastSnapshots calls

/-- How many values the snapshots held. -/
def held (snapshots : List Snapshot) : ℕ := (snapshots.map Snapshot.size).sum

/-! ## One call -/

theorem Call.begun?_eq_some_iff {call : Call} {tick : Tick} :
    call.begun? = some tick ↔ call = .beginTick tick := by
  cases call <;> simp [Call.begun?]

variable (registry : Registry)

@[simp] theorem perform_duplicateRule (call : Call) :
    (registry.perform call).2.duplicateRule = registry.duplicateRule := by
  cases call with
  | declare id => rfl
  | beginTick tick => rfl
  | publish id value => exact publish_duplicateRule

theorem growth_ticks (call : Call) :
    (registry.growth call).ticks = if call.begun?.isSome then 1 else 0 := by
  cases call with
  | declare id => rfl
  | beginTick tick => rfl
  | publish id value => cases publishEnds registry id value <;> simp [*, Call.begun?]

theorem growth_le_one (call : Call) :
    (registry.growth call).publishes ≤ 1 ∧ (registry.growth call).duplicates ≤ 1 := by
  cases call with
  | declare id => exact ⟨Nat.zero_le 1, Nat.zero_le 1⟩
  | beginTick tick => exact ⟨Nat.zero_le 1, Nat.zero_le 1⟩
  | publish id value => cases publishEnds registry id value <;> simp [*]

variable {registry}

theorem growth_duplicates_of_reject (hrule : registry.duplicateRule = .reject) (call : Call) :
    (registry.growth call).duplicates = if (registry.perform call).1.isDuplicate then 1 else 0 := by
  cases call with
  | declare id => rfl
  | beginTick tick => rfl
  | publish id value =>
      cases publishEnds registry id value with
      | idle htick hpublish hgrowth => simp [perform, hpublish, hgrowth, Answer.isDuplicate]
      | stored tick htick hread hpublish hgrowth =>
          simp [perform, hpublish, hgrowth, Answer.isDuplicate]
      | rejected tick previous htick hread hreject hpublish hgrowth =>
          simp [perform, hpublish, hgrowth, Answer.isDuplicate]
      | replaced tick previous htick hread hother hpublish hgrowth =>
          exact absurd (hrule.symm.trans hother) (by decide)

/-- Within a tick a stored value makes the snapshot larger, unless it replaces another. -/
theorem growth_publishes_add_size (registry : Registry) {call : Call} (h : call.begun? = none) :
    (registry.growth call).publishes + registry.snapshot.size =
      (registry.perform call).2.snapshot.size +
        registry.duplicateRule.replaced (registry.growth call).duplicates := by
  have hnothing : registry.duplicateRule.replaced 0 = 0 := by
    cases registry.duplicateRule <;> rfl
  cases call with
  | declare id => simp [growth, perform, declare, hnothing]
  | beginTick tick => exact absurd h (Option.some_ne_none tick)
  | publish id value =>
      cases publishEnds registry id value with
      | idle htick hpublish hgrowth => simp [perform, hpublish, hgrowth, hnothing]
      | stored tick htick hread hpublish hgrowth =>
          simp [perform, hpublish, hgrowth, hnothing, size_store, hread, Nat.add_comm]
      | rejected tick previous htick hread hrule hpublish hgrowth =>
          simp [perform, hpublish, hgrowth, hrule, DuplicateRule.replaced, countDuplicate]
      | replaced tick previous htick hread hrule hpublish hgrowth =>
          have hsize : (registry.countDuplicate.store id value).snapshot.size =
              registry.snapshot.size := by
            rw [size_store, countDuplicate_read, hread]
            rfl
          simp [perform, hpublish, hgrowth, hrule, DuplicateRule.replaced, hsize, Nat.add_comm]

/-! ## Any calls -/

/-- What calls add to the counts. -/
def growthOver (registry : Registry) : List Call → Growth
  | [] => 0
  | call :: calls => registry.growth call + (registry.perform call).2.growthOver calls

theorem final_counts (registry : Registry) (calls : List Call) :
    (Session.final perform registry calls).counts =
      registry.counts.grow (registry.growthOver calls) := by
  induction calls generalizing registry with
  | nil => exact registry.counts.grow_zero.symm
  | cons call calls ih => rw [Session.final_cons, ih, perform_counts, Counts.grow_grow, growthOver]

theorem growthOver_ticks (registry : Registry) (calls : List Call) :
    (registry.growthOver calls).ticks = calls.countP fun call => call.begun?.isSome := by
  induction calls generalizing registry with
  | nil => rfl
  | cons call calls ih =>
      rw [growthOver, Growth.add_ticks, growth_ticks, ih, List.countP_cons, Nat.add_comm]

theorem growthOver_le_length (registry : Registry) (calls : List Call) :
    (registry.growthOver calls).publishes ≤ calls.length ∧
      (registry.growthOver calls).duplicates ≤ calls.length := by
  induction calls generalizing registry with
  | nil => exact ⟨Nat.le_refl 0, Nat.le_refl 0⟩
  | cons call calls ih =>
      obtain ⟨hpublishes, hduplicates⟩ := ih (registry.perform call).2
      obtain ⟨hstored, hrepeated⟩ := growth_le_one registry call
      simp only [growthOver, Growth.add_publishes, Growth.add_duplicates, List.length_cons]
      omega

theorem growthOver_duplicates_of_reject {registry : Registry}
    (h : registry.duplicateRule = .reject) (calls : List Call) :
    (registry.growthOver calls).duplicates =
      (Session.log perform registry calls).countP fun entry => entry.2.isDuplicate := by
  induction calls generalizing registry with
  | nil => rfl
  | cons call calls ih =>
      have hnext : (registry.perform call).2.duplicateRule = .reject := by
        rw [perform_duplicateRule, h]
      rw [growthOver, Growth.add_duplicates, growth_duplicates_of_reject h, ih hnext, Session.log,
        List.countP_cons, Nat.add_comm]

/-- A value that a snapshot held or that is stored is held by the snapshot of its tick when the tick
is over, unless it is replaced. -/
theorem growthOver_publishes (registry : Registry) (calls : List Call) :
    (registry.growthOver calls).publishes + registry.snapshot.size =
      (Session.final perform registry (untilBegun calls)).snapshot.size +
        held (registry.lastSnapshots calls) +
        registry.duplicateRule.replaced (registry.growthOver calls).duplicates := by
  induction calls generalizing registry with
  | nil =>
      have hnothing : registry.duplicateRule.replaced 0 = 0 := DuplicateRule.replaced_zero _
      simp [growthOver, untilBegun, lastSnapshots, held, hnothing]
  | cons call calls ih =>
      have hrest := ih (registry.perform call).2
      rw [perform_duplicateRule] at hrest
      -- A call that begins a tick closes the account of the snapshot before; what it held is the
      -- first summand of the sum, and the account of the rest starts at zero.
      cases hbegun : call.begun? with
      | some tick =>
          obtain rfl := Call.begun?_eq_some_iff.1 hbegun
          have huntil : untilBegun (.beginTick tick :: calls) = [] := rfl
          have hlast : held (registry.lastSnapshots (.beginTick tick :: calls)) =
              (Session.final perform (registry.perform (.beginTick tick)).2
                  (untilBegun calls)).snapshot.size +
                held ((registry.perform (.beginTick tick)).2.lastSnapshots calls) := rfl
          have hempty : (registry.perform (.beginTick tick)).2.snapshot.size = 0 := rfl
          have hgrowth : registry.growth (.beginTick tick) = { ticks := 1 } := rfl
          rw [huntil, hlast, Session.final_nil, growthOver, hgrowth, Growth.add_publishes,
            Growth.add_duplicates, Nat.zero_add, Nat.zero_add]
          omega
      | none =>
          have hcall := growth_publishes_add_size registry hbegun
          have huntil : untilBegun (call :: calls) = call :: untilBegun calls := by
            simp [untilBegun, hbegun]
          have hlast : registry.lastSnapshots (call :: calls) =
              (registry.perform call).2.lastSnapshots calls := by
            simp [lastSnapshots, hbegun]
          rw [huntil, hlast, Session.final_cons, growthOver, Growth.add_publishes,
            Growth.add_duplicates, DuplicateRule.replaced_add]
          omega

/-! ## A new registry -/

theorem untilBegun_begun? {calls : List Call} : ∀ call ∈ untilBegun calls, call.begun? = none := by
  intro call hmem
  have hall := List.all_takeWhile (p := fun call : Call => call.begun?.isNone) (l := calls)
  exact Option.isNone_iff_eq_none.1 (List.all_eq_true.1 hall call hmem)

/-- Before the first tick nothing is held. -/
theorem size_final_untilBegun (rule : DuplicateRule) (calls : List Call) :
    (Session.final perform (.new rule) (untilBegun calls)).snapshot.size = 0 := by
  have hnone : lastMarked? Call.begun? (untilBegun calls) = none :=
    (lastMarked?_eq_none_iff _).2 untilBegun_begun?
  have hpublishes : publishes (untilBegun calls) = [] := by rw [publishes, hnone]
  rw [(tracks_session rule (untilBegun calls)).size_eq_card, hpublishes]
  rfl

/-- A publish that is made before the first tick leaves the registry as it was. -/
theorem perform_of_noActiveTick {registry : Registry} {call : Call}
    (h : (registry.perform call).1 = .published (.error .noActiveTick)) :
    (registry.perform call).2 = registry := by
  cases call with
  | declare id => exact nomatch h
  | beginTick tick => exact nomatch h
  | publish id value =>
      rcases publish_refused_cases (Answer.published.inj h) with
        ⟨-, -, hnext⟩ | ⟨-, ⟨tick, -, hfault⟩, -⟩
      · exact hnext
      · exact nomatch hfault

/-- Where later values win, a publish fails only before the first tick. -/
theorem currentTick_of_fault {registry : Registry} {call : Call} {fault : Fault}
    (hrule : registry.duplicateRule = .lastWriteWins)
    (h : (registry.perform call).1 = .published (.error fault)) : registry.currentTick = none := by
  cases call with
  | declare id => exact nomatch h
  | beginTick tick => exact nomatch h
  | publish id value =>
      rcases publish_refused_cases (Answer.published.inj h) with ⟨htick, -⟩ | ⟨hreject, -⟩
      · exact htick
      · exact absurd (hrule.symm.trans hreject) (by decide)

/-- Until a count can saturate it is the number of occurrences. -/
theorem counts_final_toNat (rule : DuplicateRule) (calls : List Call) (h : calls.length < 2 ^ 64) :
    let counts := (Session.final perform (.new rule) calls).counts
    let growth := (Registry.new rule).growthOver calls
    counts.ticks.toNat = growth.ticks ∧ counts.publishes.toNat = growth.publishes ∧
      counts.duplicates.toNat = growth.duplicates := by
  intro counts growth
  have hcounts : counts = Counts.grow {} growth := final_counts (.new rule) calls
  have hticks : growth.ticks ≤ calls.length := by
    rw [growthOver_ticks]
    exact List.countP_le_length
  have hle : growth.publishes ≤ calls.length ∧ growth.duplicates ≤ calls.length :=
    growthOver_le_length (.new rule) calls
  have hlimit := Count.toNat_limit
  have hzero : (0 : Count).toNat = 0 := rfl
  rw [hcounts]
  simp only [Counts.grow, Count.toNat_ofOccurrences, hzero]
  omega

/-- Over fewer than `2 ^ 64` calls of a new registry, whether made directly, in the publishing of a
tick or to begin one, the ticks are the calls that begin one; what was published is what the
snapshots held when their ticks were over, and where repeats are rejected, the duplicates are the
publishes answered so, while where later values win, the duplicates are what was published beyond
that and no publish fails after the first tick has begun; and a publish that fails for want of a
tick leaves the registry as it was. -/
theorem publishes_conserved (rule : DuplicateRule) (script : Script)
    (h : (script.entries (.new rule)).length < 2 ^ 64) :
    let entries := script.entries (.new rule)
    let counts := (script.final (.new rule)).counts
    let kept := held (lastSnapshots (.new rule) (entries.map Prod.fst))
    let stateAfter (entries : List Entry) :=
      Session.final perform (Registry.new rule) (entries.map Prod.fst)
    counts.ticks.toNat = entries.countP (fun entry => entry.1.begun?.isSome) ∧
    (rule = .reject →
      counts.publishes.toNat = kept ∧
      counts.duplicates.toNat = entries.countP fun entry => entry.2.isDuplicate) ∧
    (rule = .lastWriteWins →
      counts.publishes.toNat = kept + counts.duplicates.toNat ∧
      ∀ before call fault after,
        entries = before ++ (call, .published (.error fault)) :: after →
        ∀ entry ∈ before, entry.1.begun? = none) ∧
    ∀ before call after,
      entries = before ++ (call, .published (.error .noActiveTick)) :: after →
      stateAfter (before ++ [(call, .published (.error .noActiveTick))]) = stateAfter before := by
  intro entries counts kept stateAfter
  have hleads : Session.Leads perform (.new rule) entries (script.final (.new rule)) :=
    script.leads (.new rule)
  have hgrowth := growthOver_publishes (.new rule) (entries.map Prod.fst)
  have hlength : (entries.map Prod.fst).length < 2 ^ 64 := by rwa [List.length_map]
  obtain ⟨hticks, hpublishes, hduplicates⟩ := counts_final_toNat rule _ hlength
  rw [hleads.final] at hticks hpublishes hduplicates
  have hbalance : counts.publishes.toNat = kept + rule.replaced counts.duplicates.toNat := by
    rw [hpublishes, hduplicates]
    have hsize := size_final_untilBegun rule (entries.map Prod.fst)
    have hempty : (Registry.new rule).snapshot.size = 0 := rfl
    have hrule : (Registry.new rule).duplicateRule = rule := rfl
    rw [hsize, hempty, hrule] at hgrowth
    omega
  refine ⟨?_, ?_, ?_, ?_⟩
  · rw [hticks, growthOver_ticks, List.countP_map]
    rfl
  · rintro rfl
    refine ⟨hbalance, ?_⟩
    rw [hduplicates, growthOver_duplicates_of_reject rfl, hleads.log]
  · rintro rfl
    refine ⟨hbalance, ?_⟩
    intro before call fault after hsplit
    have htracks := tracks_session .lastWriteWins (before.map Prod.fst)
    rw [hsplit] at hleads
    have hidle := currentTick_of_fault htracks.duplicateRule hleads.answer_eq
    rw [htracks.currentTick, latestTick, Option.map_eq_none_iff, lastMarked?_eq_none_iff] at hidle
    intro entry hmem
    exact hidle entry.1 (List.mem_map_of_mem hmem)
  · intro before call after hsplit
    rw [hsplit] at hleads
    calc
      stateAfter (before ++ [(call, .published (.error .noActiveTick))]) =
          ((stateAfter before).perform call).2 := by
        simp only [stateAfter, List.map_append, List.map_cons, List.map_nil, Session.final_concat]
      _ = stateAfter before := perform_of_noActiveTick hleads.answer_eq

/-- A publish before the first tick, a tick that begins another one in its publishing, and a repeat
that ends it. -/
theorem publishes_conserved_of_nested_tick :
    let script : Script :=
      .call (.publish "a" true) fun _ => .call (.beginTick 1) fun _ =>
        .call (.publish "a" true) fun _ =>
          .runTick 2
            (.inOrder [.declare "c", .publish "a" true, .publish "b" true, .beginTick 3,
              .publish "a" false, .publish "a" true, .publish "b" false])
            .finish fun _ => .finish (.ok ())
    let entries := script.entries (.new .reject)
    let counts := (script.final (.new .reject)).counts
    entries.length = 10 ∧ counts.ticks.toNat = 3 ∧ counts.publishes.toNat = 4 ∧
      counts.duplicates.toNat = 1 ∧
      (lastSnapshots (.new .reject) (entries.map Prod.fst)).map Snapshot.size = [1, 2, 1] := by
  intro script entries counts
  have hlength : entries.length = 10 := rfl
  have hsizes : (lastSnapshots (.new .reject) (entries.map Prod.fst)).map Snapshot.size =
      [1, 2, 1] := rfl
  obtain ⟨hticks, hreject, -, -⟩ :=
    publishes_conserved .reject script (hlength.trans_lt (by decide))
  obtain ⟨hpublishes, hduplicates⟩ := hreject rfl
  exact ⟨hlength, hticks, hpublishes.trans (congrArg List.sum hsizes), hduplicates, hsizes⟩

end Registry
end TickGate
