import TickGate.Proofs.Barrier.Recovery
import TickGate.Proofs.Interleaving
import TickGate.Proofs.Registry.Growth

/-!
# Publishers with names of their own

What becomes of a publish depends on the current tick, on the rule and on what its own source has
published.  So publishers that share no name do not disturb one another: each is answered as if it
were alone, and the order in which their publishes come to be performed does not show in the
registry, whose values are kept by name and whose counts are sums.
-/

namespace TickGate

/-- Makes one publish. -/
def Board.make {β : Type} [Board β] (board : β) (publish : SourceId × Bool) :
    Except Fault Unit × β :=
  (Board.publish board publish.1 publish.2).value

namespace Registry

variable {registry : Registry} {id other : SourceId}

/-- Registries are equal if all that can be seen of them is. -/
theorem ext_read {left right : Registry} (htick : left.currentTick = right.currentTick)
    (hread : ∀ id, left.read id = right.read id) (hdeclared : left.declared = right.declared)
    (hrule : left.duplicateRule = right.duplicateRule) (hcounts : left.counts = right.counts) :
    left = right := by
  have hsnapshot : left.snapshot = right.snapshot := Snapshot.ext_read htick hread
  cases left
  cases right
  simp only at hsnapshot hdeclared hrule hcounts
  rw [hsnapshot, hdeclared, hrule, hcounts]

/-- The answer to a publish, and what it adds to the counts, depend on the current tick, the rule
and the value of its source. -/
theorem publish_congr {left right : Registry} (htick : left.currentTick = right.currentTick)
    (hrule : left.duplicateRule = right.duplicateRule) (hread : left.read id = right.read id)
    (value : Bool) :
    (left.publish id value).value.1 = (right.publish id value).value.1 ∧
      left.growth (.publish id value) = right.growth (.publish id value) := by
  rw [publish, publish, growth, growth, htick, hrule, hread]
  cases right.currentTick with
  | none => exact ⟨rfl, rfl⟩
  | some tick =>
      cases right.read id with
      | none => exact ⟨rfl, rfl⟩
      | some previous => cases right.duplicateRule <;> exact ⟨rfl, rfl⟩

@[simp] theorem publish_currentTick (registry : Registry) (id : SourceId) (value : Bool) :
    (registry.publish id value).value.2.currentTick = registry.currentTick := by
  cases publishEnds registry id value with
  | idle htick hpublish => rw [hpublish]; rfl
  | stored tick htick hread hpublish => rw [hpublish]; rfl
  | rejected tick previous htick hread hrule hpublish => rw [hpublish]; rfl
  | replaced tick previous htick hread hrule hpublish => rw [hpublish]; rfl

/-- A publish that is counted as such stores its value, and none touches the value of another
source. -/
theorem publish_read (registry : Registry) (id : SourceId) (value : Bool) (other : SourceId) :
    (registry.publish id value).value.2.read other =
      if other = id ∧ (registry.growth (.publish id value)).publishes ≠ 0 then some value
      else registry.read other := by
  cases publishEnds registry id value with
  | idle htick hpublish hgrowth => simp [hpublish, hgrowth]
  | stored tick htick hread hpublish hgrowth => simp [hpublish, hgrowth, store_read]
  | rejected tick previous htick hread hrule hpublish hgrowth => simp [hpublish, hgrowth]
  | replaced tick previous htick hread hrule hpublish hgrowth =>
      simp [hpublish, hgrowth, store_read]

theorem publish_counts (registry : Registry) (id : SourceId) (value : Bool) :
    (registry.publish id value).value.2.counts =
      registry.counts.grow (registry.growth (.publish id value)) :=
  registry.perform_counts (.publish id value)

theorem Growth.add_comm (first second : Growth) : first + second = second + first := by
  ext <;> simp [Nat.add_comm]

/-- A publish is answered as before, and adds as much to the counts, when another source has
published. -/
theorem publish_after_other (h : other ≠ id) (registry : Registry) (value more : Bool) :
    let next := (registry.publish id value).value.2
    (next.publish other more).value.1 = (registry.publish other more).value.1 ∧
      next.growth (.publish other more) = registry.growth (.publish other more) := by
  intro next
  have hread : next.read other = registry.read other := by
    rw [publish_read, if_neg fun heq => h heq.1]
  exact publish_congr (publish_currentTick _ _ _) publish_duplicateRule hread more

theorem publish_comm (h : other ≠ id) (registry : Registry) (value more : Bool) :
    ((registry.publish id value).value.2.publish other more).value.2 =
      ((registry.publish other more).value.2.publish id value).value.2 := by
  obtain ⟨-, hgrowth⟩ := publish_after_other h registry value more
  obtain ⟨-, hother⟩ := publish_after_other h.symm registry more value
  apply ext_read
  · simp
  · intro source
    simp only [publish_read, hgrowth, hother]
    grind
  · simp
  · simp
  · rw [publish_counts, publish_counts, publish_counts, publish_counts, hgrowth, hother,
      Counts.grow_grow, Counts.grow_grow, Growth.add_comm]

theorem independent_make {first second : SourceId × Bool} (h : first.1 ≠ second.1) :
    Session.Independent (@Board.make Registry _) first second where
  answer registry := (publish_after_other h.symm registry first.2 second.2).1
  final registry := publish_comm h.symm registry first.2 second.2

end Registry

namespace Barrier

variable {barrier : Barrier}

/-- In the publishing phase, the registry behind the barrier takes the publish. -/
theorem make_of_publishing (h : barrier.phase = .publishing) (publish : SourceId × Bool) :
    Board.make barrier publish =
      ((Board.make barrier.registry publish).1,
        { barrier with registry := (Board.make barrier.registry publish).2 }) :=
  publish_value_of_publishing h

theorem make_of_not_publishing (h : barrier.phase ≠ .publishing) (publish : SourceId × Bool) :
    (Board.make barrier publish).2 = barrier :=
  publish_value_snd_of_not_publishing h publish.1 publish.2

theorem make_phase (barrier : Barrier) (publish : SourceId × Bool) :
    (Board.make barrier publish).2.phase = barrier.phase := by
  by_cases h : barrier.phase = .publishing
  · rw [make_of_publishing h]
  · rw [make_of_not_publishing h]

theorem independent_make {first second : SourceId × Bool} (h : first.1 ≠ second.1) :
    Session.Independent (@Board.make Barrier _) first second := by
  have hregistry := Registry.independent_make h
  constructor
  · intro barrier
    by_cases hphase : barrier.phase = .publishing
    · rw [make_of_publishing ((make_phase _ _).trans hphase), make_of_publishing hphase,
        make_of_publishing hphase]
      exact hregistry.answer barrier.registry
    · rw [make_of_not_publishing hphase]
  · intro barrier
    by_cases hphase : barrier.phase = .publishing
    · rw [make_of_publishing ((make_phase _ _).trans hphase),
        make_of_publishing ((make_phase _ _).trans hphase), make_of_publishing hphase,
        make_of_publishing hphase]
      exact congrArg (fun registry => { barrier with registry })
        (hregistry.final barrier.registry)
    · rw [make_of_not_publishing hphase, make_of_not_publishing hphase,
        make_of_not_publishing hphase]

end Barrier

/-! ## Interleavings of publishes -/

section Publishers

open Session

variable {ι : Type} [DecidableEq ι] {rows : ι → List (SourceId × Bool)}
  {left right : List (ι × SourceId × Bool)}

/-- No source is published by two callers. -/
def OwnSources (rows : ι → List (SourceId × Bool)) : Prop :=
  ∀ first second, first ≠ second → ∀ id ∈ sourcesOf (rows first), id ∉ sourcesOf (rows second)

theorem OwnSources.independentCallers {β : Type} [Board β] (hown : OwnSources rows)
    (hmake : ∀ {first second : SourceId × Bool}, first.1 ≠ second.1 →
      Independent (@Board.make β _) first second)
    (hleft : Interleaves rows left) : IndependentCallers (@Board.make β _) left := by
  intro first hfirst second hsecond hne
  apply hmake
  intro hsame
  have hmine : first.2 ∈ rows first.1 := by
    rw [← hleft first.1]
    exact mem_ofCaller.2 hfirst
  have hother : second.2 ∈ rows second.1 := by
    rw [← hleft second.1]
    exact mem_ofCaller.2 hsecond
  apply hown first.1 second.1 hne first.2.1 (List.mem_map_of_mem hmine)
  rw [hsame]
  exact List.mem_map_of_mem hother

/-- On a board where publishes for different sources are independent, callers that publish for
sources of their own do not notice one another. -/
theorem OwnSources.undisturbed {β : Type} [Board β] (hown : OwnSources rows)
    (hmake : ∀ {first second : SourceId × Bool}, first.1 ≠ second.1 →
      Independent (@Board.make β _) first second)
    (hleft : Interleaves rows left) (hright : Interleaves rows right) (board : β) :
    (∀ caller,
      ofCaller caller (sharedLog Board.make board left) = log Board.make board (rows caller) ∧
      ofCaller caller (sharedLog Board.make board right) = log Board.make board (rows caller)) ∧
    final Board.make board (left.map Prod.snd) = final Board.make board (right.map Prod.snd) := by
  have hindependent := hown.independentCallers hmake hleft
  constructor
  · intro caller
    constructor
    · rw [ofCaller_sharedLog hindependent, hleft]
    · rw [ofCaller_sharedLog (hown.independentCallers hmake hright), hright]
  · exact final_eq_of_interleaves hindependent hleft hright board

/-- Callers that publish for sources of their own are each answered as if they were alone, and all
interleavings of their publishes lead to the same board.  So a barrier can be sealed after one of
them just as after the other. -/
theorem publishers_do_not_disturb (hown : OwnSources rows) (hleft : Interleaves rows left)
    (hright : Interleaves rows right) :
    (∀ barrier : Barrier,
      let afterLeft := final Board.make barrier (left.map Prod.snd)
      let afterRight := final Board.make barrier (right.map Prod.snd)
      (∀ caller,
        ofCaller caller (sharedLog Board.make barrier left) =
            log Board.make barrier (rows caller) ∧
          ofCaller caller (sharedLog Board.make barrier right) =
            log Board.make barrier (rows caller)) ∧
      afterLeft = afterRight ∧ afterLeft.sealTick = afterRight.sealTick) ∧
    ∀ registry : Registry,
      (∀ caller,
        ofCaller caller (sharedLog Board.make registry left) =
            log Board.make registry (rows caller) ∧
          ofCaller caller (sharedLog Board.make registry right) =
            log Board.make registry (rows caller)) ∧
      final Board.make registry (left.map Prod.snd) =
        final Board.make registry (right.map Prod.snd) := by
  constructor
  · intro barrier afterLeft afterRight
    obtain ⟨hanswers, hfinal⟩ := hown.undisturbed Barrier.independent_make hleft hright barrier
    exact ⟨hanswers, hfinal, congrArg Barrier.sealTick hfinal⟩
  · exact hown.undisturbed Registry.independent_make hleft hright

/-- Two callers in a tick that has a value already.  One of them repeats a source, the other
publishes again what was there. -/
theorem publishers_do_not_disturb_of_repeats :
    let opened := final Barrier.perform (.new .reject)
      [.declare "a", .declare "b", .declare "c", .beginTick 3, .publish "b" true]
    let rows : Bool → List (SourceId × Bool) :=
      fun caller => if caller then [("a", true), ("a", false)] else [("b", false), ("c", true)]
    let left := [(true, "a", true), (true, "a", false), (false, "b", false), (false, "c", true)]
    let right := [(false, "b", false), (true, "a", true), (false, "c", true), (true, "a", false)]
    OwnSources rows ∧ Interleaves rows left ∧ Interleaves rows right ∧
      opened.phase = .publishing ∧
      ofCaller true (sharedLog Board.make opened right) =
        [(("a", true), .ok ()), (("a", false), .error (.duplicatePublish "a" 3))] ∧
      (final Board.make opened (left.map Prod.snd)).sealTick =
        (final Board.make opened (right.map Prod.snd)).sealTick ∧
      (final Board.make opened (left.map Prod.snd)).counts =
        { ticks := 1, publishes := 3, duplicates := 2 } ∧
      final Board.make opened.registry (left.map Prod.snd) =
        final Board.make opened.registry (right.map Prod.snd) := by
  intro opened rows left right
  have hown : OwnSources rows := by
    intro first second hne
    cases first <;> cases second <;> simp [rows, sourcesOf] at hne ⊢
  have hleft : Interleaves rows left := by
    intro caller
    cases caller <;> rfl
  have hright : Interleaves rows right := by
    intro caller
    cases caller <;> rfl
  obtain ⟨hbarrier, hregistry⟩ := publishers_do_not_disturb hown hleft hright
  obtain ⟨hanswers, -, hseal⟩ := hbarrier opened
  refine ⟨hown, hleft, hright, rfl, (hanswers true).2.trans ?_, hseal, ?_,
    (hregistry opened.registry).2⟩
  · rfl
  · rfl

end Publishers
end TickGate
