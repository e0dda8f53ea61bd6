import TickGate.Proofs.Trigger.Reading

/-!
# The algebra of decisions

What a trigger decides is a conjunction or a disjunction of its terms, so decisions obey the laws
of these: neither the order of the sources nor a source named again shows, and two lists of sources
decide together what they decide apart.  A decision follows its terms upwards, and opposite terms
are decided oppositely by the dual trigger.  Every law has to hold for silent sources as well,
whose terms are the fallback, and for a trigger without sources, whose decision is the fallback.
-/

namespace TickGate

/-! ## Merging terms -/

namespace Policy

/-- The policy that merges opposite terms into the opposite. -/
def dual : Policy → Policy
  | all => any
  | any => all
  | level => level

/-- How a policy puts together what it merges two lists of terms into. -/
def join : Policy → Bool → Bool → Bool
  | all, front, back => front && back
  | any, front, back => front || back
  | level, front, _ => front

theorem dual_eq_level_iff {policy : Policy} : policy.dual = level ↔ policy = level := by
  cases policy <;> simp [dual]

theorem combine_dual (policy : Policy) (fallback : Bool) (terms : List Bool) :
    policy.dual.combine (!fallback) (terms.map (!·)) = !policy.combine fallback terms := by
  cases policy with
  | all =>
      rw [dual, combine, combine, List.any_map, List.not_all_eq_any_not]
      rfl
  | any =>
      rw [dual, combine, combine, List.all_map, List.not_any_eq_all_not]
      rfl
  | level =>
      cases terms with
      | nil => rfl
      | cons term terms => rfl

theorem combine_append (policy : Policy) (fallback : Bool) {front : List Bool} (h : front ≠ [])
    (back : List Bool) :
    policy.combine fallback (front ++ back) =
      policy.join (policy.combine fallback front) (policy.combine fallback back) := by
  cases policy with
  | all => exact List.all_append
  | any => exact List.any_append
  | level =>
      obtain ⟨term, terms, rfl⟩ := List.exists_cons_of_ne_nil h
      rfl

/-- Terms that are not lower are not merged into a lower one. -/
theorem combine_mono (policy : Policy) {α : Type} {sources : List α} {fallback higher : Bool}
    {low high : α → Bool} (hfallback : fallback ≤ higher)
    (hterms : ∀ source ∈ sources, low source ≤ high source) :
    policy.combine fallback (sources.map low) ≤ policy.combine higher (sources.map high) := by
  cases policy with
  | all =>
      rw [combine, combine, List.all_map, List.all_map]
      intro hlow
      rw [List.all_eq_true] at hlow ⊢
      intro source hmem
      exact hterms source hmem (hlow source hmem)
  | any =>
      rw [combine, combine, List.any_map, List.any_map]
      intro hlow
      rw [List.any_eq_true] at hlow ⊢
      obtain ⟨source, hmem, hsource⟩ := hlow
      exact ⟨source, hmem, hterms source hmem hsource⟩
  | level =>
      cases sources with
      | nil => exact hfallback
      | cons source sources => exact hterms source List.mem_cons_self

/-- Where all terms are merged, it only matters which terms there are. -/
theorem combine_eq_of_mem_iff {policy : Policy} (hpolicy : policy ≠ level) (fallback : Bool)
    {left right : List Bool} (h : ∀ term, term ∈ left ↔ term ∈ right) :
    policy.combine fallback left = policy.combine fallback right := by
  rw [Bool.eq_iff_iff]
  cases policy with
  | all =>
      rw [combine, combine, List.all_eq_true, List.all_eq_true]
      exact forall_congr' fun term => imp_congr_left (h term)
  | any =>
      rw [combine, combine, List.any_eq_true, List.any_eq_true]
      exact exists_congr fun term => and_congr_left' (h term)
  | level => exact absurd rfl hpolicy

end Policy

namespace Trigger

variable {ρ ρ' : Type} [View ρ] [View ρ']

/-- The trigger that decides the opposite over opposite values. -/
def dual (trigger : Trigger) : Trigger where
  sources := trigger.sources
  policy := trigger.policy.dual
  fallback := !trigger.fallback
  sources_of_level h := trigger.sources_of_level (Policy.dual_eq_level_iff.1 h)

/-! ## Sources -/

/-- Where all terms are merged, it only matters which sources are named. -/
theorem decide_eq_of_mem_iff {left right : Trigger} (hlevel : left.policy ≠ .level)
    (hpolicy : right.policy = left.policy) (hfallback : right.fallback = left.fallback)
    (hsources : ∀ id, id ∈ left.sources ↔ id ∈ right.sources) (view : ρ) (tick : Tick) :
    left.decide view tick = right.decide view tick := by
  have hempty : left.sources = [] ↔ right.sources = [] := by
    simp only [List.eq_nil_iff_forall_not_mem, hsources]
  have hterms : ∀ term, term ∈ left.terms view tick ↔ term ∈ right.terms view tick := by
    intro term
    simp only [terms, List.mem_map, hsources, hfallback]
  have hdecision : left.decision view tick = right.decision view tick := by
    by_cases hnil : left.sources = []
    · rw [decision_of_nil hnil, decision_of_nil (hempty.1 hnil), hfallback]
    · rw [decision_of_ne_nil hnil, decision_of_ne_nil (mt hempty.2 hnil), hpolicy, hfallback]
      exact Policy.combine_eq_of_mem_iff hlevel left.fallback hterms
  have hisEmpty : left.sources.isEmpty = right.sources.isEmpty := by
    rw [Bool.eq_iff_iff, List.isEmpty_iff, List.isEmpty_iff, hempty]
  rw [decide, decide, hdecision, hpolicy, hisEmpty]

/-- A trigger over the sources of two others decides by what these decide. -/
theorem decision_append {whole front back : Trigger} (hfront : front.sources ≠ [])
    (hback : back.sources ≠ []) (hsources : whole.sources = front.sources ++ back.sources)
    (hpolicy : front.policy = whole.policy ∧ back.policy = whole.policy)
    (hfallback : front.fallback = whole.fallback ∧ back.fallback = whole.fallback)
    (view : ρ) (tick : Tick) :
    whole.decision view tick =
      whole.policy.join (front.decision view tick) (back.decision view tick) := by
  have hterms : whole.terms view tick = front.terms view tick ++ back.terms view tick := by
    rw [terms, terms, terms, hsources, hfallback.1, hfallback.2, List.map_append]
  have hwhole : whole.sources ≠ [] := by
    rw [hsources]
    exact List.append_ne_nil_of_left_ne_nil hfront back.sources
  have hne : front.terms view tick ≠ [] := by
    rw [terms, ne_eq, List.map_eq_nil_iff]
    exact hfront
  rw [decision_of_ne_nil hwhole, decision_of_ne_nil hfront, decision_of_ne_nil hback, hpolicy.1,
    hpolicy.2, hfallback.1, hfallback.2, hterms]
  exact Policy.combine_append whole.policy whole.fallback hne (back.terms view tick)

/-! ## Values -/

theorem getD_mono {fallback higher : Bool} (hfallback : fallback ≤ higher)
    {low high : Option Bool} (h : Option.Rel (· ≤ ·) low high) :
    low.getD fallback ≤ high.getD higher := by
  cases h with
  | some hvalue => exact hvalue
  | none => exact hfallback

/-- A trigger with a higher fallback, over values that are not lower, does not decide lower. -/
theorem decision_mono {trigger : Trigger} {fallback : Bool}
    (hfallback : trigger.fallback ≤ fallback) {low : ρ} {high : ρ'} {tick : Tick}
    (hvalues : ∀ id ∈ trigger.sources,
      Option.Rel (· ≤ ·) (View.readAt low tick id) (View.readAt high tick id)) :
    trigger.decision low tick ≤ (trigger.withFallback fallback).decision high tick := by
  by_cases hnil : trigger.sources = []
  · have hraised : (trigger.withFallback fallback).sources = [] := hnil
    rw [decision_of_nil hnil, decision_of_nil hraised]
    exact hfallback
  · have hraised : (trigger.withFallback fallback).sources ≠ [] := hnil
    rw [decision_of_ne_nil hnil, decision_of_ne_nil hraised]
    apply Policy.combine_mono trigger.policy hfallback
    intro id hmem
    exact getD_mono hfallback (hvalues id hmem)

/-- Over opposite values the dual trigger decides the opposite. -/
theorem decision_dual {trigger : Trigger} {view : ρ} {negated : ρ'} {tick : Tick}
    (hvalues : ∀ id ∈ trigger.sources,
      View.readAt negated tick id = (View.readAt view tick id).map (!·)) :
    trigger.dual.decision negated tick = !trigger.decision view tick := by
  have hterms : trigger.dual.terms negated tick = (trigger.terms view tick).map (!·) := by
    rw [terms, terms, List.map_map]
    apply List.map_congr_left
    intro id hmem
    rw [hvalues id hmem]
    exact Option.getD_map (!·) trigger.fallback _
  by_cases hnil : trigger.sources = []
  · have hdual : trigger.dual.sources = [] := hnil
    rw [decision_of_nil hnil, decision_of_nil hdual]
    rfl
  · have hdual : trigger.dual.sources ≠ [] := hnil
    rw [decision_of_ne_nil hnil, decision_of_ne_nil hdual, hterms]
    exact Policy.combine_dual trigger.policy trigger.fallback _

/-! ## Silent sources -/

/-- A silent source that publishes the fallback is decided over as before. -/
theorem decide_publish_fallback (trigger : Trigger) {registry : Registry} {current : Tick}
    {id : SourceId} (hcurrent : registry.currentTick = some current)
    (hsilent : registry.read id = none) (tick : Tick) :
    (registry.publish id trigger.fallback).value.1 = .ok () ∧
      trigger.decide (registry.publish id trigger.fallback).value.2 tick =
        trigger.decide registry tick := by
  rw [Registry.publish_of_silent hcurrent hsilent]
  refine ⟨rfl, decide_eq_of_term_eq fun other _ => ?_⟩
  have hstored : trigger.term (registry.store id trigger.fallback) tick other =
      if registry.currentTick = some tick then
        ((registry.store id trigger.fallback).read other).getD trigger.fallback
      else trigger.fallback := rfl
  rw [hstored, Registry.store_read]
  by_cases hother : other = id
  · have hbefore : trigger.term registry tick other = trigger.fallback := by
      rw [hother]
      exact term_of_silent (.inr hsilent)
    rw [hbefore, if_pos hother, Option.getD_some, ite_self]
  · rw [if_neg hother]
    rfl

/-- The laws of decisions over views at a tick.  Under a policy that merges all terms the sources
may be named in any order and any number of times, and two lists of sources decide together the
conjunction, or the disjunction, of what they decide apart.  A higher fallback and higher values
never lower a decision.  Opposite values are decided oppositely by the dual trigger, which has the
opposite fallback and conjunction and disjunction exchanged.  And a source that is silent in the
current tick may publish the fallback instead. -/
theorem decision_obeys_algebra {ρ ρ' : Type} [View ρ] [View ρ'] (view : ρ) (other : ρ')
    (tick : Tick) (trigger : Trigger) :
    (∀ named : Trigger, trigger.policy ≠ .level → named.policy = trigger.policy →
      named.fallback = trigger.fallback → (∀ id, id ∈ trigger.sources ↔ id ∈ named.sources) →
      trigger.decide view tick = named.decide view tick) ∧
    (∀ (first second : List SourceId) (fallback : Bool), first ≠ [] → second ≠ [] →
      (((allOf (first ++ second)).withFallback fallback).decision view tick =
        (((allOf first).withFallback fallback).decision view tick &&
          ((allOf second).withFallback fallback).decision view tick)) ∧
      (((anyOf (first ++ second)).withFallback fallback).decision view tick =
        (((anyOf first).withFallback fallback).decision view tick ||
          ((anyOf second).withFallback fallback).decision view tick))) ∧
    (∀ fallback, trigger.fallback ≤ fallback →
      (∀ id ∈ trigger.sources,
        Option.Rel (· ≤ ·) (View.readAt view tick id) (View.readAt other tick id)) →
      trigger.decision view tick ≤ (trigger.withFallback fallback).decision other tick) ∧
    ((∀ id ∈ trigger.sources,
        View.readAt other tick id = (View.readAt view tick id).map (!·)) →
      trigger.dual.decision other tick = !trigger.decision view tick) ∧
    ∀ (registry : Registry) (current : Tick) (id : SourceId),
      registry.currentTick = some current → registry.read id = none →
      (registry.publish id trigger.fallback).value.1 = .ok () ∧
        trigger.decide (registry.publish id trigger.fallback).value.2 tick =
          trigger.decide registry tick := by
  refine ⟨?_, ?_, ?_, decision_dual, ?_⟩
  · intro named hlevel hpolicy hfallback hsources
    exact decide_eq_of_mem_iff hlevel hpolicy hfallback hsources view tick
  · intro first second fallback hfirst hsecond
    constructor
    · apply decision_append hfirst hsecond
      · rfl
      · exact ⟨rfl, rfl⟩
      · exact ⟨rfl, rfl⟩
    · apply decision_append hfirst hsecond
      · rfl
      · exact ⟨rfl, rfl⟩
      · exact ⟨rfl, rfl⟩
  · intro fallback hfallback hvalues
    exact decision_mono hfallback hvalues
  · intro registry current id hcurrent hsilent
    exact decide_publish_fallback trigger hcurrent hsilent tick

/-- Views in which one source has published and another one is silent. -/
theorem decision_obeys_algebra_of_silent_source :
    let low := (Snapshot.ofTick 3).insert "a" false
    let high := (Snapshot.ofTick 3).insert "a" true
    let trigger := anyOf ["a", "b", "a"]
    let named := anyOf ["b", "a"]
    let registry :=
      Session.final Registry.perform (.new .reject) [.beginTick 3, .publish "a" false]
    (∀ id, id ∈ trigger.sources ↔ id ∈ named.sources) ∧
    trigger.decide low 3 = named.decide low 3 ∧
    ((allOf (["a"] ++ ["b"])).withFallback true).decision low 3 =
      (((allOf ["a"]).withFallback true).decision low 3 &&
        ((allOf ["b"]).withFallback true).decision low 3) ∧
    (∀ id ∈ trigger.sources,
      Option.Rel (· ≤ ·) (View.readAt low 3 id) (View.readAt high 3 id)) ∧
    trigger.decision low 3 ≤ (trigger.withFallback true).decision high 3 ∧
    (∀ id ∈ trigger.sources, View.readAt high 3 id = (View.readAt low 3 id).map (!·)) ∧
    trigger.dual.decision high 3 = !trigger.decision low 3 ∧
    registry.currentTick = some 3 ∧ registry.read "b" = none ∧
    trigger.decide (registry.publish "b" false).value.2 3 = trigger.decide registry 3 := by
  intro low high trigger named registry
  obtain ⟨hnamed, happend, hmono, hdual, hpublish⟩ := decision_obeys_algebra low high 3 trigger
  have hsources : ∀ id, id ∈ trigger.sources ↔ id ∈ named.sources := by
    intro id
    simp only [trigger, named, anyOf, List.mem_cons, List.not_mem_nil]
    tauto
  have hraised : ∀ id ∈ trigger.sources,
      Option.Rel (· ≤ ·) (View.readAt low 3 id) (View.readAt high 3 id) := by
    have hpublished : Option.Rel (· ≤ ·) (View.readAt low 3 "a") (View.readAt high 3 "a") :=
      .some (Bool.false_le true)
    have hsilent : Option.Rel (· ≤ ·) (View.readAt low 3 "b") (View.readAt high 3 "b") := .none
    intro id hmem
    simp only [trigger, anyOf, List.mem_cons, List.not_mem_nil, or_false] at hmem
    rcases hmem with rfl | rfl | rfl
    · exact hpublished
    · exact hsilent
    · exact hpublished
  have hnegated : ∀ id ∈ trigger.sources,
      View.readAt high 3 id = (View.readAt low 3 id).map (!·) := by decide
  have hcurrent : registry.currentTick = some 3 := rfl
  have hread : registry.read "b" = none := rfl
  have hlists := happend ["a"] ["b"] true (List.cons_ne_nil _ _) (List.cons_ne_nil _ _)
  have hlevel : trigger.policy ≠ .level := by decide
  exact ⟨hsources, hnamed named hlevel rfl rfl hsources, hlists.1, hraised,
    hmono true (Bool.false_le true) hraised, hnegated, hdual hnegated, hcurrent, hread,
    (hpublish registry 3 "b" hcurrent hread).2⟩

end Trigger
end TickGate
