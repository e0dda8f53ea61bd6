import TickGate.Trigger

/-!
# The meaning of a decision

A decision is the policy's combination of the terms of the sources, or the fallback where there
is no source.  `Trigger.Holds` says this about any assignment of terms to sources, and
`decision_iff_holds` that a trigger decides so over the terms it reads.
-/

namespace TickGate
namespace Trigger

/-- What a trigger decides where its sources have these terms. -/
def Holds (trigger : Trigger) (term : SourceId → Bool) : Prop :=
  (trigger.sources = [] ∧ trigger.fallback = true) ∨
  (trigger.sources ≠ [] ∧
    match trigger.policy with
    | .all => ∀ id ∈ trigger.sources, term id = true
    | .any => ∃ id ∈ trigger.sources, term id = true
    | .level => ∃ id, trigger.sources = [id] ∧ term id = true)

theorem eq_nil_or_singleton {trigger : Trigger} (h : trigger.sources.length ≤ 1) :
    trigger.sources = [] ∨ ∃ id, trigger.sources = [id] := by
  cases hsources : trigger.sources with
  | nil => exact .inl rfl
  | cons id rest =>
      rw [hsources, List.length_cons] at h
      have hrest : rest = [] := List.eq_nil_of_length_eq_zero (by omega)
      exact .inr ⟨id, by rw [hrest]⟩

/-- A level trigger has one source, if it has any. -/
theorem eq_singleton_of_level {trigger : Trigger} (hpolicy : trigger.policy = .level)
    (hsources : trigger.sources ≠ []) : ∃ id, trigger.sources = [id] :=
  (eq_nil_or_singleton (trigger.sources_of_level hpolicy)).resolve_left hsources

theorem combine_map_iff {trigger : Trigger} (hsources : trigger.sources ≠ [])
    (term : SourceId → Bool) :
    trigger.policy.combine trigger.fallback (trigger.sources.map term) = true ↔
      trigger.Holds term := by
  have hholds := iff_of_false (show ¬(trigger.sources = [] ∧ trigger.fallback = true) from
    fun hnil => hsources hnil.1) not_false
  rw [Holds, hholds, false_or, and_iff_right hsources]
  cases hpolicy : trigger.policy with
  | all => simp [Policy.combine]
  | any => simp [Policy.combine]
  | level =>
      obtain ⟨id, hsingle⟩ := eq_singleton_of_level hpolicy hsources
      simp [Policy.combine, hsingle]

variable {ρ : Type} [View ρ]

/-- A trigger decides by the values that its sources have at the tick, silent ones counting as
the fallback. -/
theorem decision_iff_holds (trigger : Trigger) (view : ρ) (tick : Tick) :
    trigger.decision view tick = true ↔
      trigger.Holds fun id => (View.readAt view tick id).getD trigger.fallback := by
  by_cases hsources : trigger.sources = []
  · rw [decision_of_nil hsources, Holds]
    simp [hsources]
  · rw [decision_of_ne_nil hsources]
    exact combine_map_iff hsources _

/-- Over one source, every policy passes its value through. -/
theorem decision_of_singleton {trigger : Trigger} {id : SourceId} (h : trigger.sources = [id])
    (view : ρ) (tick : Tick) :
    trigger.decision view tick = (View.readAt view tick id).getD trigger.fallback := by
  have hne : trigger.sources ≠ [] := by
    rw [h]
    exact List.cons_ne_nil id []
  rw [decision_of_ne_nil hne, terms, h]
  exact Policy.combine_singleton trigger.policy trigger.fallback _

theorem holds_congr {trigger : Trigger} {left right : SourceId → Bool}
    (h : ∀ id ∈ trigger.sources, left id = right id) :
    trigger.Holds left ↔ trigger.Holds right := by
  by_cases hsources : trigger.sources = []
  · simp [Holds, hsources]
  · have hterms : trigger.sources.map left = trigger.sources.map right :=
      List.map_congr_left h
    rw [← combine_map_iff hsources, ← combine_map_iff hsources, hterms]

end Trigger
end TickGate
