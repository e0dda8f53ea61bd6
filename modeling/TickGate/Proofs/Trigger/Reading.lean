import TickGate.Proofs.Registry.History
import TickGate.Proofs.Trigger.Meaning

/-!
# What a trigger reads

A trigger reads one term for each of its sources, and nothing else.  The term is the source's value
where the view holds the tick that the trigger is asked about and the source has published in it,
and the fallback otherwise: `term`.  So the decision is a function of the terms, and where all of
them are the fallback it is the fallback too, whatever the policy and however many there are.
-/

namespace TickGate

/-- Terms that are all alike merge into one of them, under any policy. -/
theorem Policy.combine_replicate (policy : Policy) (fallback term : Bool) {n : ℕ} (h : n ≠ 0) :
    policy.combine fallback (List.replicate n term) = term := by
  obtain ⟨n, rfl⟩ := Nat.exists_eq_succ_of_ne_zero h
  cases policy with
  | all => simp [combine]
  | any => simp [combine]
  | level => rfl

namespace Trigger

variable {ρ ρ' : Type} [View ρ] [View ρ'] {trigger : Trigger}

/-- The term of a source when a trigger is asked about a tick. -/
def term (trigger : Trigger) (view : ρ) (tick : Tick) (id : SourceId) : Bool :=
  if View.tick view = some tick then (View.read view id).getD trigger.fallback
  else trigger.fallback

theorem getD_readAt (view : ρ) (tick : Tick) (id : SourceId) :
    (View.readAt view tick id).getD trigger.fallback = trigger.term view tick id := by
  by_cases htick : View.tick view = some tick
  · rw [View.readAt_of_tick_eq htick, term, if_pos htick]
  · rw [View.readAt_of_tick_ne htick, term, if_neg htick, Option.getD_none]

theorem term_of_silent {view : ρ} {tick : Tick} {id : SourceId}
    (h : View.tick view ≠ some tick ∨ View.read view id = none) :
    trigger.term view tick id = trigger.fallback := by
  rw [term]
  split
  · rename_i htick
    have hread : View.read view id = none := h.resolve_left fun hne => hne htick
    rw [hread, Option.getD_none]
  · rfl

theorem terms_eq_map (view : ρ) (tick : Tick) :
    trigger.terms view tick = trigger.sources.map (trigger.term view tick) :=
  List.map_congr_left fun id _ => getD_readAt view tick id

/-! ## What decides -/

/-- Sources that are all silent leave the decision to the fallback. -/
theorem decision_of_silent {view : ρ} {tick : Tick}
    (h : ∀ id ∈ trigger.sources, trigger.term view tick id = trigger.fallback) :
    trigger.decision view tick = trigger.fallback := by
  by_cases hsources : trigger.sources = []
  · exact decision_of_nil hsources view tick
  · have hterms : trigger.terms view tick =
        List.replicate trigger.sources.length trigger.fallback := by
      rw [terms_eq_map, List.map_congr_left h, List.map_const']
    have hlength : trigger.sources.length ≠ 0 := by
      intro hzero
      exact hsources (List.eq_nil_of_length_eq_zero hzero)
    rw [decision_of_ne_nil hsources, hterms]
    exact Policy.combine_replicate trigger.policy trigger.fallback trigger.fallback hlength

/-- Views that give the sources the same terms are decided alike, with the same report. -/
theorem decide_eq_of_term_eq {left : ρ} {right : ρ'} {tick : Tick}
    (h : ∀ id ∈ trigger.sources, trigger.term left tick id = trigger.term right tick id) :
    trigger.decide left tick = trigger.decide right tick := by
  have hterms : trigger.terms left tick = trigger.terms right tick := by
    rw [terms_eq_map, terms_eq_map, List.map_congr_left h]
  rw [decide, decide, decision, decision, hterms]

theorem decide_eq_of_readAt_eq {left : ρ} {right : ρ'} {tick : Tick}
    (h : ∀ id ∈ trigger.sources, View.readAt left tick id = View.readAt right tick id) :
    trigger.decide left tick = trigger.decide right tick := by
  apply decide_eq_of_term_eq
  intro id hmem
  rw [← getD_readAt, ← getD_readAt, h id hmem]

/-- A trigger asked about a tick decides by the terms of its sources: it decides the fallback where
it has none, and otherwise merges the terms as its policy says.  So over a view of another tick, or
one in which none of its sources has published, the fallback is decided; views in which its sources
read alike at the tick are decided alike; and a registry is decided as a copy of its snapshot is,
its values being those that its rule keeps of the publishes since the tick began last. -/
theorem decides_by_terms (trigger : Trigger) (tick : Tick) :
    (∀ {ρ : Type} [View ρ] (view : ρ),
      let decided := (trigger.decide view tick).value
      (decided = true ↔ trigger.Holds (trigger.term view tick)) ∧
      (trigger.sources = [] → decided = trigger.fallback) ∧
      (View.tick view ≠ some tick ∨ (∀ id ∈ trigger.sources, View.read view id = none) →
        decided = trigger.fallback)) ∧
    (∀ {ρ ρ' : Type} [View ρ] [View ρ'] (left : ρ) (right : ρ'),
      (∀ id ∈ trigger.sources, View.readAt left tick id = View.readAt right tick id) →
      trigger.decide left tick = trigger.decide right tick) ∧
    (∀ registry : Registry,
      trigger.decide registry tick = trigger.decide registry.snapshot tick) ∧
    ∀ (rule : DuplicateRule) (calls : List Registry.Call),
      let registry := Session.final Registry.perform (Registry.new rule) calls
      (trigger.decide registry tick).value = true ↔ trigger.Holds fun id =>
        if Registry.latestTick calls = some tick then
          (rule.kept (Registry.publishes calls) id).getD trigger.fallback
        else trigger.fallback := by
  have hholds {ρ : Type} [View ρ] (view : ρ) :
      (trigger.decide view tick).value = true ↔ trigger.Holds (trigger.term view tick) := by
    rw [decide_value, decision_iff_holds]
    apply holds_congr
    intro id _
    exact getD_readAt view tick id
  refine ⟨?_, fun left right => decide_eq_of_readAt_eq, ?_, ?_⟩
  · intro ρ _ view decided
    refine ⟨hholds view, fun hnil => decision_of_nil hnil view tick, ?_⟩
    intro hsilent
    apply decision_of_silent
    intro id hmem
    exact term_of_silent (hsilent.imp_right fun hnone => hnone id hmem)
  · intro registry
    exact decide_eq_of_readAt_eq fun id _ => rfl
  · intro rule calls registry
    have htracks : Registry.Tracks rule (Registry.latestTick calls) (Registry.publishes calls)
        registry := Registry.tracks_session rule calls
    rw [hholds registry]
    apply holds_congr
    intro id _
    rw [← htracks.currentTick, ← htracks.read]
    rfl

/-- A registry that was begun for tick three, asked about that tick and about the next. -/
theorem decides_by_terms_of_next_tick :
    let trigger := (Trigger.allOf ["a", "b"]).withFallback true
    let registry :=
      Session.final Registry.perform (.new .reject) [.beginTick 3, .publish "a" false]
    let other := ((Snapshot.ofTick 3).insert "c" true).insert "a" false
    View.tick registry ≠ some 4 ∧ (trigger.decide registry 4).value = true ∧
    (∀ id ∈ trigger.sources, View.read (Snapshot.ofTick 3) id = none) ∧
    (trigger.decide (Snapshot.ofTick 3) 3).value = true ∧
    (∀ id ∈ trigger.sources, View.readAt registry 3 id = View.readAt other 3 id) ∧
    trigger.decide registry 3 = trigger.decide other 3 ∧
    (trigger.decide registry 3).value = false := by
  intro trigger registry other
  have hnext : View.tick registry ≠ some 4 := by decide
  have hsilent : ∀ id ∈ trigger.sources, View.read (Snapshot.ofTick 3) id = none := by decide
  have halike : ∀ id ∈ trigger.sources, View.readAt registry 3 id = View.readAt other 3 id := by
    decide
  obtain ⟨hstale, -⟩ := decides_by_terms trigger 4
  obtain ⟨hempty, hcongr, -⟩ := decides_by_terms trigger 3
  exact ⟨hnext, (hstale registry).2.2 (.inl hnext), hsilent,
    (hempty (Snapshot.ofTick 3)).2.2 (.inr hsilent), halike, hcongr registry other halike, rfl⟩

end Trigger
end TickGate
