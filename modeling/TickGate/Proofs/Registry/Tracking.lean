import TickGate.Registry.Lemmas

/-!
# What a registry remembers of its publishes

Of the values that a source publishes within one tick a registry keeps the first or the last,
as its rule says.  A registry *tracks* a list of publishes if it holds, for the current tick,
what the rule keeps of them.  Beginning a tick starts with no publishes, declaring changes
nothing, and `Tracks.publish` lists the three ways in which one more publish can end.
-/

namespace TickGate

/-! ## The value that a rule keeps -/

/-- The values that a source published, the earliest first. -/
def valuesOf (publishes : List (SourceId × Bool)) (id : SourceId) : List Bool :=
  (publishes.filter fun publish => publish.1 = id).map Prod.snd

/-- The names under which something was published. -/
def sourcesOf (publishes : List (SourceId × Bool)) : List SourceId := publishes.map Prod.fst

/-- The value that a rule keeps of a source's publishes. -/
def DuplicateRule.kept (rule : DuplicateRule) (publishes : List (SourceId × Bool))
    (id : SourceId) : Option Bool :=
  match rule with
  | .reject => (valuesOf publishes id).head?
  | .lastWriteWins => (valuesOf publishes id).getLast?

theorem valuesOf_concat_self (publishes : List (SourceId × Bool)) (id : SourceId) (value : Bool) :
    valuesOf (publishes ++ [(id, value)]) id = valuesOf publishes id ++ [value] := by
  simp [valuesOf]

theorem valuesOf_concat_of_ne (publishes : List (SourceId × Bool)) {id other : SourceId}
    (h : other ≠ id) (value : Bool) :
    valuesOf (publishes ++ [(id, value)]) other = valuesOf publishes other := by
  simp [valuesOf, Ne.symm h]

theorem valuesOf_eq_nil_iff {publishes : List (SourceId × Bool)} {id : SourceId} :
    valuesOf publishes id = [] ↔ id ∉ sourcesOf publishes := by
  simp only [valuesOf, sourcesOf, List.map_eq_nil_iff, List.filter_eq_nil_iff, List.mem_map,
    decide_eq_true_eq]
  constructor
  · rintro h ⟨publish, hmem, hid⟩
    exact h publish hmem hid
  · intro h publish hmem hid
    exact h ⟨publish, hmem, hid⟩

namespace DuplicateRule

variable {rule : DuplicateRule} {publishes : List (SourceId × Bool)} {id other : SourceId}
  {value : Bool}

theorem kept_eq_none_iff : rule.kept publishes id = none ↔ id ∉ sourcesOf publishes := by
  rw [← valuesOf_eq_nil_iff]
  cases rule with
  | reject => exact List.head?_eq_none_iff
  | lastWriteWins => exact List.getLast?_eq_none_iff

theorem kept_isSome_iff : (rule.kept publishes id).isSome ↔ id ∈ sourcesOf publishes := by
  rw [Option.isSome_iff_ne_none, ne_eq, kept_eq_none_iff, Decidable.not_not]

theorem kept_concat_of_ne (h : other ≠ id) :
    rule.kept (publishes ++ [(id, value)]) other = rule.kept publishes other := by
  simp only [kept, valuesOf_concat_of_ne publishes h]

/-- The first publish of a source is kept under either rule. -/
theorem kept_concat_of_not_mem (h : id ∉ sourcesOf publishes) :
    rule.kept (publishes ++ [(id, value)]) id = some value := by
  have hnil : valuesOf publishes id = [] := valuesOf_eq_nil_iff.2 h
  cases rule <;> simp [kept, valuesOf_concat_self, hnil]

theorem kept_lastWriteWins_concat :
    lastWriteWins.kept (publishes ++ [(id, value)]) id = some value := by
  simp [kept, valuesOf_concat_self]

/-- Where repeats are rejected, a repeat leaves what is kept as it is. -/
theorem kept_reject_concat_of_mem (h : id ∈ sourcesOf publishes) :
    reject.kept (publishes ++ [(id, value)]) other = reject.kept publishes other := by
  by_cases hother : other = id
  · subst hother
    have hsome : (reject.kept publishes other).isSome := kept_isSome_iff.2 h
    obtain ⟨first, hfirst⟩ := Option.isSome_iff_exists.1 hsome
    have hhead : (valuesOf publishes other).head? = some first := hfirst
    rw [hfirst, kept, valuesOf_concat_self, List.head?_append, hhead]
    rfl
  · exact kept_concat_of_ne hother

end DuplicateRule

/-! ## Tracking -/

namespace Registry

/-- The registry holds for `tick` what its rule keeps of `publishes`. -/
structure Tracks (rule : DuplicateRule) (tick : Option Tick)
    (publishes : List (SourceId × Bool)) (registry : Registry) : Prop where
  duplicateRule : registry.duplicateRule = rule
  currentTick : registry.currentTick = tick
  read : ∀ id, registry.read id = rule.kept publishes id

namespace Tracks

variable {rule : DuplicateRule} {tick : Option Tick} {publishes : List (SourceId × Bool)}
  {registry : Registry}

theorem of_new (rule : DuplicateRule) : Tracks rule none [] (Registry.new rule) where
  duplicateRule := rfl
  currentTick := rfl
  read _ := by cases rule <;> rfl

/-- Tracking looks at the snapshot and the rule only. -/
theorem congr (h : Tracks rule tick publishes registry) {other : Registry}
    (hrule : other.duplicateRule = registry.duplicateRule)
    (hsnapshot : other.snapshot = registry.snapshot) : Tracks rule tick publishes other where
  duplicateRule := hrule.trans h.duplicateRule
  currentTick := by rw [Registry.currentTick, hsnapshot, ← Registry.currentTick, h.currentTick]
  read id := by rw [Registry.read, hsnapshot, ← Registry.read, h.read]

theorem declare (h : Tracks rule tick publishes registry) (id : SourceId) :
    Tracks rule tick publishes (registry.declare id).2 := h.congr rfl rfl

theorem beginTick (hrule : registry.duplicateRule = rule) (start : Tick) :
    Tracks rule (some start) [] (registry.beginTick start).value where
  duplicateRule := hrule
  currentTick := rfl
  read _ := by cases rule <;> rfl

theorem read_eq_none_iff (h : Tracks rule tick publishes registry) {id : SourceId} :
    registry.read id = none ↔ id ∉ sourcesOf publishes := by
  rw [h.read, DuplicateRule.kept_eq_none_iff]

theorem read_isSome_iff (h : Tracks rule tick publishes registry) {id : SourceId} :
    (registry.read id).isSome ↔ id ∈ sourcesOf publishes := by
  rw [h.read, DuplicateRule.kept_isSome_iff]

theorem countDuplicate (h : Tracks rule tick publishes registry) :
    Tracks rule tick publishes registry.countDuplicate := h.congr rfl rfl

theorem store (h : Tracks rule tick publishes registry) {id : SourceId} {value : Bool}
    (hkept : rule.kept (publishes ++ [(id, value)]) id = some value) :
    Tracks rule tick (publishes ++ [(id, value)]) (registry.store id value) where
  duplicateRule := h.duplicateRule
  currentTick := h.currentTick
  read other := by
    rw [store_read]
    by_cases hother : other = id
    · rw [if_pos hother, hother, hkept]
    · rw [if_neg hother, h.read, DuplicateRule.kept_concat_of_ne hother]

/-- A rejected repeat may be counted among the publishes or not. -/
theorem concat_of_mem (h : Tracks .reject tick publishes registry) {id : SourceId}
    (hmem : id ∈ sourcesOf publishes) (value : Bool) :
    Tracks .reject tick (publishes ++ [(id, value)]) registry where
  duplicateRule := h.duplicateRule
  currentTick := h.currentTick
  read other := by rw [h.read, DuplicateRule.kept_reject_concat_of_mem hmem]

/-- The three ways in which a publish ends: there is no tick, the rule rejects a repeat, or the
value is stored. -/
theorem publish (h : Tracks rule tick publishes registry) (id : SourceId) (value : Bool) :
    (tick = none ∧ (registry.publish id value).value = (.error .noActiveTick, registry)) ∨
    (∃ current, tick = some current ∧ rule = .reject ∧ id ∈ sourcesOf publishes ∧
      (registry.publish id value).value =
        (.error (.duplicatePublish id current), registry.countDuplicate)) ∨
    (∃ current next, tick = some current ∧ ¬(rule = .reject ∧ id ∈ sourcesOf publishes) ∧
      (registry.publish id value).value = (.ok (), next) ∧
      Tracks rule tick (publishes ++ [(id, value)]) next) := by
  cases tick with
  | none =>
      refine .inl ⟨rfl, ?_⟩
      rw [publish_of_idle h.currentTick]
      rfl
  | some current =>
      right
      by_cases hmem : id ∈ sourcesOf publishes
      · obtain ⟨previous, hread⟩ := Option.isSome_iff_exists.1 (h.read_isSome_iff.2 hmem)
        cases rule with
        | reject =>
            refine .inl ⟨current, rfl, rfl, hmem, ?_⟩
            rw [publish_of_reject h.currentTick hread h.duplicateRule]
            rfl
        | lastWriteWins =>
            have hkept :
                DuplicateRule.lastWriteWins.kept (publishes ++ [(id, value)]) id = some value :=
              DuplicateRule.kept_lastWriteWins_concat
            have hstored := h.countDuplicate.store hkept
            refine .inr ⟨current, _, rfl, fun hreject => ?_, ?_, hstored⟩
            · exact absurd hreject.1 (by decide)
            rw [publish_of_lastWriteWins h.currentTick hread h.duplicateRule]
      · have hkept : rule.kept (publishes ++ [(id, value)]) id = some value :=
          DuplicateRule.kept_concat_of_not_mem hmem
        have hstored := h.store hkept
        refine .inr ⟨current, _, rfl, fun hreject => hmem hreject.2, ?_, hstored⟩
        rw [publish_of_silent h.currentTick (h.read_eq_none_iff.2 hmem)]

end Tracks

end Registry
end TickGate
