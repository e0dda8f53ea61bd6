import TickGate.Registry.Lemmas
import TickGate.Source.Basic

/-!
# The value of a source over time

What a source publishes at a moment is a function of its kind and of the moments before:
the level of a condition, an edge between its level before and its level now, or whether more
credits than debits were counted so far.  `evaluate_stateAfter` is the step of this law, from
any past to the next moment.
-/

namespace TickGate

/-- A tick with the state that the host has in it. -/
structure Moment (S : Type) where
  tick : Tick
  host : S

/-! ## Counting occurrences -/

namespace Count

/-- A number of occurrences as a count. -/
def ofOccurrences (n : Nat) : Count := .ofNat (min n limit.toNat)

theorem toNat_ofOccurrences (n : Nat) : (ofOccurrences n).toNat = min n limit.toNat := by
  rw [ofOccurrences, UInt64.toNat_ofNat', toNat_limit]
  omega

theorem next_ofOccurrences (n : Nat) : (ofOccurrences n).next = ofOccurrences (n + 1) := by
  rw [← UInt64.toNat_inj, toNat_next, toNat_ofOccurrences, toNat_ofOccurrences]
  omega

theorem ofOccurrences_lt_iff {m n : Nat} (hm : m < UInt64.size) (hn : n < UInt64.size) :
    ofOccurrences m < ofOccurrences n ↔ m < n := by
  have hsize : UInt64.size = limit.toNat + 1 := rfl
  rw [UInt64.lt_iff_toNat_lt, toNat_ofOccurrences, toNat_ofOccurrences]
  omega

end Count

/-! ## Conditions over a past -/

namespace Condition

variable {S : Type} (condition : Condition S)

/-- Whether the condition holds at a moment. -/
def holdsAt (moment : Moment S) : Bool := condition moment.tick moment.host

/-- The level of the condition at the last of some moments, low if there is none. -/
def levelAfter (past : List (Moment S)) : Bool := past.getLast?.elim false condition.holdsAt

/-- At how many of some moments the condition held. -/
def occurrences (past : List (Moment S)) : Nat := past.countP condition.holdsAt

@[simp] theorem levelAfter_concat (past : List (Moment S)) (now : Moment S) :
    condition.levelAfter (past ++ [now]) = condition.holdsAt now := by
  simp [levelAfter]

theorem occurrences_append (front back : List (Moment S)) :
    condition.occurrences (front ++ back) =
      condition.occurrences front + condition.occurrences back := List.countP_append

theorem occurrences_concat (past : List (Moment S)) (now : Moment S) :
    condition.occurrences (past ++ [now]) =
      condition.occurrences past + if condition.holdsAt now then 1 else 0 := by
  simp [occurrences, List.countP_singleton]

theorem occurrences_le_length (past : List (Moment S)) :
    condition.occurrences past ≤ past.length := List.countP_le_length

end Condition

/-- What a mode publishes of the level before and the level now. -/
def Mode.ofLevels : Mode → Bool → Bool → Bool
  | level, _, now => now
  | pulse .rising, before, now => !before && now
  | pulse .falling, before, now => before && !now
  | pulse .both, before, now => before ^^ now

theorem Mode.value_ofBool (mode : Mode) (before now : Bool) :
    mode.value (.ofBool before) (.ofBool now) = mode.ofLevels before now := by
  cases mode with
  | level => exact Level.isHigh_ofBool now
  | pulse edge =>
      cases edge with
      | rising => exact Edge.pulses_rising before now
      | falling => exact Edge.pulses_falling before now
      | both => exact Edge.pulses_both before now

/-! ## Sources -/

namespace Source

variable {S : Type}

/-- What a source watches and how. -/
inductive Kind (S : Type) where
  | probe (mode : Mode) (condition : Condition S)
  | balance (credit debit : Condition S)

/-- A source that has not seen any moment. -/
def ofKind (id : SourceId) : Kind S → Source S
  | .probe mode condition => .probe { id, condition, mode }
  | .balance credit debit => .balance { id, credit, debit }

namespace Kind

/-- What a source of this kind publishes now, after the moments of its past. -/
def value (kind : Kind S) (past : List (Moment S)) (now : Moment S) : Bool :=
  match kind with
  | probe mode condition => mode.ofLevels (condition.levelAfter past) (condition.holdsAt now)
  | balance credit debit =>
    Count.ofOccurrences (debit.occurrences (past ++ [now])) <
      Count.ofOccurrences (credit.occurrences (past ++ [now]))

/-- A source of this kind after the moments of its past. -/
def stateAfter (id : SourceId) (past : List (Moment S)) : Kind S → Source S
  | probe mode condition =>
    .probe { id, condition, mode, level := .ofBool (condition.levelAfter past) }
  | balance credit debit =>
    .balance
      { id, credit, debit
        credits := .ofOccurrences (credit.occurrences past)
        debits := .ofOccurrences (debit.occurrences past) }

theorem stateAfter_nil (id : SourceId) (kind : Kind S) : kind.stateAfter id [] = ofKind id kind := by
  cases kind <;> rfl

@[simp] theorem stateAfter_id (id : SourceId) (past : List (Moment S)) (kind : Kind S) :
    (kind.stateAfter id past).id = id := by
  cases kind <;> rfl

theorem tally_ofOccurrences (condition : Condition S) (past : List (Moment S)) (now : Moment S) :
    Balance.tally (.ofOccurrences (condition.occurrences past)) (condition.holdsAt now) =
      .ofOccurrences (condition.occurrences (past ++ [now])) := by
  rw [Condition.occurrences_concat]
  cases condition.holdsAt now with
  | false => rfl
  | true => exact Count.next_ofOccurrences _

/-- One evaluation gives the value of the kind and adds the moment to the past. -/
theorem evaluate_stateAfter (id : SourceId) (kind : Kind S) (past : List (Moment S))
    (now : Moment S) :
    (kind.stateAfter id past).evaluate now.tick now.host =
      (kind.value past now, kind.stateAfter id (past ++ [now])) := by
  cases kind with
  | probe mode condition =>
      simp only [stateAfter, value, evaluate, Probe.evaluate, Condition.levelAfter_concat]
      rw [← Mode.value_ofBool]
      rfl
  | balance credit debit =>
      simp only [stateAfter, value, evaluate, Balance.evaluate]
      rw [← tally_ofOccurrences, ← tally_ofOccurrences]
      rfl

/-- While the past is shorter than the largest count, credits and debits are compared exactly. -/
theorem value_balance_of_length_lt (credit debit : Condition S) {past : List (Moment S)}
    (h : past.length < Count.limit.toNat) (now : Moment S) :
    (balance credit debit).value past now =
      decide (debit.occurrences (past ++ [now]) < credit.occurrences (past ++ [now])) := by
  have hsize : UInt64.size = Count.limit.toNat + 1 := rfl
  have hcredit := credit.occurrences_le_length (past ++ [now])
  have hdebit := debit.occurrences_le_length (past ++ [now])
  rw [List.length_append, List.length_singleton] at hcredit hdebit
  rw [value, decide_eq_decide]
  exact Count.ofOccurrences_lt_iff (by omega) (by omega)

end Kind

/-! ## Publishing -/

/-- A source that is silent on a registry with a current tick publishes its value there. -/
theorem publish_value_of_silent (source : Source S) {registry : Registry} {current : Tick}
    (htick : registry.currentTick = some current) (hread : registry.read source.id = none)
    (tick : Tick) (host : S) :
    (source.publish registry tick host).value =
      (.ok (source.evaluate tick host).1, (source.evaluate tick host).2,
        registry.store source.id (source.evaluate tick host).1) := by
  have hpublish : registry.publish source.id (source.evaluate tick host).1 =
      { value := (.ok (), registry.store source.id (source.evaluate tick host).1)
        events := #[.published source.id current (source.evaluate tick host).1] } :=
    Registry.publish_of_silent htick hread
  simp only [publish, Board.publish, evaluate_id, hpublish, Traced.bind_value, Traced.pure_value]
  rfl

end Source
end TickGate
