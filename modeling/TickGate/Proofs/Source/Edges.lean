import Mathlib.Data.Nat.Bits
import TickGate.Proofs.Session
import TickGate.Proofs.Source.Value

/-!
# The values of a probe over a whole run

A probe is evaluated again and again, and reset from time to time.  What it remembers and what it
answers follows from the levels of its condition since it was reset last, where the level before
the first of them counts as low: `final_eq` and `valuesSince_eq`.  So the pulses of the three edges are
related as the changes of one level are.  A level that has risen falls before it rises again, and
the changes up to a moment tell the level at that moment.
-/

namespace TickGate

/-! ## The changes of a level -/

namespace Mode

/-- What a mode publishes of levels one after the other, when the level before them is known. -/
def along (mode : Mode) (before : Bool) (levels : List Bool) : List Bool :=
  List.zipWith mode.ofLevels (before :: levels) levels

theorem along_cons (mode : Mode) (before now : Bool) (levels : List Bool) :
    mode.along before (now :: levels) = mode.ofLevels before now :: mode.along now levels := rfl

theorem along_concat (mode : Mode) (before now : Bool) (levels : List Bool) :
    mode.along before (levels ++ [now]) =
      mode.along before levels ++ [mode.ofLevels (levels.getLastD before) now] := by
  induction levels generalizing before with
  | nil => rfl
  | cons next levels ih =>
      rw [List.cons_append, along_cons, ih, along_cons, List.getLastD_cons, List.cons_append]

theorem along_both (before : Bool) (levels : List Bool) :
    (pulse .both).along before levels =
      List.zipWith (· || ·) ((pulse .rising).along before levels)
        ((pulse .falling).along before levels) := by
  induction levels generalizing before with
  | nil => rfl
  | cons now levels ih =>
      have hfirst : (before ^^ now) = (!before && now || before && !now) := by
        cases before <;> cases now <;> rfl
      rw [along_cons, ih, along_cons, along_cons, List.zipWith_cons_cons]
      exact congrArg (· :: _) hfirst

theorem along_rising_falling (before : Bool) (levels : List Bool) (i : ℕ) :
    ¬(((pulse .rising).along before levels)[i]? = some true ∧
      ((pulse .falling).along before levels)[i]? = some true) := by
  induction levels generalizing before i with
  | nil => simp [along]
  | cons now levels ih =>
      rw [along_cons, along_cons]
      cases i with
      | zero => cases before <;> cases now <;> simp [ofLevels]
      | succ i => exact ih now i

/-- A level rises once more than it falls, if it is low at first and high at last. -/
theorem count_along_rising (before : Bool) (levels : List Bool) :
    ((pulse .rising).along before levels).count true + before.toNat =
      ((pulse .falling).along before levels).count true + (levels.getLastD before).toNat := by
  induction levels generalizing before with
  | nil => rfl
  | cons now levels ih =>
      have hrest := ih now
      rw [along_cons, along_cons, List.count_cons, List.count_cons, List.getLastD_cons]
      cases before <;> cases now <;> simp [ofLevels] at hrest ⊢ <;> omega

/-- The level changes an odd number of times exactly where it is not what it was before. -/
theorem level_of_along_both (before : Bool) {levels : List Bool} {i : ℕ}
    (h : i ≤ levels.length) :
    (before :: levels)[i]? =
      some (before ^^ ((((pulse .both).along before levels).take i).count true).bodd) := by
  induction levels generalizing before i with
  | nil =>
      obtain rfl := Nat.le_zero.mp h
      simp
  | cons now levels ih =>
      cases i with
      | zero => simp
      | succ i =>
          have hrest := ih now (Nat.le_of_succ_le_succ h)
          rw [along_cons, List.take_succ_cons, List.count_cons, Nat.bodd_add,
            List.getElem?_cons_succ, hrest]
          cases before <;> cases now <;> simp [ofLevels]

end Mode

/-- A level that has just risen cannot rise at once again, nor one that has fallen fall. -/
theorem Edge.pulses_next {edge : Edge} (h : edge ≠ .both) {before now : Level}
    (hpulse : edge.pulses before now = true) (next : Level) : edge.pulses now next = false := by
  cases edge with
  | both => exact absurd rfl h
  | rising => cases before <;> cases now <;> cases next <;> trivial
  | falling => cases before <;> cases now <;> cases next <;> trivial

namespace Probe

variable {S : Type}

/-! ## Uses of a probe -/

/-- What is done with a probe. -/
inductive Use (S : Type) where
  | evaluate (moment : Moment S)
  | reset

/-- The level of a condition where a use evaluates it. -/
def Use.level? (condition : Condition S) : Use S → Option Bool
  | evaluate moment => some (condition.holdsAt moment)
  | reset => none

/-- Performs one use.  An evaluation is answered by its value. -/
def perform (probe : Probe S) : Use S → Option Bool × Probe S
  | .evaluate moment =>
    let (value, probe) := probe.evaluate moment.tick moment.host
    (some value, probe)
  | .reset => (none, probe.reset)

/-- What was noted since the last reset, where a reset is noted as nothing. -/
def sinceReset (notes : List (Option Bool)) : List Bool :=
  notes.foldl (fun found note => note.elim [] fun noted => found ++ [noted]) []

/-- The levels of a condition at the evaluations since the last reset. -/
def levelsSince (condition : Condition S) (uses : List (Use S)) : List Bool :=
  sinceReset (uses.map (Use.level? condition))

/-- The values that a probe has answered since the last reset. -/
def valuesSince (probe : Probe S) (uses : List (Use S)) : List Bool :=
  sinceReset ((Session.log perform probe uses).map Prod.snd)

theorem sinceReset_concat (notes : List (Option Bool)) (note : Option Bool) :
    sinceReset (notes ++ [note]) = note.elim [] fun noted => sinceReset notes ++ [noted] := by
  simp [sinceReset]

theorem levelsSince_concat (condition : Condition S) (uses : List (Use S)) (use : Use S) :
    levelsSince condition (uses ++ [use]) =
      (use.level? condition).elim [] fun level => levelsSince condition uses ++ [level] := by
  rw [levelsSince, List.map_append, List.map_singleton, sinceReset_concat]
  rfl

theorem valuesSince_concat (probe : Probe S) (uses : List (Use S)) (use : Use S) :
    probe.valuesSince (uses ++ [use]) =
      ((Session.final perform probe uses).perform use).1.elim []
        fun value => probe.valuesSince uses ++ [value] := by
  rw [valuesSince, Session.log_concat, List.map_append, List.map_singleton, sinceReset_concat]
  rfl

/-! ## What a probe remembers and answers -/

variable (id : SourceId) (condition : Condition S) (mode : Mode)

/-- A probe remembers the level at the last evaluation, low if there was none since the reset. -/
theorem final_eq (uses : List (Use S)) :
    Session.final perform { id, condition, mode } uses =
      { id, condition, mode, level := .ofBool ((levelsSince condition uses).getLastD false) } := by
  induction uses using List.reverseRecOn with
  | nil => rfl
  | append_singleton uses use ih =>
      rw [Session.final_concat, ih, levelsSince_concat]
      cases use with
      | evaluate moment =>
          rw [Use.level?, Option.elim_some, List.getLastD_concat]
          rfl
      | reset => rfl

/-- An evaluation is answered by what the mode publishes of the level at the evaluation before and
of the level now. -/
theorem perform_final_evaluate (uses : List (Use S)) (moment : Moment S) :
    ((Session.final perform { id, condition, mode } uses).perform (.evaluate moment)).1 =
      some (mode.ofLevels ((levelsSince condition uses).getLastD false)
        (condition.holdsAt moment)) := by
  rw [final_eq, ← Mode.value_ofBool]
  rfl

theorem valuesSince_eq (uses : List (Use S)) :
    valuesSince { id, condition, mode } uses = mode.along false (levelsSince condition uses) := by
  induction uses using List.reverseRecOn with
  | nil => rfl
  | append_singleton uses use ih =>
      rw [valuesSince_concat, levelsSince_concat]
      cases use with
      | evaluate moment =>
          rw [perform_final_evaluate, ih]
          exact (Mode.along_concat mode false _ _).symm
      | reset => rfl

theorem perform_evaluate_of_pulse {edge : Edge} {probe : Probe S}
    (h : probe.mode = .pulse edge) (moment : Moment S) :
    (probe.perform (.evaluate moment)).1 =
      some (edge.pulses probe.level (.ofBool (probe.condition.holdsAt moment))) := by
  rw [perform, evaluate, h]
  rfl

/-- Of two evaluations one after the other only one is a pulse, unless either edge makes one. -/
theorem perform_evaluate_twice {edge : Edge} (h : edge ≠ .both) {probe : Probe S}
    (hmode : probe.mode = .pulse edge) {first : Moment S}
    (hpulse : (probe.perform (.evaluate first)).1 = some true) (second : Moment S) :
    ((probe.perform (.evaluate first)).2.perform (.evaluate second)).1 = some false := by
  have hnext : (probe.perform (.evaluate first)).2.mode = .pulse edge := hmode
  rw [perform_evaluate_of_pulse hmode] at hpulse
  rw [perform_evaluate_of_pulse hnext]
  exact congrArg some (Edge.pulses_next h (Option.some.inj hpulse) _)

/-- In any run of a probe, with any resets: an evaluation is answered by what the mode publishes of
the level before and the level now, both counted since the last reset and the level before the
first being low, and the probe remembers the last of these levels.  So the pulses at either edge
are those at a rising and those at a falling edge together, and no moment has both; a level that is
high has risen once more than it has fallen, a low one as often; no probe for one edge makes pulses
at two evaluations in a row; and each level is the parity of the pulses at either edge up to it. -/
theorem pulses_follow_levels (id : SourceId) (condition : Condition S) (uses : List (Use S)) :
    let probe (mode : Mode) : Probe S := { id, condition, mode }
    let levels := levelsSince condition uses
    let pulses (edge : Edge) := (probe (.pulse edge)).valuesSince uses
    (∀ mode n moment, uses[n]? = some (.evaluate moment) →
      (Session.log perform (probe mode) uses)[n]? =
        some (.evaluate moment,
          some (mode.ofLevels ((levelsSince condition (uses.take n)).getLastD false)
            (condition.holdsAt moment)))) ∧
    (∀ mode, (probe mode).valuesSince uses = List.zipWith mode.ofLevels (false :: levels) levels) ∧
    (∀ mode, (Session.final perform (probe mode) uses).level.isHigh = levels.getLastD false) ∧
    pulses .both = List.zipWith (· || ·) (pulses .rising) (pulses .falling) ∧
    (∀ i : ℕ, ¬((pulses .rising)[i]? = some true ∧ (pulses .falling)[i]? = some true)) ∧
    (pulses .rising).count true =
      (pulses .falling).count true + (if levels.getLastD false then 1 else 0) ∧
    (∀ edge, edge ≠ .both → ∀ n first second,
      (Session.log perform (probe (.pulse edge)) uses)[n]? =
        some (.evaluate first, some true) →
      (Session.log perform (probe (.pulse edge)) uses)[n + 1]? ≠
        some (.evaluate second, some true)) ∧
    ∀ i ≤ levels.length,
      (false :: levels)[i]? = some (((pulses .both).take i).count true).bodd := by
  intro probe levels pulses
  have hpulses (edge : Edge) : pulses edge = (Mode.pulse edge).along false levels :=
    valuesSince_eq id condition (.pulse edge) uses
  rw [hpulses .both, hpulses .rising, hpulses .falling]
  refine ⟨?_, fun mode => valuesSince_eq id condition mode uses, ?_, Mode.along_both false levels,
    Mode.along_rising_falling false levels, ?_, ?_, ?_⟩
  · intro mode n moment huse
    rw [Session.getElem?_log, huse, Option.map_some, perform_final_evaluate]
  · intro mode
    rw [final_eq]
    exact Level.isHigh_ofBool _
  · have hcount := Mode.count_along_rising false levels
    rw [Bool.toNat_false, Nat.add_zero] at hcount
    rw [hcount]
    cases levels.getLastD false <;> rfl
  · intro edge hedge n first second hfirst hsecond
    rw [Session.getElem?_log] at hfirst hsecond
    obtain ⟨use, huse, hpulse⟩ := Option.map_eq_some_iff.1 hfirst
    obtain ⟨next, -, hagain⟩ := Option.map_eq_some_iff.1 hsecond
    obtain ⟨rfl, hpulse⟩ := Prod.mk.inj hpulse
    obtain ⟨rfl, hagain⟩ := Prod.mk.inj hagain
    have hmode : (Session.final perform (probe (.pulse edge)) (uses.take n)).mode =
        .pulse edge := by
      rw [final_eq]
    rw [Session.final_take_succ perform _ huse,
      perform_evaluate_twice hedge hmode hpulse] at hagain
    exact nomatch hagain
  · intro i hi
    rw [Mode.level_of_along_both false hi, Bool.false_xor]

/-- A level that is high when the probe is reset, and still high afterwards, has risen again. -/
theorem pulses_follow_levels_of_reset :
    let condition : Condition Unit := .within { low := 2, high := 3 }
    let moment (tick : Tick) : Moment Unit := { tick, host := () }
    let uses : List (Use Unit) :=
      [.evaluate (moment 2), .reset, .evaluate (moment 3), .evaluate (moment 4),
        .evaluate (moment 2)]
    let rising : Probe Unit := { id := "a", condition, mode := .pulse .rising }
    let either : Probe Unit := { id := "a", condition, mode := .pulse .both }
    let log := Session.log perform rising uses
    uses[2]? = some (.evaluate (moment 3)) ∧
    log[2]? = some (.evaluate (moment 3), some true) ∧
    log[3]? ≠ some (.evaluate (moment 4), some true) ∧
    3 ≤ (levelsSince condition uses).length ∧
    (((either.valuesSince uses).take 3).count true).bodd = true := by
  intro condition moment uses rising either log
  have huse : uses[2]? = some (.evaluate (moment 3)) := rfl
  have hlength : 3 ≤ (levelsSince condition uses).length := Nat.le_refl 3
  obtain ⟨hanswer, -, -, -, -, -, hrow, hparity⟩ := pulses_follow_levels "a" condition uses
  have hpulse : log[2]? = some (.evaluate (moment 3), some true) :=
    hanswer (.pulse .rising) 2 (moment 3) huse
  have hnext : log[3]? ≠ some (.evaluate (moment 4), some true) :=
    hrow .rising nofun 2 (moment 3) (moment 4) hpulse
  exact ⟨huse, hpulse, hnext, hlength, (Option.some.inj (hparity 3 hlength)).symm⟩

end Probe
end TickGate
