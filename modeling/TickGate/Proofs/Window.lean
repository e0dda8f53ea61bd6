import Mathlib.Data.FinEnum
import Mathlib.Order.Interval.Finset.Nat
import TickGate.Proofs.Scenario.Emission

/-!
# How many ticks lie inside a window

The size of a window is computed from its ends.  Here the ticks inside are counted: they are as
many as the numbers between the ends, and those before a given tick as many as the numbers that the
tick does not cut off.  Main statement: `size_counts_ticks`.
-/

namespace TickGate

/-- A span of numbers that are all ticks holds as many ticks as numbers. -/
theorem card_ticks_between {low stop : ℕ} (hstop : stop ≤ UInt64.size) :
    (Finset.univ.filter fun tick : Tick => low ≤ tick.toNat ∧ tick.toNat < stop).card =
      stop - low := by
  let span := Finset.univ.filter fun tick : Tick => low ≤ tick.toNat ∧ tick.toNat < stop
  have hinjective : Function.Injective (UInt64.toNat : Tick → ℕ) :=
    fun left right => UInt64.toNat_inj.1
  have himage : span.image UInt64.toNat = Finset.Ico low stop := by
    ext n
    simp only [span, Finset.mem_image, Finset.mem_filter, Finset.mem_univ, true_and,
      Finset.mem_Ico]
    constructor
    · rintro ⟨tick, hspan, rfl⟩
      exact hspan
    · intro hn
      have htick : (UInt64.ofNat n).toNat = n := UInt64.toNat_ofNat_of_lt' (by omega)
      exact ⟨.ofNat n, by rwa [htick], htick⟩
  calc
    span.card = (span.image UInt64.toNat).card :=
      (Finset.card_image_of_injective span hinjective).symm
    _ = stop - low := by rw [himage, Nat.card_Ico]

namespace Window

variable {window : Window}

/-- The ticks inside. -/
noncomputable def ticks (window : Window) : Finset Tick :=
  Finset.univ.filter fun tick => window.contains tick

/-- The ticks inside that lie before `cycles`. -/
noncomputable def ticksBelow (window : Window) (cycles : Tick) : Finset Tick :=
  window.ticks.filter fun tick => tick < cycles

/-! ## Counting by the ends -/

theorem contains_iff_toNat {tick : Tick} :
    window.contains tick = true ↔
      window.low.toNat ≤ tick.toNat ∧ tick.toNat < window.high.toNat + 1 := by
  rw [contains_iff, UInt64.le_iff_toNat_le, UInt64.le_iff_toNat_le, Nat.lt_succ_iff]

theorem card_ticks : window.ticks.card = window.high.toNat + 1 - window.low.toNat := by
  rw [ticks, Finset.filter_congr fun tick _ => contains_iff_toNat]
  exact card_ticks_between window.high.toNat_lt

theorem card_ticksBelow (cycles : Tick) :
    (window.ticksBelow cycles).card =
      min (window.high.toNat + 1) cycles.toNat - window.low.toNat := by
  have hbelow : ∀ tick ∈ (Finset.univ : Finset Tick),
      window.contains tick = true ∧ tick < cycles ↔
        window.low.toNat ≤ tick.toNat ∧
          tick.toNat < min (window.high.toNat + 1) cycles.toNat := by
    intro tick _
    rw [contains_iff_toNat, UInt64.lt_iff_toNat_lt, lt_min_iff, and_assoc]
  rw [ticksBelow, ticks, Finset.filter_filter, Finset.filter_congr hbelow]
  exact card_ticks_between ((min_le_right _ _).trans cycles.toNat_lt.le)

/-- Of the ticks before `cycles` those inside run from the window's beginning to its end or to the
last of them. -/
theorem card_ticksBelow_eq_ite (cycles : Tick) :
    (window.ticksBelow cycles).card =
      if window.isEmpty = true ∨ cycles ≤ window.low then 0
      else min window.high.toNat (cycles.toNat - 1) - window.low.toNat + 1 := by
  rw [card_ticksBelow]
  split
  next houtside =>
    rw [isEmpty_iff, UInt64.lt_iff_toNat_lt, UInt64.le_iff_toNat_le] at houtside
    omega
  next hwithin =>
    rw [isEmpty_iff, UInt64.lt_iff_toNat_lt, UInt64.le_iff_toNat_le] at hwithin
    omega

/-! ## The size -/

/-- The size is the number of ticks inside, as long as that is a count. -/
theorem toNat_size : window.size.toNat = min window.ticks.card Count.limit.toNat := by
  rw [card_ticks, size]
  split
  next hempty =>
    rw [UInt64.lt_iff_toNat_lt] at hempty
    rw [UInt64.toNat_zero]
    omega
  next hends =>
    rw [UInt64.lt_iff_toNat_lt, not_lt, ← UInt64.le_iff_toNat_le] at hends
    rw [Count.toNat_next, UInt64.toNat_sub_of_le _ _ hends]
    rw [UInt64.le_iff_toNat_le] at hends
    omega

/-- The window of all ticks, by its ends. -/
theorem eq_full_iff :
    window = ⟨0, Count.limit⟩ ↔
      window.low.toNat = 0 ∧ window.high.toNat = Count.limit.toNat := by
  obtain ⟨low, high⟩ := window
  rw [mk.injEq, ← UInt64.toNat_inj, ← UInt64.toNat_inj, UInt64.toNat_zero]

/-- Only the window of all ticks has more ticks inside than there are counts. -/
theorem card_ticks_eq_ite :
    window.ticks.card =
      if window = ⟨0, Count.limit⟩ then window.size.toNat + 1 else window.size.toNat := by
  have hhigh := Count.toNat_le_limit window.high
  rw [toNat_size, card_ticks]
  split
  next hfull =>
    obtain ⟨hlow, hlast⟩ := eq_full_iff.1 hfull
    omega
  next hpart =>
    have hends := mt eq_full_iff.2 hpart
    omega

theorem size_eq_zero_iff : window.size = 0 ↔ window.ticks.card = 0 := by
  have hlimit := Count.toNat_limit
  rw [← UInt64.toNat_inj, UInt64.toNat_zero, toNat_size]
  omega

theorem isEmpty_iff_size_eq_zero : window.isEmpty = true ↔ window.size = 0 := by
  rw [isEmpty_iff, UInt64.lt_iff_toNat_lt, size_eq_zero_iff, card_ticks]
  omega

theorem card_ticksBelow_le_size (cycles : Tick) :
    (window.ticksBelow cycles).card ≤ window.size.toNat := by
  have hcycles := Count.toNat_le_limit cycles
  rw [card_ticksBelow, toNat_size, card_ticks]
  omega

/-! ## What a scenario counts -/

/-- Without edge mode the ticks in which records are made are those inside. -/
theorem count_emits {scenario : Scenario} (hwired : scenario.wired = true)
    (hlevel : scenario.options.edgeMode = false) (cycles : Tick) :
    Nat.count scenario.Emits cycles.toNat = (scenario.window.ticksBelow cycles).card := by
  have hspan : (Finset.range cycles.toNat).filter scenario.Emits =
      Finset.Ico scenario.window.low.toNat
        (min (scenario.window.high.toNat + 1) cycles.toNat) := by
    ext t
    have hemits : scenario.Emits t ↔
        scenario.window.low.toNat ≤ t ∧ t ≤ scenario.window.high.toNat := by
      simp [Scenario.Emits, hwired, hlevel]
    rw [Finset.mem_filter, Finset.mem_range, Finset.mem_Ico, hemits]
    omega
  rw [Nat.count_eq_card_filter_range, hspan, Nat.card_Ico, card_ticksBelow]

/-- The size of a window is the number of ticks inside, or one less for the window of all ticks,
and it is zero for the empty windows.  Of the ticks before `cycles` as many lie inside as there are
numbers from the window's beginning to its end or to the last of them, and so many times both gates
fire in a scenario that watches the window without edge mode. -/
theorem size_counts_ticks (window : Window) :
    let n := window.ticks.card
    window.size.toNat = min n (2 ^ 64 - 1) ∧
    n = (if window = ⟨0, Count.limit⟩ then window.size.toNat + 1 else window.size.toNat) ∧
    (window.isEmpty = true ↔ window.size = 0) ∧
    (window.size = 0 ↔ n = 0) ∧
    ∀ cycles : Tick,
      let inside := (window.ticksBelow cycles).card
      inside =
        (if window.isEmpty = true ∨ cycles ≤ window.low then 0
          else min window.high.toNat (cycles.toNat - 1) - window.low.toNat + 1) ∧
      inside ≤ window.size.toNat ∧
      ∀ {π ρ : Type} [Payload π] [Recorder ρ] (options : Options) (payload : π) (recorder : ρ),
        let scenario : Scenario :=
          { window, cycles, wired := true, options := { options with edgeMode := false } }
        ∃ report, (scenario.run payload recorder).value.1 = .ok report ∧
          report.parent.fired.toNat = inside ∧ report.child.fired.toNat = inside := by
  intro n
  refine ⟨toNat_size, card_ticks_eq_ite, isEmpty_iff_size_eq_zero, size_eq_zero_iff, ?_⟩
  intro cycles inside
  refine ⟨card_ticksBelow_eq_ite cycles, card_ticksBelow_le_size cycles, ?_⟩
  intro π ρ _ _ options payload recorder scenario
  have hfired : (scenario.reportOf payload).parent.fired.toNat = inside :=
    (scenario.reportOf_fired_toNat payload).trans (count_emits rfl rfl cycles)
  refine ⟨scenario.reportOf payload, ?_, hfired, hfired⟩
  rw [scenario.run_value payload recorder]

/-- The size of the window of all ticks is one short. -/
example : (⟨0, Count.limit⟩ : Window).size = Count.limit := by decide

end Window
end TickGate
