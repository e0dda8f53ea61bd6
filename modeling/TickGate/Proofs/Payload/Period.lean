import Mathlib.Data.FinEnum
import Mathlib.Data.Nat.ModEq
import Mathlib.Dynamics.PeriodicPts.Defs
import Mathlib.Tactic.NormNum.Prime
import TickGate.Proofs.Scenario.Emission
import TickGate.Record.LineWriter

/-!
# The period of the shift register

A register that does not start at zero runs through all the other 65535 words before it comes back.
A shift keeps sums of words, so any number of shifts is known from the images of the sixteen words
with one bit, and the table of these images is doubled as fast as a number of shifts.  One such
table shows that 65535 shifts change no word.  Four others show that the word 1 comes back after no
proper divisor of 65535, which is 3 · 5 · 17 · 257; so its orbit has 65535 words, and these are all
that there are besides zero.
-/

namespace TickGate
namespace ShiftRegister

open Function

/-! ## Maps that keep sums -/

/-- A map that keeps the sums of words, taken bit by bit without a carry. -/
def KeepsSums (f : UInt16 → UInt16) : Prop :=
  ∀ first second, f (first ^^^ second) = f first ^^^ f second

theorem keepsSums_id : KeepsSums id := fun _ _ => rfl

theorem KeepsSums.comp {f g : UInt16 → UInt16} (hf : KeepsSums f) (hg : KeepsSums g) :
    KeepsSums (f ∘ g) := by
  intro first second
  rw [comp_apply, hg, hf]
  rfl

theorem KeepsSums.zero {f : UInt16 → UInt16} (hf : KeepsSums f) : f 0 = 0 := by
  have h := hf 0 0
  rwa [UInt16.xor_self, UInt16.xor_self] at h

theorem keepsSums_shiftLeft : KeepsSums (· <<< 1) := fun _ _ => UInt16.shiftLeft_xor

/-- The highest bit after a shift is the sum of the taps; the others come down by one place. -/
theorem getElem_shift (word : UInt16) {i : ℕ} (hi : i < 16) :
    (shift word).toBitVec[i] =
      if i < 15 then word.toBitVec.getLsbD (i + 1)
      else word.toBitVec[0] ^^ word.toBitVec[2] ^^ word.toBitVec[3] ^^ word.toBitVec[5] := by
  by_cases h : i < 15
  · simp [shift, h, Nat.add_comm 1 i]
  · obtain rfl : i = 15 := by omega
    simp [shift]

theorem keepsSums_shift : KeepsSums shift := by
  intro first second
  apply UInt16.toBitVec_inj.mp
  ext i hi
  rw [UInt16.toBitVec_xor, BitVec.getElem_xor, getElem_shift, getElem_shift, getElem_shift]
  split
  · rw [UInt16.toBitVec_xor, BitVec.getLsbD_xor]
  · have hsums : ∀ a b c d a' b' c' d' : Bool,
        ((a ^^ a') ^^ (b ^^ b') ^^ (c ^^ c') ^^ (d ^^ d')) =
          ((a ^^ b ^^ c ^^ d) ^^ (a' ^^ b' ^^ c' ^^ d')) := by
      decide
    simp only [UInt16.toBitVec_xor, BitVec.getElem_xor]
    exact hsums _ _ _ _ _ _ _ _

theorem KeepsSums.iterate {f : UInt16 → UInt16} (hf : KeepsSums f) (n : ℕ) : KeepsSums f^[n] := by
  induction n with
  | zero => exact keepsSums_id
  | succ n ih =>
      rw [iterate_succ]
      exact ih.comp hf

/-! ## Tables -/

/-- The sum of those entries of a table that stand where a number has a binary digit one, the lowest
digit first. -/
def sumAt : List UInt16 → ℕ → UInt16
  | [], _ => 0
  | entry :: table, n =>
    if n % 2 = 0 then sumAt table (n / 2) else entry ^^^ sumAt table (n / 2)

/-- The images of the words that have one of the lowest bits and no other. -/
def tableOf (f : UInt16 → UInt16) : ℕ → List UInt16
  | 0 => []
  | bits + 1 => f 1 :: tableOf (f ∘ (· <<< 1)) bits

theorem lowest_xor_others (word : UInt16) :
    (word &&& (1 : UInt16)) ^^^ ((word >>> (1 : UInt16)) <<< (1 : UInt16)) = word := by
  apply UInt16.toBitVec_inj.mp
  ext i hi
  cases i with
  | zero => simp
  | succ i => simp [Nat.add_comm 1 i, BitVec.getLsbD_eq_getElem hi]

/-- A map that keeps sums is known from its table. -/
theorem sumAt_tableOf {f : UInt16 → UInt16} (hf : KeepsSums f) {bits : ℕ} {word : UInt16}
    (hword : word.toNat < 2 ^ bits) : sumAt (tableOf f bits) word.toNat = f word := by
  induction bits generalizing f word with
  | zero =>
      have hzero : word = 0 := UInt16.toNat_inj.mp (Nat.lt_one_iff.mp hword)
      rw [hzero, hf.zero]
      rfl
  | succ bits ih =>
      have hhalf : (word >>> 1).toNat = word.toNat / 2 := UInt16.toNat_shiftRight word 1
      have hlowest : (word &&& 1).toNat = word.toNat % 2 := by
        rw [UInt16.toNat_and]
        exact Nat.and_one_is_mod word.toNat
      have hothers : sumAt (tableOf (f ∘ (· <<< 1)) bits) (word.toNat / 2) =
          f ((word >>> 1) <<< 1) := by
        rw [← hhalf]
        exact ih (hf.comp keepsSums_shiftLeft) (by omega)
      rw [tableOf, sumAt, hothers]
      split
      next heven =>
        have hnone : word &&& 1 = 0 := UInt16.toNat_inj.mp (hlowest.trans heven)
        have hword := lowest_xor_others word
        rw [hnone, UInt16.zero_xor] at hword
        rw [hword]
      next hodd =>
        have hone : word &&& 1 = 1 := UInt16.toNat_inj.mp (hlowest.trans (by simpa using hodd))
        have hword := lowest_xor_others word
        rw [hone] at hword
        rw [← hf, hword]

theorem sumAt_map {f : UInt16 → UInt16} (hf : KeepsSums f) (table : List UInt16) (n : ℕ) :
    sumAt (table.map f) n = f (sumAt table n) := by
  induction table generalizing n with
  | nil => exact hf.zero.symm
  | cons entry table ih =>
      rw [List.map_cons, sumAt, sumAt, ih]
      split
      · rfl
      · rw [hf]

/-- The table of some shifts, as many as a number of so many binary digits says. -/
def shiftsTable : ℕ → ℕ → List UInt16
  | 0, _ => tableOf id 16
  | digits + 1, n =>
    let half := shiftsTable digits (n / 2)
    let twice := half.map fun word => sumAt half word.toNat
    if n % 2 = 0 then twice else twice.map shift

theorem sumAt_shiftsTable {digits n : ℕ} (hn : n < 2 ^ digits) (word : UInt16) :
    sumAt (shiftsTable digits n) word.toNat = shift^[n] word := by
  induction digits generalizing n word with
  | zero =>
      have hzero : n = 0 := Nat.lt_one_iff.mp hn
      rw [hzero, shiftsTable, sumAt_tableOf keepsSums_id word.toNat_lt]
      rfl
  | succ digits ih =>
      have hhalf : (fun word => sumAt (shiftsTable digits (n / 2)) word.toNat) = shift^[n / 2] :=
        funext (ih (by omega))
      have htwice : sumAt ((shiftsTable digits (n / 2)).map shift^[n / 2]) word.toNat =
          shift^[n / 2 + n / 2] word := by
        rw [sumAt_map (keepsSums_shift.iterate _), ih (by omega), ← iterate_add_apply]
      simp only [shiftsTable, hhalf]
      split
      next heven =>
        rw [htwice]
        congr 2
        omega
      next hodd =>
        rw [sumAt_map keepsSums_shift, htwice, ← iterate_succ_apply' shift]
        congr 2
        omega

/-! ## The orbit of a word -/

theorem iterate_shift_65535 : shift^[65535] = id := by
  have htable : shiftsTable 16 65535 = shiftsTable 0 0 := by decide +kernel
  funext word
  rw [← sumAt_shiftsTable (by decide : 65535 < 2 ^ 16), htable]
  exact sumAt_shiftsTable (by decide : 0 < 2 ^ 0) word

theorem injective_shift : Injective shift := by
  intro first second h
  have hiterate := congrArg shift^[65534] h
  rwa [← iterate_succ_apply, ← iterate_succ_apply, iterate_shift_65535] at hiterate

/-- The word 1 does not come back after a largest proper divisor of 65535. -/
theorem iterate_shift_one_ne {n : ℕ} (hn : n ∈ [21845, 13107, 3855, 255]) : shift^[n] 1 ≠ 1 := by
  have htables : ∀ n ∈ [21845, 13107, 3855, 255],
      n < 2 ^ 16 ∧ sumAt (shiftsTable 16 n) (1 : UInt16).toNat ≠ 1 := by
    decide +kernel
  obtain ⟨hlt, hne⟩ := htables n hn
  rwa [sumAt_shiftsTable hlt] at hne

theorem div_mem_of_prime {p : ℕ} (hp : p.Prime) (hdvd : p ∣ 65535) :
    65535 / p ∈ [21845, 13107, 3855, 255] := by
  have hfactors : 65535 = 3 * 5 * 17 * 257 := by norm_num
  have hthree : Nat.Prime 3 := by norm_num
  have hfive : Nat.Prime 5 := by norm_num
  have hseventeen : Nat.Prime 17 := by norm_num
  have hlast : Nat.Prime 257 := by norm_num
  rw [hfactors, hp.dvd_mul, hp.dvd_mul, hp.dvd_mul, Nat.prime_dvd_prime_iff_eq hp hthree,
    Nat.prime_dvd_prime_iff_eq hp hfive, Nat.prime_dvd_prime_iff_eq hp hseventeen,
    Nat.prime_dvd_prime_iff_eq hp hlast] at hdvd
  rcases hdvd with ((rfl | rfl) | rfl) | rfl <;> simp

theorem minimalPeriod_shift_one : minimalPeriod shift 1 = 65535 := by
  have hperiodic : IsPeriodicPt shift 65535 1 := congrFun iterate_shift_65535 1
  obtain ⟨count, hcount⟩ := hperiodic.minimalPeriod_dvd
  by_contra hne
  have hcountne : count ≠ 1 := by
    rintro rfl
    rw [Nat.mul_one] at hcount
    exact hne hcount.symm
  obtain ⟨p, hp, k, hk⟩ := Nat.exists_prime_and_dvd hcountne
  have hproduct : 65535 = p * (minimalPeriod shift 1 * k) := by
    rw [hcount, hk, Nat.mul_left_comm]
  have hquotient : 65535 / p = minimalPeriod shift 1 * k := by
    rw [hproduct, Nat.mul_div_cancel_left _ hp.pos]
  have hreturns : IsPeriodicPt shift (65535 / p) 1 := by
    rw [hquotient]
    exact (isPeriodicPt_minimalPeriod shift 1).mul_const k
  exact iterate_shift_one_ne (div_mem_of_prime hp (Dvd.intro _ hproduct.symm)) hreturns

theorem iterate_shift_ne_zero {word : UInt16} (hword : word ≠ 0) (n : ℕ) : shift^[n] word ≠ 0 := by
  intro h
  apply hword
  apply injective_shift.iterate n
  rw [h, (keepsSums_shift.iterate n).zero]

/-- Every word but zero is reached from the word 1. -/
theorem exists_iterate_shift_one {word : UInt16} (hword : word ≠ 0) :
    ∃ n, shift^[n] 1 = word := by
  let orbit : Finset UInt16 := (Finset.range 65535).image fun n => shift^[n] 1
  have hinjOn : Set.InjOn (fun n => shift^[n] 1) (Finset.range 65535) := by
    have h := iterate_injOn_Iio_minimalPeriod (f := shift) (x := 1)
    rw [minimalPeriod_shift_one] at h
    simpa using h
  have horbit : orbit.card = 65535 := by
    rw [Finset.card_image_of_injOn hinjOn, Finset.card_range]
  have hwords : (Finset.univ.erase (0 : UInt16)).card = 65535 := by
    rw [Finset.card_erase_of_mem (Finset.mem_univ 0), Finset.card_univ,
      ← FinEnum.card_eq_fintypeCard, FinEnum.card_UInt16]
    rfl
  have hsubset : orbit ⊆ Finset.univ.erase 0 := by
    intro reached hreached
    obtain ⟨n, -, rfl⟩ := Finset.mem_image.mp hreached
    exact Finset.mem_erase.mpr ⟨iterate_shift_ne_zero (by decide) n, Finset.mem_univ _⟩
  have hall : orbit = Finset.univ.erase 0 :=
    Finset.eq_of_subset_of_card_le hsubset (by rw [hwords, horbit])
  have hmem : word ∈ orbit := by
    rw [hall]
    exact Finset.mem_erase.mpr ⟨hword, Finset.mem_univ word⟩
  obtain ⟨n, -, hn⟩ := Finset.mem_image.mp hmem
  exact ⟨n, hn⟩

theorem minimalPeriod_shift {word : UInt16} (hword : word ≠ 0) :
    minimalPeriod shift word = 65535 := by
  obtain ⟨n, rfl⟩ := exists_iterate_shift_one hword
  have hperiodic : (1 : UInt16) ∈ periodicPts shift :=
    mk_mem_periodicPts (by decide) (congrFun iterate_shift_65535 1)
  rw [minimalPeriod_apply_iterate hperiodic, minimalPeriod_shift_one]

theorem iterate_shift_eq_iff {word : UInt16} (hword : word ≠ 0) {m n : ℕ} :
    shift^[m] word = shift^[n] word ↔ m ≡ n [MOD 65535] := by
  rw [← iterate_mod_minimalPeriod_eq (n := m), ← iterate_mod_minimalPeriod_eq (n := n),
    minimalPeriod_shift hword]
  apply iterate_eq_iterate_iff_of_lt_minimalPeriod
  · rw [minimalPeriod_shift hword]
    exact Nat.mod_lt m (by decide)
  · rw [minimalPeriod_shift hword]
    exact Nat.mod_lt n (by decide)

/-! ## Registers and scenarios -/

theorem state_ofSeed_ne_zero (seed : UInt16) : (ofSeed seed).state ≠ 0 := by
  simp only [ofSeed]
  split
  · decide
  · assumption

theorem state_iterate_step (register : ShiftRegister) (n : ℕ) :
    (step^[n] register).state = shift^[n] register.state := by
  induction n with
  | zero => rfl
  | succ n ih => rw [iterate_succ_apply', iterate_succ_apply', step, ih]

theorem iterate_step_eq_iff {first second : ShiftRegister} {n : ℕ} :
    step^[n] first = second ↔ shift^[n] first.state = second.state := by
  rw [← state_iterate_step]
  constructor
  · exact congrArg state
  · exact fun h => congrArg mk h

theorem lastWord_eq (register : ShiftRegister) {n : ℕ} (hn : 0 < n) :
    Payload.lastWord register n = shift^[n] register.state := by
  obtain ⟨before, rfl⟩ : ∃ before, n = before + 1 := ⟨n - 1, by omega⟩
  have hword : Payload.lastWord register (before + 1) = (step (step^[before] register)).state := rfl
  rw [hword, ← iterate_succ_apply' step, state_iterate_step]

/-- From every seed the register passes through words other than zero only and comes back exactly
after the multiples of 65535 steps; every such word leads to every other.  So two runs of scenarios
from one seed, whatever their settings and recorders, report the same last word exactly if their
numbers of ticks agree modulo 65535. -/
theorem runs_through_all_words (seed : UInt16) :
    let start := ofSeed seed
    start.state = (if seed = 0 then 1 else seed) ∧
    (∀ n, (step^[n] start).state ≠ 0 ∧ (step^[n] start = start ↔ 65535 ∣ n)) ∧
    (∀ first second : ShiftRegister, first.state ≠ 0 → second.state ≠ 0 →
      ∃ n, step^[n] first = second) ∧
    ∀ (ρ σ : Type) [Recorder ρ] [Recorder σ] (first second : Scenario) (recorder : ρ) (other : σ),
      1 ≤ first.cycles → 1 ≤ second.cycles →
      ∃ left right,
        (first.run start recorder).value.1 = .ok left ∧
        (second.run start other).value.1 = .ok right ∧
        (left.finalPayload = right.finalPayload ↔
          first.cycles.toNat ≡ second.cycles.toNat [MOD 65535]) := by
  intro start
  have hstart : start.state ≠ 0 := state_ofSeed_ne_zero seed
  refine ⟨rfl, ?_, ?_, ?_⟩
  · intro n
    constructor
    · rw [state_iterate_step]
      exact iterate_shift_ne_zero hstart n
    · rw [iterate_step_eq_iff, ← minimalPeriod_shift hstart]
      exact isPeriodicPt_iff_minimalPeriod_dvd
  · intro first second hfirst hsecond
    obtain ⟨m, hm⟩ := exists_iterate_shift_one hfirst
    obtain ⟨n, hn⟩ := exists_iterate_shift_one hsecond
    -- The first register goes on to the next multiple of the period and from there to the second.
    refine ⟨n + 65534 * m, iterate_step_eq_iff.mpr ?_⟩
    have hsteps : n + 65534 * m + m ≡ n [MOD 65535] := by
      have hmultiple : n + 65534 * m + m = n + m * 65535 := by omega
      rw [hmultiple]
      exact Nat.add_mul_modulus_modEq_iff.mpr rfl
    rw [← hm, ← iterate_add_apply, ← hn]
    exact (iterate_shift_eq_iff (by decide)).mpr hsteps
  · intro ρ σ _ _ first second recorder other hfirst hsecond
    refine ⟨first.reportOf start, second.reportOf start, ?_, ?_, ?_⟩
    · rw [first.run_value start recorder]
    · rw [second.run_value start other]
    · have hleft : (first.reportOf start).finalPayload = shift^[first.cycles.toNat] start.state :=
        lastWord_eq start hfirst
      have hright : (second.reportOf start).finalPayload =
          shift^[second.cycles.toNat] start.state :=
        lastWord_eq start hsecond
      rw [hleft, hright]
      exact iterate_shift_eq_iff hstart

/-- The seed zero, and two runs of which one goes round once more than the other. -/
theorem runs_through_all_words_of_zero_seed :
    let first : Scenario := { Scenario.default .debug with cycles := 3 }
    let second : Scenario := { Scenario.default .release with wired := false, cycles := 65538 }
    let writer : LineWriter := { device := { capacity := some 20 } }
    (ofSeed 0).state = 1 ∧ (∃ n, step^[n] ⟨0xFFFF⟩ = ofSeed 0) ∧
    ∃ left right,
      (first.run (ofSeed 0) ({} : Journal)).value.1 = .ok left ∧
      (second.run (ofSeed 0) writer).value.1 = .ok right ∧
      left.finalPayload = right.finalPayload := by
  intro first second writer
  obtain ⟨hstate, -, hreached, hruns⟩ := runs_through_all_words 0
  obtain ⟨left, right, hleft, hright, hsame⟩ :=
    hruns Journal LineWriter first second {} writer (by decide) (by decide)
  have hcycles : first.cycles.toNat ≡ second.cycles.toNat [MOD 65535] := by decide
  exact ⟨hstate, hreached ⟨0xFFFF⟩ (ofSeed 0) (by decide) (by decide), left, right, hleft, hright,
    hsame.mpr hcycles⟩

end ShiftRegister
end TickGate
