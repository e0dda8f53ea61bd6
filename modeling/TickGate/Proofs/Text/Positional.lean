import Mathlib.Data.List.Forall2
import Mathlib.Data.Nat.Digits.Defs
import Mathlib.Tactic.Ring
import Mathlib.Tactic.SplitIfs
import TickGate.Text.Numeral

/-!
# Positional notation

Digits denote a number in positional notation, the last of them being its units.  The readers of
digits and of numerals accept exactly the texts that denote a number, and give this number, however
long the text is and however many zeros it begins with.
-/

namespace TickGate
namespace Text

/-- A character is the digit of a value, in either case. -/
def IsDigit (radix : ℕ) (c : Char) (value : ℕ) : Prop :=
  value < radix ∧ (c = value.digitChar ∨ c = value.digitChar.toUpper)

/-- Digits denote a number. -/
def Denote (radix : ℕ) (digits : List Char) (n : ℕ) : Prop :=
  ∃ values, List.Forall₂ (IsDigit radix) digits values ∧ Nat.ofDigits radix values.reverse = n

/-- A text is a numeral of a number: digits that denote it, one at least, after one plus sign or
none. -/
def IsNumeral (radix : ℕ) (text : List Char) (n : ℕ) : Prop :=
  ∃ sign digits, text = sign ++ digits ∧ (sign = [] ∨ sign = ['+']) ∧ digits ≠ [] ∧
    Denote radix digits n

variable {radix n : ℕ}

theorem digitValue?_eq_some_iff (hradix : radix ≤ 16) {c : Char} {value : ℕ} :
    digitValue? radix c = some value ↔ IsDigit radix c value := by
  have hlower : ∀ v < 16, v.digitChar.toNat = if v < 10 then v + 48 else v + 87 := by decide
  have hupper : ∀ v < 16, v.digitChar.toUpper.toNat = if v < 10 then v + 48 else v + 55 := by
    decide
  have hrange (first last : Char) :
      first ≤ c ∧ c ≤ last ↔ first.toNat ≤ c.toNat ∧ c.toNat ≤ last.toNat :=
    Iff.rfl
  rw [digitValue?, Option.filter_eq_some_iff, and_comm, decide_eq_true_eq]
  apply and_congr_right
  intro hvalue
  rw [← Char.toNat_inj, ← Char.toNat_inj, hlower value (by omega), hupper value (by omega)]
  simp only [hrange, Char.reduceToNat]
  split_ifs <;> simp only [Option.some.injEq, false_iff] <;> omega

theorem denote_nil_iff : Denote radix [] n ↔ n = 0 := by
  simp [Denote, eq_comm]

theorem denote_cons_iff {c : Char} {digits : List Char} :
    Denote radix (c :: digits) n ↔
      ∃ value low, IsDigit radix c value ∧ Denote radix digits low ∧
        value * radix ^ digits.length + low = n := by
  have hsplit {value : ℕ} {values : List ℕ}
      (h : List.Forall₂ (IsDigit radix) digits values) :
      Nat.ofDigits radix (value :: values).reverse =
        value * radix ^ digits.length + Nat.ofDigits radix values.reverse := by
    rw [List.reverse_cons, Nat.ofDigits_append, Nat.ofDigits_singleton, List.length_reverse,
      h.length_eq]
    ring
  constructor
  · rintro ⟨_ | ⟨value, values⟩, hall, hn⟩
    · exact nomatch hall
    · obtain ⟨hdigit, hdigits⟩ := List.forall₂_cons.mp hall
      exact ⟨value, _, hdigit, ⟨values, hdigits, rfl⟩, (hsplit hdigits).symm.trans hn⟩
  · rintro ⟨value, low, hdigit, ⟨values, hdigits, rfl⟩, hn⟩
    exact ⟨value :: values, .cons hdigit hdigits, (hsplit hdigits).trans hn⟩

/-- Digits denote a number below the power of the radix that their count gives. -/
theorem Denote.lt {digits : List Char} (h : Denote radix digits n) :
    n < radix ^ digits.length := by
  induction digits generalizing n with
  | nil => simp [denote_nil_iff.mp h]
  | cons c digits ih =>
      obtain ⟨value, low, hdigit, hlow, rfl⟩ := denote_cons_iff.mp h
      calc
        value * radix ^ digits.length + low
            < value * radix ^ digits.length + radix ^ digits.length := by
          exact Nat.add_lt_add_left (ih hlow) _
        _ = (value + 1) * radix ^ digits.length := by ring
        _ ≤ radix * radix ^ digits.length := Nat.mul_le_mul_right _ hdigit.1
        _ = radix ^ (c :: digits).length := by rw [List.length_cons, pow_succ']

/-- Digits after others of value `high` are read as the number that all of them denote. -/
theorem digitsValue?_eq_some_iff (hradix : radix ≤ 16) {high : ℕ} {digits : List Char} :
    digitsValue? radix high digits = some n ↔
      ∃ low, Denote radix digits low ∧ high * radix ^ digits.length + low = n := by
  induction digits generalizing high with
  | nil => simp [digitsValue?, denote_nil_iff]
  | cons c digits ih =>
      have hmove (value low : ℕ) :
          (high * radix + value) * radix ^ digits.length + low =
            high * radix ^ (digits.length + 1) + (value * radix ^ digits.length + low) := by
        ring
      rw [digitsValue?, List.length_cons]
      constructor
      · intro h
        cases hvalue : digitValue? radix c with
        | none => simp [hvalue] at h
        | some value =>
            rw [hvalue] at h
            obtain ⟨low, hlow, hn⟩ := ih.mp h
            exact ⟨value * radix ^ digits.length + low,
              denote_cons_iff.mpr
                ⟨value, low, (digitValue?_eq_some_iff hradix).mp hvalue, hlow, rfl⟩,
              (hmove value low).symm.trans hn⟩
      · rintro ⟨_, hdenote, hn⟩
        obtain ⟨value, low, hdigit, hlow, rfl⟩ := denote_cons_iff.mp hdenote
        rw [(digitValue?_eq_some_iff hradix).mpr hdigit]
        exact ih.mpr ⟨low, hlow, (hmove value low).trans hn⟩

theorem digitsValue?_zero_eq_some_iff (hradix : radix ≤ 16) {digits : List Char} :
    digitsValue? radix 0 digits = some n ↔ Denote radix digits n := by
  simp [digitsValue?_eq_some_iff hradix]

theorem exists_eq_append_afterPlus (text : List Char) :
    ∃ sign, text = sign ++ afterPlus text ∧ (sign = [] ∨ sign = ['+']) := by
  rw [afterPlus.eq_def]
  split
  · exact ⟨['+'], rfl, .inr rfl⟩
  · exact ⟨[], rfl, .inl rfl⟩

/-- No digit is a plus sign, so digits have none in front of them. -/
theorem Denote.afterPlus_eq (hradix : radix ≤ 16) {digits : List Char}
    (h : Denote radix digits n) : afterPlus digits = digits := by
  rw [afterPlus]
  rintro rest rfl
  obtain ⟨value, -, hplus, -⟩ := denote_cons_iff.mp h
  rw [← digitValue?_eq_some_iff hradix] at hplus
  simp [digitValue?] at hplus

theorem numeral?_eq_some_iff (hradix : radix ≤ 16) {text : List Char} :
    numeral? radix text = some n ↔ IsNumeral radix text n := by
  have hread : numeral? radix text = some n ↔
      afterPlus text ≠ [] ∧ digitsValue? radix 0 (afterPlus text) = some n := by
    rw [numeral?]
    split <;> simp_all
  rw [hread, digitsValue?_zero_eq_some_iff hradix]
  constructor
  · rintro ⟨hne, hdenote⟩
    obtain ⟨sign, htext, hsign⟩ := exists_eq_append_afterPlus text
    exact ⟨sign, afterPlus text, htext, hsign, hne, hdenote⟩
  · rintro ⟨sign, digits, rfl, rfl | rfl, hne, hdenote⟩
    · rw [List.nil_append, hdenote.afterPlus_eq hradix]
      exact ⟨hne, hdenote⟩
    · exact ⟨hne, hdenote⟩

/-- A numeral below a bound is accepted and no other text, and its value is exact. -/
theorem numeralBelow?_eq_some_iff (hradix : radix ≤ 16) {bound : ℕ} {text : List Char} :
    numeralBelow? radix bound text = some n ↔ IsNumeral radix text n ∧ n < bound := by
  rw [numeralBelow?, Option.filter_eq_some_iff, numeral?_eq_some_iff hradix, decide_eq_true_eq]

end Text
end TickGate
