import Mathlib.Data.Nat.Digits.Defs
import TickGate.Scenario

/-!
# What the records of a scenario say

The parent writes a word as four hexadecimal digits, the child the parity of its binary digits.
Both are said here by the digits of the word, which the proofs about runs then need not open.
-/

namespace TickGate

/-! ## Binary digits -/

/-- The ones among the low bits of a number are the ones among its binary digits, if it has no
other bits. -/
theorem countP_testBit_eq_count_digits {n width : ℕ} (h : n < 2 ^ width) :
    (List.range width).countP n.testBit = (Nat.digits 2 n).count 1 := by
  induction width generalizing n with
  | zero =>
      have hzero : n = 0 := by omega
      simp [hzero]
  | succ width ih =>
      have hhalf : n / 2 < 2 ^ width := by omega
      have hrest : (List.range width).countP (n.testBit ∘ Nat.succ) =
          (Nat.digits 2 (n / 2)).count 1 := by
        rw [← ih hhalf]
        refine List.countP_congr fun i _ => ?_
        rw [Function.comp_apply, Nat.testBit_succ]
      rw [List.range_succ_eq_map, List.countP_cons, List.countP_map, hrest]
      by_cases hn : n = 0
      · simp [hn]
      · rw [Nat.digits_eq_cons_digits_div Nat.one_lt_two hn, List.count_cons]
        simp

namespace Scenario

/-- The hexadecimal digit of a word at a place, the last place being zero. -/
def hexDigit (word : UInt16) (place : ℕ) : Char := (word.toNat / 16 ^ place % 16).digitChar

/-- The number of binary ones of a word. -/
def ones (word : UInt16) : ℕ := (Nat.digits 2 word.toNat).count 1

/-- The records made of a tick's word, the parent's before the child's. -/
def recordsOf (tick : Tick) (word : UInt16) : List Record :=
  [{ tick, scope := "top",
     message := "lfsr = 0x" ++
      String.ofList [hexDigit word 3, hexDigit word 2, hexDigit word 1, hexDigit word 0] },
   { tick, scope := "top.child", message := "parity = " ++ toString (ones word % 2) }]

theorem parity_eq (word : UInt16) : parity word = ones word % 2 := by
  rw [parity, countP_testBit_eq_count_digits word.toNat_lt, ones]

theorem hexadecimal4_word (word : UInt16) :
    Text.hexadecimal4 word.toNat =
      [hexDigit word 3, hexDigit word 2, hexDigit word 1, hexDigit word 0] := by
  have hword := word.toNat_lt
  have hfirst : word.toNat / 4096 = word.toNat / 4096 % 16 := by omega
  rw [Text.hexadecimal4_of_lt hword, hfirst]
  simp [hexDigit]

theorem recordsOf_eq (tick : Tick) (word : UInt16) :
    recordsOf tick word = [parentRecord tick word, childRecord tick word] := by
  rw [recordsOf, ← hexadecimal4_word, ← parity_eq]
  rfl

end Scenario
end TickGate
