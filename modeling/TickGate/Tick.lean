/-!
# Ticks, source names and counts

Simulated time is a 64-bit word, a source is named by a text, and every count in the
library stops at the largest word instead of wrapping.  `Count.toNat_plus` and
`Count.toNat_next` give the meaning of the two counting operations over exact numbers.
-/

namespace TickGate

/-- A point of simulated time. -/
abbrev Tick := UInt64

/-- The name a source publishes under.  Names are compared exactly and ordered by code point. -/
abbrev SourceId := String

/-- A number of occurrences that stays at `Count.limit` once it is reached. -/
abbrev Count := UInt64

namespace Count

/-- The largest count. -/
def limit : Count := 0xFFFFFFFFFFFFFFFF

/-- The sum of two counts, or the limit where the sum is larger. -/
def plus (a b : Count) : Count :=
  if a + b < a then limit else a + b

/-- One more, unless the limit is reached. -/
def next (a : Count) : Count := plus a 1

theorem toNat_limit : limit.toNat = 18446744073709551615 := rfl

theorem toNat_le_limit (a : Count) : a.toNat ≤ limit.toNat := by
  have := a.toNat_lt
  rw [toNat_limit]
  omega

theorem toNat_plus (a b : Count) : (plus a b).toNat = min (a.toNat + b.toNat) limit.toNat := by
  have ha := toNat_le_limit a
  have hb := toNat_le_limit b
  rw [toNat_limit] at ha hb ⊢
  unfold plus
  split
  next h =>
    rw [UInt64.lt_iff_toNat_lt, UInt64.toNat_add] at h
    rw [toNat_limit]
    omega
  next h =>
    rw [UInt64.lt_iff_toNat_lt, UInt64.toNat_add] at h
    rw [UInt64.toNat_add]
    omega

theorem toNat_next (a : Count) : (next a).toNat = min (a.toNat + 1) limit.toNat :=
  toNat_plus a 1

end Count

end TickGate
