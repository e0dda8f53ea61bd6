import TickGate.CommandLine.Arguments
import TickGate.Proofs.Text.Positional

/-!
# Numbers on the command line

A tick is given as a decimal numeral below `2 ^ 64`.  A seed is given as a numeral below `2 ^ 16`,
hexadecimal after `0x` or `0X` and decimal otherwise.  Every other text is refused in a message that
shows it, and the texts in which the program itself writes ticks, seeds and payload words are read
back.
-/

namespace TickGate
namespace CommandLine

open Text (IsNumeral)

/-- A text is the numeral of a seed: hexadecimal after a prefix, decimal where there is none. -/
def IsSeedNumeral (text : List Char) (n : ℕ) : Prop :=
  (∃ digits, (text = '0' :: 'x' :: digits ∨ text = '0' :: 'X' :: digits) ∧ IsNumeral 16 digits n) ∨
    (¬['0', 'x'] <+: text ∧ ¬['0', 'X'] <+: text ∧ IsNumeral 10 text n)

/-- The value of a seed's text, before it is made a word. -/
def seedValue? (text : List Char) : Option ℕ :=
  match text with
  | '0' :: 'x' :: digits => Text.numeralBelow? 16 UInt16.size digits
  | '0' :: 'X' :: digits => Text.numeralBelow? 16 UInt16.size digits
  | digits => Text.numeralBelow? 10 UInt16.size digits

theorem seed?_eq (text : String) : seed? text = (seedValue? text.toList).map UInt16.ofNat := rfl

theorem seedValue?_eq_some_iff (text : List Char) (n : ℕ) :
    seedValue? text = some n ↔ IsSeedNumeral text n ∧ n < UInt16.size := by
  have hdecimal : 10 ≤ 16 := by decide
  unfold seedValue?
  split
  next digits => simp [Text.numeralBelow?_eq_some_iff, IsSeedNumeral]
  next digits => simp [Text.numeralBelow?_eq_some_iff, IsSeedNumeral]
  next hlower hupper =>
    have hunmarked : ¬['0', 'x'] <+: text ∧ ¬['0', 'X'] <+: text := by
      constructor
      · rintro ⟨digits, rfl⟩
        exact hlower digits rfl
      · rintro ⟨digits, rfl⟩
        exact hupper digits rfl
    have hnone : ∀ digits, ¬(text = '0' :: 'x' :: digits ∨ text = '0' :: 'X' :: digits) :=
      fun digits h => h.elim (hlower digits) (hupper digits)
    simp [Text.numeralBelow?_eq_some_iff, hdecimal, IsSeedNumeral, hnone, hunmarked]

/-- The number that a setting holds, zero if it holds none. -/
def Setting.number : Setting → ℕ
  | start tick | stop tick => tick.toNat
  | cycles count => count.toNat
  | seed word => word.toNat
  | policy _ | pulse | unwired | fallback | output _ => 0

/-- Reading the text after a flag gives the numbers below a bound that the text denotes, and refuses
the texts that denote no such number. -/
structure ReadsNumbers (read : String → String → Except Refusal Setting) (setting : ℕ → Setting)
    (denotes : List Char → ℕ → Prop) (bound : ℕ) : Prop where
  ok_iff : ∀ flag text n, n < bound →
    (read flag text = .ok (setting n) ↔ denotes text.toList n)
  error_iff : ∀ flag text,
    read flag text = .error (.invalidValue flag text) ↔ ∀ n, denotes text.toList n → bound ≤ n

theorem readsNumbers_of_value {read : String → String → Except Refusal Setting}
    {setting : ℕ → Setting} {denotes : List Char → ℕ → Prop} {bound : ℕ}
    {value? : List Char → Option ℕ}
    (hvalue : ∀ text n, value? text = some n ↔ denotes text n ∧ n < bound)
    (hsetting : ∀ n, n < bound → (setting n).number = n)
    (hread : ∀ flag text, read flag text =
      ((value? text.toList).map (Except.ok ∘ setting)).getD (.error (.invalidValue flag text))) :
    ReadsNumbers read setting denotes bound := by
  constructor
  · intro flag text n hn
    rw [hread]
    cases h : value? text.toList with
    | none =>
        have hdenotes : ¬denotes text.toList n := by
          intro hdenotes
          rw [(hvalue text.toList n).mpr ⟨hdenotes, hn⟩] at h
          cases h
        simp [hdenotes]
    | some found =>
        obtain ⟨hfound, hlt⟩ := (hvalue text.toList found).mp h
        constructor
        · intro heq
          have hsame := congrArg Setting.number (Except.ok.inj heq)
          rw [hsetting found hlt, hsetting n hn] at hsame
          rwa [← hsame]
        · intro hdenotes
          rw [(hvalue text.toList n).mpr ⟨hdenotes, hn⟩] at h
          rw [Option.some.inj h]
          rfl
  · intro flag text
    rw [hread]
    cases h : value? text.toList with
    | none =>
        have hbound : ∀ n, denotes text.toList n → bound ≤ n := by
          intro n hdenotes
          by_contra hlt
          rw [(hvalue text.toList n).mpr ⟨hdenotes, Nat.lt_of_not_le hlt⟩] at h
          cases h
        simpa using hbound
    | some found =>
        obtain ⟨hfound, hlt⟩ := (hvalue text.toList found).mp h
        constructor
        · intro heq
          cases heq
        · intro hbound
          exact absurd (hbound found hfound) (Nat.not_le_of_lt hlt)

/-- A field that takes ticks reads decimal numerals. -/
theorem readsNumbers_of_tick {read : String → String → Except Refusal Setting}
    {setting : Tick → Setting} (hsetting : ∀ tick, (setting tick).number = tick.toNat)
    (hread : ∀ flag text, read flag text =
      ((tick? text).map (Except.ok ∘ setting)).getD (.error (.invalidValue flag text))) :
    ReadsNumbers read (fun n => setting (.ofNat n)) (IsNumeral 10) (2 ^ 64) := by
  apply readsNumbers_of_value fun text n => Text.numeralBelow?_eq_some_iff (by decide)
  · intro n hn
    rw [hsetting, UInt64.toNat_ofNat_of_lt' hn]
  · intro flag text
    rw [hread, tick?, Option.map_map]
    rfl

theorem tick?_toString (tick : Tick) : tick? (toString tick) = some tick := by
  have htext : (toString tick).toList = Text.decimal tick.toNat := String.toList_ofList
  have hbelow : Text.numeralBelow? 10 UInt64.size (Text.decimal tick.toNat) = some tick.toNat := by
    rw [Text.numeralBelow?, Text.numeral?_decimal, Option.filter_some, if_pos]
    exact decide_eq_true tick.toNat_lt
  rw [tick?, htext, hbelow, Option.map_some, UInt64.ofNat_toNat]

theorem seed?_of_value {text : String} {word : UInt16}
    (h : seedValue? text.toList = some word.toNat) : seed? text = some word := by
  rw [seed?_eq, h, Option.map_some, UInt16.ofNat_toNat]

theorem seed?_toString (word : UInt16) : seed? (toString word) = some word := by
  have htext : (toString word).toList = Text.decimal word.toNat := String.toList_ofList
  have hmarked {mark : Char} (hmark : mark.isDigit = false) :
      ¬['0', mark] <+: Text.decimal word.toNat := by
    intro hstart
    have hdigit := Text.isDigit_of_mem_decimal (hstart.subset (List.mem_cons_of_mem _ (.head _)))
    exact Bool.false_ne_true (hmark.symm.trans hdigit)
  apply seed?_of_value
  rw [htext]
  exact (seedValue?_eq_some_iff _ _).mpr
    ⟨.inr ⟨hmarked rfl, hmarked rfl,
      (Text.numeral?_eq_some_iff (by decide)).mp (Text.numeral?_decimal _)⟩, word.toNat_lt⟩

/-- The text in which a payload word is shown. -/
theorem seed?_hexadecimal4 (word : UInt16) :
    seed? ("0x" ++ String.ofList (Text.hexadecimal4 word.toNat)) = some word := by
  have hnumeral : IsNumeral 16 (Text.hexadecimal4 word.toNat) word.toNat :=
    (Text.numeral?_eq_some_iff (by decide)).mp (Text.numeral?_hexadecimal4 _)
  apply seed?_of_value
  rw [String.toList_append, String.toList_ofList, String.toList_ofList]
  exact (seedValue?_eq_some_iff _ _).mpr ⟨.inl ⟨_, .inl rfl, hnumeral⟩, word.toNat_lt⟩

theorem message_parentRecord (tick : Tick) (word : UInt16) :
    (Scenario.parentRecord tick word).message =
      "lfsr = " ++ ("0x" ++ String.ofList (Text.hexadecimal4 word.toNat)) := by
  rw [← String.append_assoc]
  rfl

/-- Numbers are read as they are denoted, without a limit on zeros in front, and every other text is
refused as it stands.  The texts that the program writes for ticks, seeds and payload words are read
back. -/
theorem numerals_read_exactly :
    ReadsNumbers Field.start.read (fun n => .start (.ofNat n)) (IsNumeral 10) (2 ^ 64) ∧
    ReadsNumbers Field.stop.read (fun n => .stop (.ofNat n)) (IsNumeral 10) (2 ^ 64) ∧
    ReadsNumbers Field.cycles.read (fun n => .cycles (.ofNat n)) (IsNumeral 10) (2 ^ 64) ∧
    ReadsNumbers Field.seed.read (fun n => .seed (.ofNat n)) IsSeedNumeral (2 ^ 16) ∧
    (∀ flag text, (Refusal.invalidValue flag text).message =
      "invalid value for " ++ flag ++ ": " ++ text) ∧
    (∀ tick : Tick, tick? (toString tick) = some tick) ∧
    (∀ word : UInt16, seed? (toString word) = some word) ∧
    ∀ (tick : Tick) (word : UInt16), ∃ shown,
      (Scenario.parentRecord tick word).message = "lfsr = " ++ shown ∧
      seed? shown = some word := by
  refine ⟨readsNumbers_of_tick (fun _ => rfl) ?_, readsNumbers_of_tick (fun _ => rfl) ?_,
    readsNumbers_of_tick (fun _ => rfl) ?_, ?_, fun _ _ => rfl, tick?_toString, seed?_toString,
    fun tick word => ⟨_, message_parentRecord tick word, seed?_hexadecimal4 word⟩⟩
  · intro flag text
    cases h : tick? text <;> simp [Field.read, h]
  · intro flag text
    cases h : tick? text <;> simp [Field.read, h]
  · intro flag text
    cases h : tick? text <;> simp [Field.read, h]
  · apply readsNumbers_of_value seedValue?_eq_some_iff
    · exact fun n hn => UInt16.toNat_ofNat_of_lt' hn
    · intro flag text
      cases h : seedValue? text.toList <;> simp [Field.read, seed?_eq, h]

end CommandLine
end TickGate
