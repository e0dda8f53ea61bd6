/-!
# Numerals

Reading and writing of natural numbers in a radix of at most sixteen.  A numeral is one or
more digits of either case, optionally after one plus sign; nothing else is skipped, and the
value is exact, so a caller compares it with its own limit.
-/

namespace TickGate
namespace Text

/-- The value of a digit, in either case, where the radix has it. -/
def digitValue? (radix : Nat) (c : Char) : Option Nat :=
  let value :=
    if '0' ≤ c ∧ c ≤ '9' then some (c.toNat - '0'.toNat)
    else if 'a' ≤ c ∧ c ≤ 'f' then some (c.toNat - 'a'.toNat + 10)
    else if 'A' ≤ c ∧ c ≤ 'F' then some (c.toNat - 'A'.toNat + 10)
    else none
  value.filter (· < radix)

/-- The value of the digits that follow digits of value `high`. -/
def digitsValue? (radix : Nat) (high : Nat) : List Char → Option Nat
  | [] => some high
  | c :: rest =>
    match digitValue? radix c with
    | none => none
    | some digit => digitsValue? radix (high * radix + digit) rest

/-- The text after one plus sign, or the whole text where there is none. -/
def afterPlus : List Char → List Char
  | '+' :: rest => rest
  | text => text

/-- The value of a numeral: one or more digits, optionally after a plus sign. -/
def numeral? (radix : Nat) (text : List Char) : Option Nat :=
  match afterPlus text with
  | [] => none
  | digits => digitsValue? radix 0 digits

/-- The value of a numeral that lies below `bound`. -/
def numeralBelow? (radix bound : Nat) (text : List Char) : Option Nat :=
  (numeral? radix text).filter (· < bound)

/-- `text` with `fill` put in front until it has `width` characters. -/
def padLeft (width : Nat) (fill : Char) (text : List Char) : List Char :=
  List.replicate (width - text.length) fill ++ text

/-- The decimal digits of a number. -/
def decimal (n : Nat) : List Char := Nat.toDigits 10 n

/-- The lower-case hexadecimal digits of a number, at least four of them. -/
def hexadecimal4 (n : Nat) : List Char := padLeft 4 '0' (Nat.toDigits 16 n)

theorem length_padLeft (width : Nat) (fill : Char) (text : List Char) :
    (padLeft width fill text).length = max width text.length := by
  simp only [padLeft, List.length_append, List.length_replicate]
  omega

/-- The value of digits in front of others is their value times a power of the radix. -/
theorem digitsValue?_append (radix high : Nat) (front rest : List Char) :
    digitsValue? radix high (front ++ rest) =
      (digitsValue? radix high front).bind fun value => digitsValue? radix value rest := by
  induction front generalizing high with
  | nil => rfl
  | cons c front ih =>
    rw [List.cons_append, digitsValue?, digitsValue?]
    split
    · rfl
    · exact ih _

theorem digitValue?_digitChar {radix n : Nat} (hn : n < radix) (hradix : radix ≤ 16) :
    digitValue? radix n.digitChar = some n := by
  have hsixteen : ∀ m : Fin 16, digitValue? 16 m.val.digitChar = some m.val := by decide
  have h := hsixteen ⟨n, by omega⟩
  rw [digitValue?, Option.filter_eq_some_iff] at h ⊢
  exact ⟨h.1, by simpa using hn⟩

/-- The digits of a number are read back as the number. -/
theorem digitsValue?_toDigits {radix : Nat} (hone : 1 < radix) (hradix : radix ≤ 16) (n : Nat) :
    digitsValue? radix 0 (Nat.toDigits radix n) = some n := by
  induction n using Nat.strongRecOn with
  | _ n ih =>
    rcases Nat.lt_or_ge n radix with hn | hn
    · rw [Nat.toDigits_of_lt_base hn, digitsValue?, digitValue?_digitChar hn hradix]
      simp [digitsValue?]
    · have hdigit := digitValue?_digitChar (Nat.mod_lt n (Nat.zero_lt_of_lt hone)) hradix
      rw [Nat.toDigits_of_base_le hone hn, digitsValue?_append,
        ih (n / radix) (Nat.div_lt_self (by omega) hone)]
      simp only [Option.bind_some, digitsValue?, hdigit]
      rw [Nat.mul_comm, Nat.div_add_mod]

/-- A positive number is written without a zero in front. -/
theorem head?_toDigits_ne_zero {n : Nat} (h : 0 < n) : (Nat.toDigits 10 n).head? ≠ some '0' := by
  induction n using Nat.strongRecOn with
  | _ n ih =>
    rcases Nat.lt_or_ge n 10 with hn | hn
    · have hall : ∀ m : Fin 10, m.val.digitChar = '0' → m.val = 0 := by decide
      rw [Nat.toDigits_of_lt_base hn]
      intro hzero
      have hnone : n = 0 := hall ⟨n, hn⟩ (Option.some.inj hzero)
      omega
    · rw [Nat.toDigits_of_base_le (by decide) hn, List.head?_append]
      have hrest := ih (n / 10) (Nat.div_lt_self h (by decide)) (by omega)
      cases hhead : (Nat.toDigits 10 (n / 10)).head? with
      | none => exact absurd (List.head?_eq_none_iff.1 hhead) Nat.toDigits_ne_nil
      | some c => rwa [hhead] at hrest

theorem isDigit_of_mem_decimal {n : Nat} {c : Char} (h : c ∈ decimal n) : c.isDigit = true :=
  Nat.isDigit_of_mem_toDigits (by decide) (by decide) h

/-- Zeros in front of digits do not change their value. -/
theorem digitsValue?_replicate_zero {radix : Nat} (hradix : 0 < radix) (count : Nat)
    (digits : List Char) :
    digitsValue? radix 0 (List.replicate count '0' ++ digits) = digitsValue? radix 0 digits := by
  have hzero : digitValue? radix '0' = some 0 := by simp [digitValue?, hradix]
  induction count with
  | zero => rfl
  | succ count ih =>
    rw [List.replicate_succ, List.cons_append, digitsValue?, hzero]
    simpa using ih

theorem digitsValue?_hexadecimal4 (n : Nat) : digitsValue? 16 0 (hexadecimal4 n) = some n := by
  rw [hexadecimal4, padLeft, digitsValue?_replicate_zero (by decide)]
  exact digitsValue?_toDigits (by decide) (by decide) n

theorem digitValue?_ne_none_of_mem {radix high n : Nat} {text : List Char}
    (h : digitsValue? radix high text = some n) {c : Char} (hc : c ∈ text) :
    digitValue? radix c ≠ none := by
  induction text generalizing high with
  | nil => exact absurd hc List.not_mem_nil
  | cons first rest ih =>
    rw [digitsValue?] at h
    cases hfirst : digitValue? radix first with
    | none => simp [hfirst] at h
    | some digit =>
      rw [hfirst] at h
      rcases List.mem_cons.1 hc with rfl | hrest
      · simp [hfirst]
      · exact ih h hrest

/-- Digits are a numeral: no sign is among them. -/
theorem numeral?_of_digitsValue? {radix n : Nat} {text : List Char} (hnil : text ≠ [])
    (h : digitsValue? radix 0 text = some n) : numeral? radix text = some n := by
  have hplus : afterPlus text = text := by
    rw [afterPlus]
    rintro rest rfl
    exact digitValue?_ne_none_of_mem h List.mem_cons_self (by simp [digitValue?])
  rw [numeral?, hplus]
  split
  next => exact absurd rfl hnil
  next => exact h

theorem numeral?_decimal (n : Nat) : numeral? 10 (decimal n) = some n :=
  numeral?_of_digitsValue? Nat.toDigits_ne_nil (digitsValue?_toDigits (by decide) (by decide) n)

theorem numeral?_hexadecimal4 (n : Nat) : numeral? 16 (hexadecimal4 n) = some n := by
  refine numeral?_of_digitsValue? (fun hnil => ?_) (digitsValue?_hexadecimal4 n)
  have hlength := length_padLeft 4 '0' (Nat.toDigits 16 n)
  rw [← hexadecimal4, hnil, List.length_nil] at hlength
  omega

/-- The last of at least two columns holds the last digit, the others the digits before it. -/
theorem padLeft_toDigits {radix width : Nat} (hradix : 1 < radix) (hwidth : 0 < width) (n : Nat) :
    padLeft (width + 1) '0' (Nat.toDigits radix n) =
      padLeft width '0' (Nat.toDigits radix (n / radix)) ++ [(n % radix).digitChar] := by
  rcases Nat.lt_or_ge n radix with hn | hn
  · rw [Nat.toDigits_of_lt_base hn, Nat.div_eq_of_lt hn, Nat.mod_eq_of_lt hn, Nat.toDigits_zero]
    obtain ⟨rest, rfl⟩ : ∃ rest, width = rest + 1 := ⟨width - 1, by omega⟩
    simp only [padLeft, List.length_singleton, Nat.add_sub_cancel]
    rw [List.replicate_succ']
  · rw [Nat.toDigits_of_base_le hradix hn, padLeft, padLeft, List.length_append,
      List.length_singleton, Nat.add_sub_add_right, List.append_assoc]

/-- A number below the fourth power of sixteen has exactly four digits. -/
theorem hexadecimal4_of_lt {n : Nat} (h : n < 65536) :
    hexadecimal4 n =
      [(n / 4096).digitChar, (n / 256 % 16).digitChar, (n / 16 % 16).digitChar,
        (n % 16).digitChar] := by
  have hradix : 1 < 16 := by decide
  have hsecond : n / 16 / 16 = n / 256 := by omega
  have hthird : n / 256 / 16 = n / 4096 := by omega
  have hfirst : Nat.toDigits 16 (n / 4096) = [(n / 4096).digitChar] :=
    Nat.toDigits_of_lt_base (by omega)
  rw [hexadecimal4, padLeft_toDigits hradix (by decide), padLeft_toDigits hradix (by decide),
    padLeft_toDigits hradix (by decide), hsecond, hthird, hfirst]
  rfl

end Text
end TickGate
