import Mathlib.Data.List.TakeWhile
import TickGate.Json.Lexer
import TickGate.Proofs.Text.Positional

/-!
# The spellings of a number

A number is an integer without a needless zero in front, perhaps after a minus sign and perhaps
followed by a fraction and an exponent.  The reader accepts exactly this where nothing follows that
would lengthen it.
-/

namespace TickGate
namespace Json
namespace Atom

/-- Digits, one at least. -/
def IsDigits (text : List Char) : Prop := text ≠ [] ∧ ∀ c ∈ text, c.isDigit = true

/-- Digits without a needless zero in front. -/
def IsInteger (text : List Char) : Prop :=
  IsDigits text ∧ (text.head? = some '0' → text = ['0'])

/-- A fraction or nothing. -/
def IsFraction (text : List Char) : Prop :=
  text = [] ∨ ∃ digits, text = '.' :: digits ∧ IsDigits digits

/-- An exponent or nothing. -/
def IsExponent (text : List Char) : Prop :=
  text = [] ∨ ∃ mark sign digits, text = mark :: (sign ++ digits) ∧ (mark = 'e' ∨ mark = 'E') ∧
    (sign = [] ∨ sign = ['+'] ∨ sign = ['-']) ∧ IsDigits digits

/-- The spellings of a number without a sign. -/
inductive IsUnsigned : Atom → List Char → Prop where
  | natural {text : List Char} {value : ℕ} (htext : IsInteger text)
      (hvalue : Text.Denote 10 text value) : IsUnsigned (.natural value) text
  | number {integer fraction exponent : List Char} (hinteger : IsInteger integer)
      (hfraction : IsFraction fraction) (hexponent : IsExponent exponent)
      (hne : fraction ≠ [] ∨ exponent ≠ []) :
      IsUnsigned .number (integer ++ (fraction ++ exponent))

/-- The spellings of a number. -/
def IsNumber (a : Atom) (spelling : List Char) : Prop :=
  IsUnsigned a spelling ∨
    a = .number ∧ ∃ unsigned rest, IsUnsigned unsigned rest ∧ spelling = '-' :: rest

/-- Whether a character would lengthen a number that ends before it. -/
def continuesNumber (c : Char) : Bool := c.isDigit || c == '.' || c == 'e' || c == 'E'

variable {rest source : List Char}

theorem continuesNumber_eq_false_iff {c : Char} :
    continuesNumber c = false ↔ c.isDigit = false ∧ c ≠ '.' ∧ ¬(c = 'e' ∨ c = 'E') := by
  simp [continuesNumber, and_assoc]

theorem digits?_append {digits : List Char} (hdigits : IsDigits digits)
    (hrest : ∀ c ∈ rest.head?, c.isDigit = false) :
    digits? (digits ++ rest) = some (digits, rest) := by
  have htake : rest.takeWhile Char.isDigit = [] := by
    cases rest with
    | nil => rfl
    | cons c rest => simp [hrest c rfl]
  have hdrop : rest.dropWhile Char.isDigit = rest := by
    cases rest with
    | nil => rfl
    | cons c rest => simp [hrest c rfl]
  rw [digits?, List.takeWhile_append_of_pos hdigits.2, List.dropWhile_append_of_pos hdigits.2,
    htake, hdrop, List.append_nil]
  cases digits with
  | nil => exact absurd rfl hdigits.1
  | cons => rfl

theorem digits?_eq_some {digits : List Char} (h : digits? source = some (digits, rest)) :
    IsDigits digits ∧ source = digits ++ rest := by
  rw [digits?] at h
  split at h
  · cases h
  next hne =>
    cases h
    exact ⟨⟨hne, fun _ => List.mem_takeWhile_imp⟩, List.takeWhile_append_dropWhile.symm⟩

theorem fraction?_append {fraction : List Char} (hfraction : IsFraction fraction)
    (hrest : ∀ c ∈ rest.head?, c.isDigit = false ∧ c ≠ '.') :
    fraction? (fraction ++ rest) = some (!fraction.isEmpty, rest) := by
  obtain rfl | ⟨digits, rfl, hdigits⟩ := hfraction
  · rw [List.nil_append, fraction?.eq_def]
    split
    next => exact absurd rfl (hrest '.' rfl).2
    next => rfl
  · rw [List.cons_append, fraction?, digits?_append hdigits fun c hc => (hrest c hc).1]
    rfl

theorem fraction?_eq_some {found : Bool} (h : fraction? source = some (found, rest)) :
    ∃ fraction, IsFraction fraction ∧ source = fraction ++ rest ∧ found = !fraction.isEmpty := by
  rw [fraction?.eq_def] at h
  split at h
  next tail =>
    obtain ⟨⟨digits, after⟩, hdigits, heq⟩ := Option.map_eq_some_iff.mp h
    cases heq
    obtain ⟨hall, rfl⟩ := digits?_eq_some hdigits
    exact ⟨'.' :: digits, .inr ⟨digits, rfl, hall⟩, rfl, rfl⟩
  next =>
    cases h
    exact ⟨[], .inl rfl, rfl, rfl⟩

/-- What follows the sign of an exponent, if it has one. -/
def afterSign : List Char → List Char
  | '+' :: rest => rest
  | '-' :: rest => rest
  | rest => rest

theorem exponent?_cons (c : Char) (rest : List Char) :
    exponent? (c :: rest) =
      if c = 'e' ∨ c = 'E' then (digits? (afterSign rest)).map fun (_, rest) => (true, rest)
      else some (false, c :: rest) := rfl

theorem afterSign_append {sign digits : List Char}
    (hsign : sign = [] ∨ sign = ['+'] ∨ sign = ['-']) (hdigits : IsDigits digits) :
    afterSign (sign ++ (digits ++ rest)) = digits ++ rest := by
  obtain rfl | rfl | rfl := hsign
  · cases digits with
    | nil => exact absurd rfl hdigits.1
    | cons c digits =>
        have hdigit := hdigits.2 c List.mem_cons_self
        rw [List.nil_append, List.cons_append, afterSign]
        · rintro after heq
          cases heq
          cases hdigit
        · rintro after heq
          cases heq
          cases hdigit
  · rfl
  · rfl

theorem exists_eq_append_afterSign (source : List Char) :
    ∃ sign, (sign = [] ∨ sign = ['+'] ∨ sign = ['-']) ∧ source = sign ++ afterSign source := by
  rw [afterSign.eq_def]
  split
  · exact ⟨['+'], .inr (.inl rfl), rfl⟩
  · exact ⟨['-'], .inr (.inr rfl), rfl⟩
  · exact ⟨[], .inl rfl, rfl⟩

theorem exponent?_append {exponent : List Char} (hexponent : IsExponent exponent)
    (hrest : ∀ c ∈ rest.head?, continuesNumber c = false) :
    exponent? (exponent ++ rest) = some (!exponent.isEmpty, rest) := by
  obtain rfl | ⟨mark, sign, digits, rfl, hmark, hsign, hdigits⟩ := hexponent
  · cases rest with
    | nil => rfl
    | cons c rest =>
        rw [List.nil_append, exponent?_cons,
          if_neg (continuesNumber_eq_false_iff.mp (hrest c rfl)).2.2]
        rfl
  · have hdigit : ∀ c ∈ rest.head?, c.isDigit = false :=
      fun c hc => (continuesNumber_eq_false_iff.mp (hrest c hc)).1
    rw [List.cons_append, exponent?_cons, if_pos hmark, List.append_assoc,
      afterSign_append hsign hdigits, digits?_append hdigits hdigit]
    rfl

theorem exponent?_eq_some {found : Bool} (h : exponent? source = some (found, rest)) :
    ∃ exponent, IsExponent exponent ∧ source = exponent ++ rest ∧ found = !exponent.isEmpty := by
  cases source with
  | nil =>
      cases h
      exact ⟨[], .inl rfl, rfl, rfl⟩
  | cons c source =>
      rw [exponent?_cons] at h
      split_ifs at h with hmark
      · obtain ⟨⟨digits, after⟩, hread, heq⟩ := Option.map_eq_some_iff.mp h
        cases heq
        obtain ⟨hdigits, hafter⟩ := digits?_eq_some hread
        obtain ⟨sign, hsign, hsource⟩ := exists_eq_append_afterSign source
        refine ⟨c :: (sign ++ digits), .inr ⟨c, sign, digits, rfl, hmark, hsign, hdigits⟩, ?_, rfl⟩
        rw [hsource, hafter, List.cons_append, List.append_assoc]
      · cases h
        exact ⟨[], .inl rfl, rfl, rfl⟩

/-- A sequence of digits ends where a fraction or an exponent begins. -/
theorem isDigit_head_exponent {exponent : List Char} (hexponent : IsExponent exponent)
    (hrest : ∀ c ∈ rest.head?, continuesNumber c = false) :
    ∀ c ∈ (exponent ++ rest).head?, c.isDigit = false ∧ c ≠ '.' := by
  intro c hc
  obtain rfl | ⟨mark, sign, digits, rfl, hmark, -⟩ := hexponent
  · have h := continuesNumber_eq_false_iff.mp (hrest c hc)
    exact ⟨h.1, h.2.1⟩
  · cases hc
    obtain rfl | rfl := hmark <;> decide

theorem isDigit_head_fraction {fraction : List Char} (hfraction : IsFraction fraction)
    (hrest : ∀ c ∈ rest.head?, c.isDigit = false ∧ c ≠ '.') :
    ∀ c ∈ (fraction ++ rest).head?, c.isDigit = false := by
  intro c hc
  obtain rfl | ⟨digits, rfl, -⟩ := hfraction
  · exact (hrest c hc).1
  · cases hc
    rfl

theorem isInteger_iff {text : List Char} :
    IsInteger text ↔ IsDigits text ∧ ¬(text.length ≠ 1 ∧ text.head? = some '0') := by
  apply and_congr_right
  rintro -
  match text with
  | [] => simp
  | [c] => simp
  | c :: next :: text => simp

theorem unsigned?_append {a : Atom} {spelling : List Char} (h : IsUnsigned a spelling)
    (hrest : ∀ c ∈ rest.head?, continuesNumber c = false) :
    unsigned? (spelling ++ rest) = some (a, rest) := by
  have hparts {integer fraction exponent : List Char} (hinteger : IsInteger integer)
      (hfraction : IsFraction fraction) (hexponent : IsExponent exponent) :
      unsigned? (integer ++ (fraction ++ (exponent ++ rest))) =
        if !fraction.isEmpty || !exponent.isEmpty then some (.number, rest)
        else (Text.digitsValue? 10 0 integer).map fun value => (.natural value, rest) := by
    have hend := isDigit_head_exponent hexponent hrest
    simp only [unsigned?, Option.bind_eq_bind, Option.bind_some,
      digits?_append hinteger.1 (isDigit_head_fraction hfraction hend),
      fraction?_append hfraction hend, exponent?_append hexponent hrest]
    rw [if_neg (isInteger_iff.mp hinteger).2]
  cases h with
  | natural htext hvalue =>
      have hread := hparts htext (.inl rfl) (.inl rfl)
      rw [(Text.digitsValue?_zero_eq_some_iff (by decide)).mpr hvalue] at hread
      exact hread
  | number hinteger hfraction hexponent hne =>
      rw [List.append_assoc, List.append_assoc, hparts hinteger hfraction hexponent, if_pos]
      simpa using hne

theorem unsigned?_eq_some {a : Atom} (h : unsigned? source = some (a, rest)) :
    ∃ spelling, IsUnsigned a spelling ∧ source = spelling ++ rest := by
  simp only [unsigned?, Option.bind_eq_bind, Option.bind_eq_some_iff, Prod.exists] at h
  obtain ⟨integer, _, hfirst, _, _, hsecond, _, after, hthird, h⟩ := h
  obtain ⟨hdigits, rfl⟩ := digits?_eq_some hfirst
  obtain ⟨fraction, hfraction, rfl, rfl⟩ := fraction?_eq_some hsecond
  obtain ⟨exponent, hexponent, rfl, rfl⟩ := exponent?_eq_some hthird
  split_ifs at h with hzero hparts
  · have hinteger := isInteger_iff.mpr ⟨hdigits, hzero⟩
    cases h
    refine ⟨_, .number hinteger hfraction hexponent (by simpa using hparts), ?_⟩
    simp
  · have hinteger := isInteger_iff.mpr ⟨hdigits, hzero⟩
    obtain ⟨value, hvalue, heq⟩ := Option.map_eq_some_iff.mp h
    cases heq
    obtain ⟨rfl, rfl⟩ : fraction = [] ∧ exponent = [] := by simpa using hparts
    exact ⟨integer, .natural hinteger ((Text.digitsValue?_zero_eq_some_iff (by decide)).mp hvalue),
      rfl⟩

/-- A number without a sign begins with a digit. -/
theorem IsUnsigned.exists_cons {a : Atom} {spelling : List Char} (h : IsUnsigned a spelling) :
    ∃ c rest, spelling = c :: rest ∧ c.isDigit = true := by
  have hinteger {integer : List Char} (hinteger : IsInteger integer) (after : List Char) :
      ∃ c rest, integer ++ after = c :: rest ∧ c.isDigit = true := by
    cases integer with
    | nil => exact absurd rfl hinteger.1.1
    | cons c integer => exact ⟨c, integer ++ after, rfl, hinteger.1.2 c List.mem_cons_self⟩
  cases h with
  | natural htext hvalue => simpa using hinteger htext []
  | number h hfraction hexponent hne => exact hinteger h _

theorem number?_of_isDigit {c : Char} (h : c.isDigit = true) :
    number? (c :: rest) = unsigned? (c :: rest) := by
  rw [number?.eq_def]
  split
  next heq =>
    cases heq
    cases h
  next => rfl

theorem number?_append {a : Atom} {spelling : List Char} (h : IsNumber a spelling)
    (hrest : ∀ c ∈ rest.head?, continuesNumber c = false) :
    number? (spelling ++ rest) = some (a, rest) := by
  obtain h | ⟨rfl, unsigned, digits, h, rfl⟩ := h
  · have hread := unsigned?_append h hrest
    obtain ⟨c, digits, rfl, hc⟩ := h.exists_cons
    rwa [List.cons_append, number?_of_isDigit hc]
  · rw [List.cons_append, number?, unsigned?_append h hrest]
    rfl

theorem number?_eq_some {a : Atom} (h : number? source = some (a, rest)) :
    ∃ spelling, IsNumber a spelling ∧ source = spelling ++ rest := by
  rw [number?.eq_def] at h
  split at h
  next tail =>
    obtain ⟨⟨unsigned, after⟩, hread, heq⟩ := Option.map_eq_some_iff.mp h
    cases heq
    obtain ⟨spelling, hspelling, rfl⟩ := unsigned?_eq_some hread
    exact ⟨'-' :: spelling, .inr ⟨rfl, unsigned, spelling, hspelling, rfl⟩, rfl⟩
  next =>
    obtain ⟨spelling, hspelling, rfl⟩ := unsigned?_eq_some h
    exact ⟨spelling, .inl hspelling, rfl⟩

theorem IsNumber.exists_cons {a : Atom} {spelling : List Char} (h : IsNumber a spelling) :
    ∃ c rest, spelling = c :: rest ∧ (c.isDigit = true ∨ c = '-') := by
  obtain h | ⟨rfl, unsigned, digits, h, rfl⟩ := h
  · obtain ⟨c, digits, rfl, hc⟩ := h.exists_cons
    exact ⟨c, digits, rfl, .inl hc⟩
  · exact ⟨'-', digits, rfl, .inr rfl⟩

theorem isUnsigned_decimal (n : ℕ) : IsUnsigned (.natural n) (Text.decimal n) := by
  refine .natural ⟨⟨Nat.toDigits_ne_nil, fun _ => Text.isDigit_of_mem_decimal⟩, fun hzero => ?_⟩
    ((Text.digitsValue?_zero_eq_some_iff (by decide)).mp
      (Text.digitsValue?_toDigits (by decide) (by decide) n))
  cases n with
  | zero => rfl
  | succ n => exact absurd hzero (Text.head?_toDigits_ne_zero n.succ_pos)

end Atom

end Json
end TickGate
