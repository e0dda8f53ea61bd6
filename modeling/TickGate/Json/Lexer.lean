import TickGate.Json.Basic
import TickGate.Json.Literal

/-!
# Splitting a text into tokens

Between the tokens of a JSON text there may be spaces, tabs and line ends.  Each token is read
from the front of the text; a token that is cut short ends the reading.
-/

namespace TickGate
namespace Json

/-- The characters that may stand between tokens. -/
def isSpace (c : Char) : Bool := c == ' ' || c == '\n' || c == '\r' || c == '\t'

namespace Atom

/-- Reads digits, at least one.  The second component is what follows them. -/
def digits? (source : List Char) : Option (List Char × List Char) :=
  match source.takeWhile Char.isDigit with
  | [] => none
  | digits => some (digits, source.dropWhile Char.isDigit)

/-- Passes over an exponent.  The first component tells whether there is one. -/
def exponent? : List Char → Option (Bool × List Char)
  | [] => some (false, [])
  | c :: rest =>
    if c = 'e' ∨ c = 'E' then
      let unsigned := match rest with
        | '+' :: unsigned => unsigned
        | '-' :: unsigned => unsigned
        | unsigned => unsigned
      (digits? unsigned).map fun (_, rest) => (true, rest)
    else some (false, c :: rest)

/-- Passes over a fraction.  The first component tells whether there is one. -/
def fraction? : List Char → Option (Bool × List Char)
  | '.' :: rest => (digits? rest).map fun (_, rest) => (true, rest)
  | rest => some (false, rest)

/-- Reads an unsigned number: digits without a needless zero in front, a fraction and an
exponent. -/
def unsigned? (source : List Char) : Option (Atom × List Char) := do
  let (digits, rest) ← digits? source
  let (hasFraction, rest) ← fraction? rest
  let (hasExponent, rest) ← exponent? rest
  if digits.length ≠ 1 ∧ digits.head? = some '0' then none
  else if hasFraction || hasExponent then some (.number, rest)
  else (Text.digitsValue? 10 0 digits).map fun value => (.natural value, rest)

/-- Reads a number. -/
def number? : List Char → Option (Atom × List Char)
  | '-' :: rest => (unsigned? rest).map fun (_, rest) => (.number, rest)
  | source => unsigned? source

theorem length_dropWhile_le (p : Char → Bool) (source : List Char) :
    (source.dropWhile p).length ≤ source.length :=
  (List.dropWhile_suffix p).length_le

theorem digits?_length {source digits rest : List Char}
    (h : digits? source = some (digits, rest)) : rest.length < source.length := by
  unfold digits? at h
  split at h
  · cases h
  next hne =>
    cases h
    cases source with
    | nil => simp at hne
    | cons c source =>
      rcases hc : c.isDigit with _ | _
      · simp [hc] at hne
      · rw [List.dropWhile_cons, if_pos hc]
        exact Nat.lt_succ_of_le (length_dropWhile_le _ _)

theorem exponent?_length {source rest : List Char} {found : Bool}
    (h : exponent? source = some (found, rest)) : rest.length ≤ source.length := by
  unfold exponent? at h
  split at h
  · cases h
    exact Nat.le_refl _
  · split at h
    · obtain ⟨⟨digits, after⟩, hdigits, heq⟩ := Option.map_eq_some_iff.1 h
      cases heq
      have := digits?_length hdigits
      split at this <;> simp only [List.length_cons] <;> omega
    · cases h
      exact Nat.le_refl _

theorem fraction?_length {source rest : List Char} {found : Bool}
    (h : fraction? source = some (found, rest)) : rest.length ≤ source.length := by
  unfold fraction? at h
  split at h
  · obtain ⟨⟨digits, after⟩, hdigits, heq⟩ := Option.map_eq_some_iff.1 h
    cases heq
    have := digits?_length hdigits
    simp only [List.length_cons]
    omega
  · cases h
    exact Nat.le_refl _

theorem unsigned?_length {source rest : List Char} {found : Atom}
    (h : unsigned? source = some (found, rest)) : rest.length < source.length := by
  simp only [unsigned?, Option.bind_eq_bind, Option.bind_eq_some_iff, Prod.exists] at h
  obtain ⟨digits, afterDigits, hdigits, _, afterFraction, hfraction, _, afterExponent, hexponent,
    h⟩ := h
  have h1 := digits?_length hdigits
  have h2 := fraction?_length hfraction
  have h3 := exponent?_length hexponent
  have : rest = afterExponent := by
    split at h
    · cases h
    · split at h
      · cases h
        rfl
      · obtain ⟨_, _, heq⟩ := Option.map_eq_some_iff.1 h
        cases heq
        rfl
  subst this
  omega

theorem number?_length {source rest : List Char} {found : Atom}
    (h : number? source = some (found, rest)) : rest.length < source.length := by
  unfold number? at h
  split at h
  · obtain ⟨⟨digits, after⟩, hunsigned, heq⟩ := Option.map_eq_some_iff.1 h
    cases heq
    have := unsigned?_length hunsigned
    simp only [List.length_cons]
    omega
  · exact unsigned?_length h

end Atom

namespace Token

/-- Reads the token at the front of a text. -/
def read? : List Char → Option (Token × List Char)
  | '[' :: rest => some (openArray, rest)
  | ']' :: rest => some (closeArray, rest)
  | '{' :: rest => some (openObject, rest)
  | '}' :: rest => some (closeObject, rest)
  | ',' :: rest => some (comma, rest)
  | ':' :: rest => some (colon, rest)
  | 'n' :: 'u' :: 'l' :: 'l' :: rest => some (atom .null, rest)
  | 't' :: 'r' :: 'u' :: 'e' :: rest => some (atom (.bool true), rest)
  | 'f' :: 'a' :: 'l' :: 's' :: 'e' :: rest => some (atom (.bool false), rest)
  | '"' :: rest =>
    (Literal.pieces? [] rest).map fun (pieces, rest) =>
      (atom (.text (Literal.assemble "" pieces)), rest)
  | source => (Atom.number? source).map fun (value, rest) => (atom value, rest)

theorem read?_length {source rest : List Char} {token : Token}
    (h : read? source = some (token, rest)) : rest.length < source.length := by
  unfold read? at h
  split at h
  case h_10 =>
    obtain ⟨⟨pieces, after⟩, hpieces, heq⟩ := Option.map_eq_some_iff.1 h
    cases heq
    exact Nat.lt_succ_of_lt (Literal.pieces?_length hpieces)
  case h_11 =>
    obtain ⟨⟨value, after⟩, hnumber, heq⟩ := Option.map_eq_some_iff.1 h
    cases heq
    exact Atom.number?_length hnumber
  all_goals
    cases h
    simp only [List.length_cons]
    omega

/-- The spelling of a token.  A number without a known value is spelled as one of its kind, and
a text without a known content as an unpaired surrogate. -/
def spell : Token → List Char
  | openArray => ['[']
  | closeArray => [']']
  | openObject => ['{']
  | closeObject => ['}']
  | comma => [',']
  | colon => [':']
  | atom .null => ['n', 'u', 'l', 'l']
  | atom (.bool true) => ['t', 'r', 'u', 'e']
  | atom (.bool false) => ['f', 'a', 'l', 's', 'e']
  | atom (.natural value) => Text.decimal value
  | atom .number => ['-', '0']
  | atom (.text (some content)) => Literal.encode content
  | atom (.text none) => ['"', '\\', 'u', 'd', '8', '0', '0', '"']

end Token

/-- The tokens of a text, after the tokens `found`, the last of them first. -/
def lexFrom? (found : List Token) (source : List Char) : Option (List Token) :=
  match source with
  | [] => some found.reverse
  | c :: rest =>
    if isSpace c then lexFrom? found rest
    else
      match h : Token.read? (c :: rest) with
      | none => none
      | some (token, after) =>
        have : after.length < (c :: rest).length := Token.read?_length h
        lexFrom? (token :: found) after
termination_by source.length
decreasing_by
  · exact Nat.lt_succ_self _
  · exact this

/-- The tokens of a text. -/
def lex? (source : String) : Option (List Token) := lexFrom? [] source.toList

end Json
end TickGate
