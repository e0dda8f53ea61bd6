import TickGate.Text.Numeral

/-!
# Text literals

How JSON spells a text between quotation marks.  Writing escapes the quotation mark, the
backslash and the control characters and nothing else.  Reading accepts every escape; an
escape may spell half of a surrogate pair, and `assemble` puts the halves together.
-/

namespace TickGate
namespace Json
namespace Literal

/-! ## Writing -/

/-- The characters that have an escape of their own, with its letter. -/
def shortEscapes : List (Char × Char) :=
  [('"', '"'), ('\\', '\\'), ('\x08', 'b'), ('\x0c', 'f'), ('\n', 'n'), ('\r', 'r'), ('\t', 't')]

/-- The spelling of one character. -/
def escape (c : Char) : List Char :=
  match shortEscapes.lookup c with
  | some letter => ['\\', letter]
  | none => if c.toNat < 0x20 then '\\' :: 'u' :: Text.hexadecimal4 c.toNat else [c]

/-- The spelling of a text, with its quotation marks. -/
def encode (content : String) : List Char :=
  '"' :: (content.toList.flatMap escape ++ ['"'])

/-! ## Reading -/

/-- What one escape or one plain character contributes. -/
inductive Piece where
  | scalar (c : Char)
  /-- Half of a surrogate pair. -/
  | surrogate (unit : Nat)
  deriving DecidableEq, Repr

/-- The piece that a 16-bit unit stands for. -/
def Piece.ofUnit (unit : Nat) : Piece :=
  if 0xD800 ≤ unit ∧ unit ≤ 0xDFFF then surrogate unit else scalar (Char.ofNat unit)

/-- The character of a two-character escape.  The slash has one, but needs none. -/
def ofLetter? (letter : Char) : Option Char :=
  if letter = '/' then some '/'
  else (shortEscapes.find? fun entry => entry.2 == letter).map Prod.fst

/-- Reads the pieces up to the closing quotation mark, after the pieces `read`, the last of them
first.  The second component is what follows the mark. -/
def pieces? (read : List Piece) : List Char → Option (List Piece × List Char)
  | [] => none
  | '"' :: rest => some (read.reverse, rest)
  | '\\' :: 'u' :: a :: b :: c :: d :: rest =>
    match Text.digitsValue? 16 0 [a, b, c, d] with
    | none => none
    | some unit => pieces? (.ofUnit unit :: read) rest
  | '\\' :: letter :: rest =>
    match ofLetter? letter with
    | none => none
    | some c => pieces? (.scalar c :: read) rest
  | c :: rest => if c.toNat < 0x20 ∨ c = '\\' then none else pieces? (.scalar c :: read) rest

/-- The text that pieces spell, after the characters `read`: a leading half of a surrogate pair
must be followed by a trailing one. -/
def assemble (read : String) : List Piece → Option String
  | [] => some read
  | .scalar c :: rest => assemble (read.push c) rest
  | .surrogate leading :: .surrogate trailing :: rest =>
    if leading < 0xDC00 ∧ 0xDC00 ≤ trailing then
      assemble (read.push (Char.ofNat
        (0x10000 + (leading - 0xD800) * 0x400 + (trailing - 0xDC00)))) rest
    else none
  | .surrogate _ :: _ => none

theorem pieces?_length {read found : List Piece} {text rest : List Char}
    (h : pieces? read text = some (found, rest)) : rest.length < text.length := by
  fun_induction pieces? read text with
  | case1 => cases h
  | case2 =>
    cases h
    exact Nat.lt_succ_self _
  | case3 => cases h
  | case4 read a b c d text unit _ ih =>
    have := ih h
    simp only [List.length_cons]
    omega
  | case5 => cases h
  | case6 read letter text _ c _ ih =>
    have := ih h
    simp only [List.length_cons]
    omega
  | case7 => cases h
  | case8 read c text _ _ _ _ ih =>
    have := ih h
    simp only [List.length_cons]
    omega

end Literal
end Json
end TickGate
