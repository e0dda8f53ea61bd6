import Mathlib.Data.List.Forall2
import Mathlib.Data.List.TakeWhile
import TickGate.Policy.Parse

/-!
# The texts that name a policy

A text names a policy if it is the policy's name with white space around it and every letter in
either ASCII case.  The parser accepts these texts and no others, and refuses the others with the
text as it was given.  Trimming removes blank ends and nothing else, and a name has no blank end of
its own.
-/

namespace TickGate

/-! ## White space and trimming -/

namespace Text

/-- The characters with the Unicode property White_Space. -/
def whiteSpace : List Char :=
  ['\u0009', '\u000a', '\u000b', '\u000c', '\u000d', '\u0020', '\u0085', '\u00a0', '\u1680',
    '\u2000', '\u2001', '\u2002', '\u2003', '\u2004', '\u2005', '\u2006', '\u2007', '\u2008',
    '\u2009', '\u200a', '\u2028', '\u2029', '\u202f', '\u205f', '\u3000']

theorem isBlank_iff_mem (c : Char) : isBlank c = true ↔ c ∈ whiteSpace := by
  have hmem : c ∈ whiteSpace ↔ c.toNat ∈ whiteSpace.map Char.toNat := by
    rw [List.mem_map]
    constructor
    · exact fun h => ⟨c, h, rfl⟩
    · rintro ⟨other, hother, heq⟩
      exact Char.toNat_inj.mp heq ▸ hother
  rw [hmem]
  simp only [isBlank, whiteSpace, Bool.or_eq_true, Bool.and_eq_true, decide_eq_true_eq, beq_iff_eq,
    List.map_cons, List.map_nil, List.mem_cons, List.not_mem_nil, or_false, Char.reduceToNat]
  omega

/-- All characters of a text are white space. -/
def AllBlank (text : List Char) : Prop := ∀ c ∈ text, c ∈ whiteSpace

instance (text : List Char) : Decidable (AllBlank text) := List.decidableBAll _ text

theorem allBlank_iff {text : List Char} : AllBlank text ↔ ∀ c ∈ text, isBlank c = true := by
  simp only [AllBlank, isBlank_iff_mem]

theorem exists_eq_append_trim (text : List Char) :
    ∃ front back, AllBlank front ∧ AllBlank back ∧ text = front ++ trim text ++ back := by
  let core := text.dropWhile isBlank
  refine ⟨text.takeWhile isBlank, (core.reverse.takeWhile isBlank).reverse, ?_, ?_, ?_⟩
  · rw [allBlank_iff]
    exact fun c hc => List.mem_takeWhile_imp hc
  · rw [allBlank_iff]
    intro c hc
    rw [List.mem_reverse] at hc
    exact List.mem_takeWhile_imp hc
  · have hcore : trim text ++ (core.reverse.takeWhile isBlank).reverse = core := by
      rw [trim, ← List.reverse_append, List.takeWhile_append_dropWhile, List.reverse_reverse]
    rw [List.append_assoc, hcore, List.takeWhile_append_dropWhile]

theorem trim_append_right {back : List Char} (h : ∀ c ∈ back, isBlank c = true)
    (text : List Char) : trim (text ++ back) = trim text := by
  rw [trim, trim, List.dropWhile_append]
  split
  next hnil =>
    have hback : back.dropWhile isBlank = [] := List.dropWhile_eq_nil_iff.mpr h
    rw [hback, List.isEmpty_iff.mp hnil]
  next =>
    rw [List.reverse_append, dropWhile_append_of_all]
    intro c hc
    exact h c (List.mem_reverse.mp hc)

/-- Blank ends are removed from around a text that begins and ends with other characters. -/
theorem trim_padded {front word back : List Char} (hfront : AllBlank front) (hback : AllBlank back)
    (hword : ∀ c ∈ word, isBlank c = false) : trim (front ++ word ++ back) = word := by
  rw [trim_append_right (allBlank_iff.mp hback), trim_append_left (allBlank_iff.mp hfront)]
  apply trim_eq_self
  · exact fun c hc => hword c (List.mem_of_mem_head? hc)
  · exact fun c hc => hword c (List.mem_of_getLast? hc)

/-! ## Letters in either case -/

theorem toNat_toLower (c : Char) :
    c.toLower.toNat = if 65 ≤ c.toNat ∧ c.toNat ≤ 90 then c.toNat + 32 else c.toNat := by
  by_cases h : 65 ≤ c.toNat ∧ c.toNat ≤ 90
  · have hval : c.val ≥ 'A'.val ∧ c.val ≤ 'Z'.val := h
    have hle : c.val.toNat ≤ 90 := h.2
    have hlower : c.toLower.val = c.val + 32 := congrArg Char.val (dif_pos hval)
    rw [if_pos h]
    change c.toLower.val.toNat = c.val.toNat + 32
    rw [hlower, UInt32.toNat_add]
    exact Nat.mod_eq_of_lt (by change c.val.toNat + 32 < 2 ^ 32; omega)
  · have hval : ¬(c.val ≥ 'A'.val ∧ c.val ≤ 'Z'.val) := h
    have hsame : c.toLower = c := dif_neg hval
    rw [if_neg h, hsame]

theorem toLower_eq_toLower_iff {c letter : Char} (h : letter.isUpper = true) :
    c.toLower = letter.toLower ↔ c = letter ∨ c = letter.toLower := by
  have hupper : 65 ≤ letter.toNat ∧ letter.toNat ≤ 90 := of_decide_eq_true h
  simp only [← Char.toNat_inj, toNat_toLower]
  split <;> omega

/-- The letters of an upper-case word, each in either ASCII case. -/
def SameLetters (text upper : List Char) : Prop :=
  List.Forall₂ (fun c letter => c = letter ∨ c = letter.toLower) text upper

theorem map_toLower_eq_iff {text upper : List Char} (h : ∀ c ∈ upper, c.isUpper = true) :
    text.map Char.toLower = upper.map Char.toLower ↔ SameLetters text upper := by
  induction upper generalizing text with
  | nil => simp [SameLetters]
  | cons letter upper ih =>
      cases text with
      | nil => simp [SameLetters]
      | cons c text =>
          have hletter := toLower_eq_toLower_iff (c := c) (h letter List.mem_cons_self)
          have hrest : text.map Char.toLower = upper.map Char.toLower ↔ SameLetters text upper :=
            ih fun other hother => h other (List.mem_cons_of_mem letter hother)
          rw [List.map_cons, List.map_cons, List.cons.injEq, hletter, hrest, SameLetters,
            SameLetters, List.forall₂_cons]

/-- A letter in either ASCII case is not blank. -/
theorem SameLetters.isBlank_eq_false {text upper : List Char} (h : SameLetters text upper)
    (hupper : ∀ c ∈ upper, c.isUpper = true) {c : Char} (hc : c ∈ text) : isBlank c = false := by
  have hlower := List.mem_map_of_mem (f := Char.toLower) hc
  rw [(map_toLower_eq_iff hupper).mpr h, List.mem_map] at hlower
  obtain ⟨letter, hmem, heq⟩ := hlower
  have hletter : 65 ≤ letter.toNat ∧ letter.toNat ≤ 90 := of_decide_eq_true (hupper letter hmem)
  have hcase := (toLower_eq_toLower_iff (hupper letter hmem)).mp heq.symm
  simp only [← Char.toNat_inj, toNat_toLower, if_pos hletter] at hcase
  have hoff : ∀ blank ∈ whiteSpace, blank.toNat < 65 ∨ 122 < blank.toNat := by
    simp [whiteSpace]
  rw [← Bool.not_eq_true, isBlank_iff_mem]
  intro hblank
  have := hoff c hblank
  omega

end Text

namespace Policy

/-- The name of every policy is a word of upper-case letters. -/
theorem isUpper_of_mem_name (policy : Policy) : ∀ c ∈ policy.name.toList, c.isUpper = true := by
  apply List.all_eq_true.mp
  cases policy <;> decide

theorem toLower_name (policy : Policy) :
    policy.name.toList.map Char.toLower = policy.word.toList := by
  cases policy <;> decide

/-- The text is the policy's name, between white space and with each letter in either case. -/
def Names (text : String) (policy : Policy) : Prop :=
  ∃ front word back, text.toList = front ++ word ++ back ∧ Text.AllBlank front ∧
    Text.AllBlank back ∧ Text.SameLetters word policy.name.toList

theorem ofWord?_trim_iff {text : String} {policy : Policy} :
    ofWord? (String.ofList ((Text.trim text.toList).map Char.toLower)) = some policy ↔
      Names text policy := by
  have hletters {word : List Char} :
      word.map Char.toLower = policy.word.toList ↔ Text.SameLetters word policy.name.toList := by
    rw [← toLower_name, Text.map_toLower_eq_iff policy.isUpper_of_mem_name]
  rw [ofWord?_eq_some_iff, ← String.toList_inj, String.toList_ofList, hletters]
  constructor
  · intro h
    obtain ⟨front, back, hfront, hback, heq⟩ := Text.exists_eq_append_trim text.toList
    exact ⟨front, Text.trim text.toList, back, heq, hfront, hback, h⟩
  · rintro ⟨front, word, back, heq, hfront, hback, hword⟩
    rwa [heq, Text.trim_padded hfront hback fun c hc =>
      hword.isBlank_eq_false policy.isUpper_of_mem_name hc]

theorem parse_eq_ok_iff (text : String) (policy : Policy) :
    parse text = .ok policy ↔ Names text policy := by
  rw [← ofWord?_trim_iff, parse]
  split
  next found h => rw [h, Except.ok.injEq, Option.some.injEq]
  next h => simp [h]

/-- A policy is read from exactly the texts that name it.  Every other text is refused and kept in
the fault as it is. -/
theorem parse_reads_names (text : String) :
    (∀ policy, parse text = .ok policy ↔ Names text policy) ∧
    (parse text = .error (.unknownPolicy text) ↔ ∀ policy, ¬Names text policy) ∧
    ∀ (policy : Policy) (front word back : List Char), Text.AllBlank front → Text.AllBlank back →
      Text.SameLetters word policy.name.toList →
      parse (String.ofList (front ++ word ++ back)) = .ok policy := by
  refine ⟨parse_eq_ok_iff text, ?_, ?_⟩
  · constructor
    · intro hrefused policy hnames
      rw [(parse_eq_ok_iff text policy).mpr hnames] at hrefused
      cases hrefused
    · intro hnone
      cases hparse : parse text with
      | ok policy => exact absurd ((parse_eq_ok_iff text policy).mp hparse) (hnone policy)
      | error fault => rw [parse_error hparse]
  · intro policy front word back hfront hback hword
    apply (parse_eq_ok_iff _ policy).mpr
    exact ⟨front, word, back, String.toList_ofList, hfront, hback, hword⟩

/-- An ideographic space, the letters in different cases, and a line end. -/
theorem parse_reads_names_of_padded :
    Text.AllBlank ['\u3000'] ∧ Text.AllBlank ['\n'] ∧
    Text.SameLetters ['o', 'R'] any.name.toList ∧
    parse (String.ofList ['\u3000', 'o', 'R', '\n']) = .ok .any := by
  have hfront : Text.AllBlank ['\u3000'] := by decide
  have hback : Text.AllBlank ['\n'] := by decide
  have hword : Text.SameLetters ['o', 'R'] any.name.toList :=
    .cons (.inr rfl) (.cons (.inl rfl) .nil)
  obtain ⟨-, -, hpadded⟩ := parse_reads_names ""
  exact ⟨hfront, hback, hword, hpadded .any ['\u3000'] ['o', 'R'] ['\n'] hfront hback hword⟩

-- A space inside and a full-width letter are not passed over, and the fault keeps the outer spaces.
example : parse " o r " = .error (.unknownPolicy " o r ") ∧
    parse " \uff2fR" = .error (.unknownPolicy " \uff2fR") := by
  decide +kernel

end Policy
end TickGate
