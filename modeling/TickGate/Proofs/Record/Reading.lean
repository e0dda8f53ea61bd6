import TickGate.Proofs.Record.Printing

/-!
# Lines read back

A line names its tick in brackets, then its scope up to the first colon that a space follows, and
the rest is its message.  Only the scope can make a line ambiguous, and only by such a colon of its
own; a tick may have any number of digits.  Printed text falls apart into its lines at the newlines,
if no record has one.
-/

namespace TickGate

namespace Record

/-! ## One line -/

/-- What stands before the first colon that a space follows, and what stands after the two. -/
def splitAtColon? : List Char → Option (List Char × List Char)
  | ':' :: ' ' :: message => some ([], message)
  | c :: rest => (splitAtColon? rest).map fun (scope, message) => (c :: scope, message)
  | [] => none

/-- The record of a line: after an opening bracket and spaces the digits of the tick, then a closing
bracket, a space, the scope and the message. -/
def ofLine? : List Char → Option Record
  | '[' :: padded =>
    let unpadded := padded.dropWhile (· = ' ')
    match Text.numeralBelow? 10 (2 ^ 64) (unpadded.takeWhile Char.isDigit),
      unpadded.dropWhile Char.isDigit with
    | some tick, ']' :: ' ' :: body =>
      (splitAtColon? body).map fun (scope, message) =>
        { tick := .ofNat tick, scope := .ofList scope, message := .ofList message }
    | _, _ => none
  | _ => none

/-- A record whose line can be told from all others: no colon in the scope is followed by a space,
and no newline divides the line. -/
structure Readable (record : Record) : Prop where
  scope_ends : ¬ [':', ' '] <:+: record.scope.toList
  scope_line : '\n' ∉ record.scope.toList
  message_line : '\n' ∉ record.message.toList

theorem splitAtColon?_append {scope : List Char} (h : ¬ [':', ' '] <:+: scope)
    (message : List Char) :
    splitAtColon? (scope ++ ':' :: ' ' :: message) = some (scope, message) := by
  induction scope with
  | nil => rfl
  | cons c scope ih =>
      have hscope : ¬ [':', ' '] <:+: scope :=
        fun hwithin => h (hwithin.trans (List.suffix_cons c scope).isInfix)
      have hcolon : ∀ rest, c = ':' → scope ++ ':' :: ' ' :: message = ' ' :: rest → False := by
        rintro rest rfl hspace
        cases scope with
        | nil => exact absurd (List.cons.inj hspace).1 (by decide)
        | cons d scope =>
            obtain rfl := (List.cons.inj hspace).1
            exact h ⟨[], scope, rfl⟩
      rw [List.cons_append, splitAtColon?, ih hscope]
      · rfl
      · exact hcolon

end Record

namespace Text

/-- Only spaces are left out before a number. -/
theorem dropWhile_padLeft_decimal (width n : ℕ) (rest : List Char) :
    (padLeft width ' ' (decimal n) ++ rest).dropWhile (· = ' ') = decimal n ++ rest := by
  rw [padLeft, List.append_assoc, List.dropWhile_append_of_pos]
  · cases hdigits : decimal n with
    | nil => exact absurd hdigits Nat.toDigits_ne_nil
    | cons c digits =>
        have hdigit : c.isDigit = true := isDigit_of_mem_decimal (hdigits ▸ List.mem_cons_self)
        have hspace : c ≠ ' ' := by
          rintro rfl
          exact absurd hdigit (by decide)
        rw [List.cons_append, List.dropWhile_cons_of_neg (by simpa using hspace)]
  · intro c hc
    simpa using List.eq_of_mem_replicate hc

end Text

namespace Record

theorem toList_line (record : Record) :
    record.line.toList =
      '[' :: (Text.padLeft 8 ' ' (Text.decimal record.tick.toNat) ++
        ']' :: ' ' :: (record.scope.toList ++ ':' :: ' ' :: record.message.toList)) := by
  simp [line, toString]

/-- A line is read back as its record, however many digits its tick has, unless a colon within its
scope is followed by a space. -/
theorem ofLine?_line {record : Record} (h : ¬ [':', ' '] <:+: record.scope.toList) :
    ofLine? record.line.toList = some record := by
  let n := record.tick.toNat
  let body := record.scope.toList ++ ':' :: ' ' :: record.message.toList
  have hdigits : ∀ c ∈ Text.decimal n, c.isDigit = true := fun _ => Text.isDigit_of_mem_decimal
  have htaken : (Text.decimal n ++ ']' :: ' ' :: body).takeWhile Char.isDigit = Text.decimal n := by
    rw [List.takeWhile_append_of_pos hdigits, List.takeWhile_cons_of_neg (by decide),
      List.append_nil]
  have hleft : (Text.decimal n ++ ']' :: ' ' :: body).dropWhile Char.isDigit =
      ']' :: ' ' :: body := by
    rw [List.dropWhile_append_of_pos hdigits, List.dropWhile_cons_of_neg (by decide)]
  have htick : Text.numeralBelow? 10 (2 ^ 64) (Text.decimal n) = some n := by
    rw [Text.numeralBelow?, Text.numeral?_decimal, Option.filter_some, if_pos]
    exact decide_eq_true record.tick.toNat_lt
  rw [toList_line, ofLine?]
  simp only [Text.dropWhile_padLeft_decimal]
  rw [htaken, hleft, htick]
  simp only [body, splitAtColon?_append h, Option.map_some, n, UInt64.ofNat_toNat,
    String.ofList_toList]

theorem Readable.newline_notMem_line {record : Record} (h : record.Readable) :
    '\n' ∉ record.line.toList := by
  have hnumber : '\n' ∉ Text.padLeft 8 ' ' (Text.decimal record.tick.toNat) := by
    intro hmem
    rcases List.mem_append.1 hmem with hpad | hdigit
    · exact absurd (List.eq_of_mem_replicate hpad) (by decide)
    · exact absurd (Text.isDigit_of_mem_decimal hdigit) (by decide)
  rw [toList_line]
  simp [hnumber, h.scope_line, h.message_line]

end Record

/-! ## All lines -/

namespace LineWriter

theorem toList_text (records : List Record) :
    (text records).toList =
      ['\n'].intercalate (records.map (fun record => record.line.toList) ++ [[]]) := by
  induction records with
  | nil => rfl
  | cons record records ih =>
      have hcons : (text (record :: records)).toList =
          record.line.toList ++ '\n' :: (text records).toList := by
        simp [text, String.toList_join]
      rw [hcons, ih, List.map_cons, List.cons_append, List.intercalate_cons_of_ne_nil (by simp)]
      simp

/-- Text falls apart into the lines of its records, and nothing follows the last newline. -/
theorem splitOn_text {records : List Record} (h : ∀ record ∈ records, record.Readable) :
    (text records).toList.splitOn '\n' =
      records.map (fun record => record.line.toList) ++ [[]] := by
  rw [toList_text]
  refine List.splitOn_intercalate '\n' ?_ (by simp)
  intro line hline
  rcases List.mem_append.1 hline with hmem | hmem
  · obtain ⟨record, hrecord, rfl⟩ := List.mem_map.1 hmem
    exact (h record hrecord).newline_notMem_line
  · rw [List.mem_singleton.1 hmem]
    exact List.not_mem_nil

theorem map_ofLine?_lines {records : List Record} (h : ∀ record ∈ records, record.Readable) :
    (records.map fun record => record.line.toList).map Record.ofLine? = records.map some := by
  rw [List.map_map]
  refine List.map_congr_left fun record hmem => ?_
  rw [Function.comp_apply, Record.ofLine?_line (h record hmem).scope_ends]

/-- Readable records that are printed alike are the same. -/
theorem eq_of_bytes_eq {left right : List Record} (hleft : ∀ record ∈ left, record.Readable)
    (hright : ∀ record ∈ right, record.Readable) (h : bytes left = bytes right) :
    left = right := by
  have hlines : left.map (fun record => record.line.toList) =
      right.map fun record => record.line.toList := by
    have htext : text left = text right := by
      rw [bytes, bytes, String.toUTF8, String.toUTF8] at h
      exact String.toByteArray_inj.1 h
    have hsplit := congrArg (fun text => text.toList.splitOn '\n') htext
    simp only [splitOn_text hleft, splitOn_text hright] at hsplit
    exact List.append_cancel_right hsplit
  have hread := congrArg (List.map Record.ofLine?) hlines
  rw [map_ofLine?_lines hleft, map_ofLine?_lines hright] at hread
  exact List.map_injective_iff.2 (Option.some_injective Record) hread

end LineWriter
end TickGate
