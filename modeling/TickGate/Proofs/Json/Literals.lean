import TickGate.Json.Literal
import TickGate.Proofs.Text.Positional

/-!
# The spellings of a text

Between quotation marks, a character stands for itself or is escaped by a letter, by its unit or by
a surrogate pair.  What can stand there is described without regard to the reader, which is then
shown to accept exactly this and to find the text that is spelled.
-/

namespace TickGate
namespace Json

/-- A text consists of the spellings of parts, one after the other. -/
inductive InTurn {α : Type} (spelled : α → List Char → Prop) : List α → List Char → Prop where
  | nil : InTurn spelled [] []
  | cons {part : α} {parts : List α} {spelling rest : List Char} (head : spelled part spelling)
      (tail : InTurn spelled parts rest) : InTurn spelled (part :: parts) (spelling ++ rest)

theorem InTurn.append {α : Type} {spelled : α → List Char → Prop} {parts others : List α}
    {text rest : List Char} (h : InTurn spelled parts text) (hothers : InTurn spelled others rest) :
    InTurn spelled (parts ++ others) (text ++ rest) := by
  induction h with
  | nil => exact hothers
  | cons head tail ih =>
      rw [List.append_assoc]
      exact .cons head ih

theorem InTurn.single {α : Type} {spelled : α → List Char → Prop} {part : α}
    {spelling : List Char} (h : spelled part spelling) : InTurn spelled [part] spelling := by
  have hsingle := InTurn.cons h .nil
  rwa [List.append_nil] at hsingle

namespace Literal

/-! ## What may stand between quotation marks -/

/-- A 16-bit unit is spelled by its four hexadecimal digits. -/
def SpellsUnit (unit : ℕ) (spelling : List Char) : Prop :=
  ∃ digits, spelling = '\\' :: 'u' :: digits ∧ digits.length = 4 ∧ Text.Denote 16 digits unit

/-- The letters of escapes, each after the character that it escapes. -/
def letters : List (Char × Char) := ('/', '/') :: shortEscapes

/-- A character is spelled by itself or by the letter of its escape. -/
inductive SpellsPlainly (c : Char) : List Char → Prop where
  | itself (hcontrol : 0x20 ≤ c.toNat) (hquote : c ≠ '"') (hbackslash : c ≠ '\\') :
      SpellsPlainly c [c]
  | letter {letter : Char} (h : (c, letter) ∈ letters) : SpellsPlainly c ['\\', letter]

/-- The spellings of a character. -/
inductive SpellsChar (c : Char) : List Char → Prop where
  | plainly {spelling : List Char} (h : SpellsPlainly c spelling) : SpellsChar c spelling
  | unit {spelling : List Char} (h : SpellsUnit c.toNat spelling) : SpellsChar c spelling
  | pair {leading trailing : ℕ} {front back : List Char}
      (hleading : 0xD800 ≤ leading ∧ leading < 0xDC00)
      (htrailing : 0xDC00 ≤ trailing ∧ trailing < 0xE000)
      (hvalue : c.toNat = 0x10000 + (leading - 0xD800) * 0x400 + (trailing - 0xDC00))
      (hfront : SpellsUnit leading front) (hback : SpellsUnit trailing back) :
      SpellsChar c (front ++ back)

/-- The spellings of a piece. -/
inductive Piece.Spelled : Piece → List Char → Prop where
  | plainly {c : Char} {spelling : List Char} (h : SpellsPlainly c spelling) :
      Spelled (.scalar c) spelling
  | unit {unit : ℕ} {spelling : List Char} (h : SpellsUnit unit spelling) :
      Spelled (.ofUnit unit) spelling

/-- What stands between quotation marks spells a text, or it is made of escapes and characters and
spells none. -/
def Spells (content : Option String) (body : List Char) : Prop :=
  match content with
  | some text => InTurn SpellsChar text.toList body
  | none =>
      (∃ pieces, InTurn Piece.Spelled pieces body) ∧
        ∀ text : String, ¬InTurn SpellsChar text.toList body

/-! ## Reading pieces -/

theorem ofLetter?_eq_some_iff {c letter : Char} :
    ofLetter? letter = some c ↔ (c, letter) ∈ letters := by
  have htable : ∀ entry ∈ letters, ofLetter? entry.2 = some entry.1 := by decide
  constructor
  · intro h
    rw [ofLetter?] at h
    split_ifs at h with hslash
    · rw [hslash, ← Option.some.inj h]
      exact List.mem_cons_self
    · obtain ⟨entry, hentry, rfl⟩ := Option.map_eq_some_iff.mp h
      have hletter : entry.2 = letter := by simpa using List.find?_some hentry
      rw [← hletter]
      exact List.mem_cons_of_mem _ (List.mem_of_find?_eq_some hentry)
  · exact htable (c, letter)

theorem SpellsUnit.exists_digits {unit : ℕ} {spelling : List Char} (h : SpellsUnit unit spelling) :
    ∃ a b c d, spelling = ['\\', 'u', a, b, c, d] ∧
      Text.digitsValue? 16 0 [a, b, c, d] = some unit := by
  obtain ⟨digits, rfl, hlength, hdenote⟩ := h
  obtain ⟨a, b, c, d, rfl⟩ := List.length_eq_four.mp hlength
  exact ⟨a, b, c, d, rfl, (Text.digitsValue?_zero_eq_some_iff (by decide)).mpr hdenote⟩

theorem spellsUnit_of_digitsValue? {a b c d : Char} {unit : ℕ}
    (h : Text.digitsValue? 16 0 [a, b, c, d] = some unit) :
    SpellsUnit unit ['\\', 'u', a, b, c, d] :=
  ⟨_, rfl, rfl, (Text.digitsValue?_zero_eq_some_iff (by decide)).mp h⟩

/-- Every spelling of a piece is read as this piece. -/
theorem pieces?_of_spelled {piece : Piece} {spelling : List Char} (h : piece.Spelled spelling)
    (read : List Piece) (rest : List Char) :
    pieces? read (spelling ++ rest) = pieces? (piece :: read) rest := by
  cases h with
  | plainly h =>
      rename_i c
      cases h with
      | itself hcontrol hquote hbackslash =>
          rw [List.singleton_append, pieces?, if_neg (by simp [hbackslash, hcontrol])]
          · exact hquote
          · exact fun _ _ _ _ _ heq => absurd heq hbackslash
          · exact fun _ _ heq => absurd heq hbackslash
      | letter h =>
          rename_i letter
          have hu : letter ≠ 'u' := by
            have htable : ∀ entry ∈ letters, entry.2 ≠ 'u' := by decide
            exact htable _ h
          rw [List.cons_append, List.singleton_append, pieces?, ofLetter?_eq_some_iff.mpr h]
          exact fun _ _ _ _ _ heq => absurd heq hu
  | unit h =>
      obtain ⟨a, b, c, d, rfl, hvalue⟩ := h.exists_digits
      rw [List.cons_append, List.cons_append, List.cons_append, List.cons_append, List.cons_append,
        List.singleton_append, pieces?, hvalue]

theorem pieces?_of_inTurn {pieces : List Piece} {body : List Char}
    (h : InTurn Piece.Spelled pieces body) (read : List Piece) (rest : List Char) :
    pieces? read (body ++ '"' :: rest) = some (read.reverse ++ pieces, rest) := by
  induction h generalizing read with
  | nil => simp [pieces?]
  | cons head tail ih =>
      rw [List.append_assoc, pieces?_of_spelled head, ih]
      simp

/-- What is read as pieces spells them. -/
theorem exists_inTurn_of_pieces? {read found : List Piece} {text rest : List Char}
    (h : pieces? read text = some (found, rest)) :
    ∃ pieces body, found = read.reverse ++ pieces ∧ InTurn Piece.Spelled pieces body ∧
      text = body ++ '"' :: rest := by
  have hcons {read : List Piece} {piece : Piece} {spelling text : List Char}
      (hspelled : piece.Spelled spelling)
      (hrest : ∃ pieces body, found = (piece :: read).reverse ++ pieces ∧
        InTurn Piece.Spelled pieces body ∧ text = body ++ '"' :: rest) :
      ∃ pieces body, found = read.reverse ++ pieces ∧ InTurn Piece.Spelled pieces body ∧
        spelling ++ text = body ++ '"' :: rest := by
    obtain ⟨pieces, body, rfl, hbody, rfl⟩ := hrest
    exact ⟨piece :: pieces, spelling ++ body, by simp, .cons hspelled hbody, by simp⟩
  fun_induction pieces? read text with
  | case1 => cases h
  | case2 =>
      cases h
      exact ⟨[], [], by simp, .nil, rfl⟩
  | case3 => cases h
  | case4 read a b c d text unit hvalue ih =>
      exact hcons (.unit (spellsUnit_of_digitsValue? hvalue)) (ih h)
  | case5 => cases h
  | case6 read letter text _ c hletter ih =>
      exact hcons (.plainly (.letter (ofLetter?_eq_some_iff.mp hletter))) (ih h)
  | case7 => cases h
  | case8 read c text hquote _ _ hplain ih =>
      obtain ⟨hcontrol, hbackslash⟩ := not_or.mp hplain
      exact hcons (.plainly (.itself (Nat.le_of_not_lt hcontrol) hquote hbackslash)) (ih h)

theorem pieces?_eq_some_iff {pieces : List Piece} {text rest : List Char} :
    pieces? [] text = some (pieces, rest) ↔
      ∃ body, InTurn Piece.Spelled pieces body ∧ text = body ++ '"' :: rest := by
  constructor
  · intro h
    obtain ⟨pieces, body, rfl, hbody, rfl⟩ := exists_inTurn_of_pieces? h
    exact ⟨body, hbody, rfl⟩
  · rintro ⟨body, hbody, rfl⟩
    exact pieces?_of_inTurn hbody [] rest

/-- No two lists of pieces are spelled alike. -/
theorem inTurn_unique {pieces others : List Piece} {body : List Char}
    (h : InTurn Piece.Spelled pieces body) (hothers : InTurn Piece.Spelled others body) :
    pieces = others := by
  have hread := pieces?_of_inTurn h [] []
  rw [pieces?_of_inTurn hothers [] []] at hread
  exact (congrArg Prod.fst (Option.some.inj hread)).symm

/-! ## Putting pieces together -/

theorem toNat_ofNat {value : ℕ} (h : value.isValidChar) : (Char.ofNat value).toNat = value := by
  rw [Char.ofNat, dif_pos h]
  rfl

theorem SpellsUnit.lt {unit : ℕ} {spelling : List Char} (h : SpellsUnit unit spelling) :
    unit < 0x10000 := by
  obtain ⟨digits, -, hlength, hdenote⟩ := h
  simpa [hlength] using hdenote.lt

theorem ofUnit_toNat (c : Char) : Piece.ofUnit c.toNat = .scalar c := by
  have hvalid : c.toNat < 0xD800 ∨ 0xDFFF < c.toNat ∧ c.toNat < 0x110000 := c.valid
  rw [Piece.ofUnit, if_neg (by omega), Char.ofNat_toNat]

theorem ofUnit_of_surrogate {unit : ℕ} (h : 0xD800 ≤ unit ∧ unit < 0xE000) :
    Piece.ofUnit unit = .surrogate unit :=
  if_pos ⟨h.1, Nat.le_of_lt_succ h.2⟩

theorem spelled_scalar_iff {c : Char} {spelling : List Char} :
    (Piece.scalar c).Spelled spelling ↔ SpellsPlainly c spelling ∨ SpellsUnit c.toNat spelling := by
  constructor
  · intro h
    generalize hpiece : Piece.scalar c = piece at h
    cases h with
    | plainly h =>
        cases hpiece
        exact .inl h
    | unit h =>
        rename_i unit
        rw [Piece.ofUnit] at hpiece
        split_ifs at hpiece with hsurrogate
        have hvalid : unit.isValidChar := by
          have hlt := h.lt
          rw [Nat.isValidChar]
          omega
        rw [Piece.scalar.inj hpiece, toNat_ofNat hvalid]
        exact .inr h
  · rintro (h | h)
    · exact .plainly h
    · rw [← ofUnit_toNat]
      exact .unit h

theorem spelled_surrogate_iff {unit : ℕ} {spelling : List Char} :
    (Piece.surrogate unit).Spelled spelling ↔
      SpellsUnit unit spelling ∧ 0xD800 ≤ unit ∧ unit < 0xE000 := by
  constructor
  · intro h
    generalize hpiece : Piece.surrogate unit = piece at h
    cases h with
    | plainly h => cases hpiece
    | unit h =>
        rw [Piece.ofUnit] at hpiece
        split_ifs at hpiece with hsurrogate
        cases hpiece
        exact ⟨h, hsurrogate.1, Nat.lt_succ_of_le hsurrogate.2⟩
  · rintro ⟨h, hsurrogate⟩
    rw [← ofUnit_of_surrogate hsurrogate]
    exact .unit h

/-- The pieces of a character are put together to it. -/
theorem SpellsChar.exists_pieces {c : Char} {spelling : List Char} (h : SpellsChar c spelling) :
    ∃ pieces, InTurn Piece.Spelled pieces spelling ∧
      ∀ read others, assemble read (pieces ++ others) = assemble (read.push c) others := by
  cases h with
  | plainly h => exact ⟨_, .single (spelled_scalar_iff.mpr (.inl h)), fun _ _ => rfl⟩
  | unit h => exact ⟨_, .single (spelled_scalar_iff.mpr (.inr h)), fun _ _ => rfl⟩
  | @pair leading trailing front back hleading htrailing hvalue hfront hback =>
      have hfirst : (Piece.surrogate leading).Spelled front :=
        spelled_surrogate_iff.mpr ⟨hfront, by omega⟩
      have hsecond : (Piece.surrogate trailing).Spelled back :=
        spelled_surrogate_iff.mpr ⟨hback, by omega⟩
      refine ⟨_, .cons hfirst (.single hsecond), fun read others => ?_⟩
      rw [List.cons_append, List.singleton_append, assemble, if_pos ⟨hleading.2, htrailing.1⟩,
        ← hvalue, Char.ofNat_toNat]

theorem exists_pieces_of_inTurn {chars body : List Char} (h : InTurn SpellsChar chars body) :
    ∃ pieces, InTurn Piece.Spelled pieces body ∧
      ∀ read, assemble read pieces = some (read ++ String.ofList chars) := by
  induction h with
  | nil => exact ⟨[], .nil, fun read => by simp [assemble]⟩
  | cons head tail ih =>
      obtain ⟨front, hfront, hassemble⟩ := head.exists_pieces
      obtain ⟨back, hback, hrest⟩ := ih
      refine ⟨front ++ back, hfront.append hback, fun read => ?_⟩
      rw [hassemble, hrest, Option.some.injEq]
      apply String.toList_injective
      simp

/-- A text that pieces are put together to is spelled where they are. -/
theorem inTurn_of_assemble {read text : String} {pieces : List Piece} {body : List Char}
    (h : assemble read pieces = some text) (hbody : InTurn Piece.Spelled pieces body) :
    ∃ chars, text = read ++ String.ofList chars ∧ InTurn SpellsChar chars body := by
  have hcons {read : String} {c : Char} {spelling body : List Char}
      (hspelled : SpellsChar c spelling)
      (hrest : ∃ chars, text = read.push c ++ String.ofList chars ∧ InTurn SpellsChar chars body) :
      ∃ chars, text = read ++ String.ofList chars ∧ InTurn SpellsChar chars (spelling ++ body) := by
    obtain ⟨chars, rfl, hchars⟩ := hrest
    refine ⟨c :: chars, ?_, .cons hspelled hchars⟩
    apply String.toList_injective
    simp
  fun_induction assemble read pieces generalizing body with
  | case1 read =>
      cases hbody
      cases h
      exact ⟨[], by simp, .nil⟩
  | case2 read c pieces ih =>
      cases hbody with
      | cons head tail =>
          have hspelled := (spelled_scalar_iff.mp head).elim SpellsChar.plainly SpellsChar.unit
          exact hcons hspelled (ih h tail)
  | case3 read leading trailing pieces hhalves ih =>
      cases hbody with
      | cons first hrest =>
          cases hrest with
          | cons second tail =>
              obtain ⟨hfront, hleading⟩ := spelled_surrogate_iff.mp first
              obtain ⟨hback, htrailing⟩ := spelled_surrogate_iff.mp second
              have hvalid :
                  (0x10000 + (leading - 0xD800) * 0x400 + (trailing - 0xDC00)).isValidChar := by
                rw [Nat.isValidChar]
                omega
              rw [← List.append_assoc]
              exact hcons (.pair ⟨hleading.1, hhalves.1⟩ ⟨hhalves.2, htrailing.2⟩
                (toNat_ofNat hvalid) hfront hback) (ih h tail)
  | case4 => cases h
  | case5 => cases h

/-- What is read between quotation marks is what is spelled there. -/
theorem spells_iff {content : Option String} {body : List Char} :
    Spells content body ↔
      ∃ pieces, InTurn Piece.Spelled pieces body ∧ assemble "" pieces = content := by
  have htext (text : String) : InTurn SpellsChar text.toList body ↔
      ∃ pieces, InTurn Piece.Spelled pieces body ∧ assemble "" pieces = some text := by
    constructor
    · intro h
      obtain ⟨pieces, hpieces, hassemble⟩ := exists_pieces_of_inTurn h
      refine ⟨pieces, hpieces, ?_⟩
      rw [hassemble, String.empty_append, String.ofList_toList]
    · rintro ⟨pieces, hpieces, hassemble⟩
      obtain ⟨chars, rfl, hchars⟩ := inTurn_of_assemble hassemble hpieces
      rwa [String.empty_append, String.toList_ofList]
  cases content with
  | some text => exact htext text
  | none =>
      constructor
      · rintro ⟨⟨pieces, hpieces⟩, hnone⟩
        refine ⟨pieces, hpieces, ?_⟩
        rw [Option.eq_none_iff_forall_ne_some]
        intro text hassemble
        exact hnone text ((htext text).mpr ⟨pieces, hpieces, hassemble⟩)
      · rintro ⟨pieces, hpieces, hassemble⟩
        refine ⟨⟨pieces, hpieces⟩, fun text hspelled => ?_⟩
        obtain ⟨others, hothers, hsome⟩ := (htext text).mp hspelled
        rw [inTurn_unique hothers hpieces, hassemble] at hsome
        cases hsome

end Literal
end Json
end TickGate
