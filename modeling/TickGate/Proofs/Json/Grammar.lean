import TickGate.Json.Unambiguous
import TickGate.Proofs.Json.Literals
import TickGate.Proofs.Json.Numbers

/-!
# The grammar of texts

A text spells a value if it is made of spellings of the value's tokens, in their order, with spaces
at will before, between and after them.  `parse?_eq_some_iff` says that a text is read as a value
exactly if it spells that value.
-/

namespace TickGate
namespace Json

/-! ## Tokens -/

namespace Atom

/-- The spellings of a value without parts. -/
def Spelled : Atom → List Char → Prop
  | null, spelling => spelling = ['n', 'u', 'l', 'l']
  | bool true, spelling => spelling = ['t', 'r', 'u', 'e']
  | bool false, spelling => spelling = ['f', 'a', 'l', 's', 'e']
  | natural value, spelling => IsNumber (.natural value) spelling
  | number, spelling => IsNumber .number spelling
  | text content, spelling =>
      ∃ body, Literal.Spells content body ∧ spelling = '"' :: (body ++ ['"'])

theorem IsNumber.spelled {a : Atom} {spelling : List Char} (h : IsNumber a spelling) :
    a.Spelled spelling := by
  obtain h | ⟨rfl, hsigned⟩ := h
  · cases h with
    | natural htext hvalue => exact .inl (.natural htext hvalue)
    | number hinteger hfraction hexponent hne =>
        exact .inl (.number hinteger hfraction hexponent hne)
  · exact .inr ⟨rfl, hsigned⟩

end Atom

namespace Token

/-- The spellings of a token. -/
def Spelled : Token → List Char → Prop
  | openArray, spelling => spelling = ['[']
  | closeArray, spelling => spelling = [']']
  | openObject, spelling => spelling = ['{']
  | closeObject, spelling => spelling = ['}']
  | comma, spelling => spelling = [',']
  | colon, spelling => spelling = [':']
  | atom a, spelling => a.Spelled spelling

theorem read?_of_isDigit {c : Char} {rest : List Char} (h : c.isDigit = true ∨ c = '-') :
    read? (c :: rest) = (Atom.number? (c :: rest)).map fun (value, rest) => (atom value, rest) := by
  obtain h | rfl := h
  · rw [read?.eq_def]
    split
    case h_11 => rfl
    all_goals
      rename_i heq
      cases heq
      cases h
  · rfl

/-- Every spelling of a token is read as this token.  What follows a number must not lengthen
it. -/
theorem read?_append {token : Token} {spelling rest : List Char} (h : token.Spelled spelling)
    (hrest : (∃ a, token = atom a) → ∀ c ∈ rest.head?, Atom.continuesNumber c = false) :
    read? (spelling ++ rest) = some (token, rest) := by
  have hnumber {a : Atom} (ha : token = atom a) (h : a.IsNumber spelling) :
      read? (spelling ++ rest) = some (atom a, rest) := by
    have hread := Atom.number?_append h (hrest ⟨a, ha⟩)
    obtain ⟨c, digits, rfl, hc⟩ := h.exists_cons
    rw [List.cons_append] at hread ⊢
    rw [read?_of_isDigit hc, hread]
    rfl
  match token with
  | openArray | closeArray | openObject | closeObject | comma | colon
  | atom .null | atom (.bool true) | atom (.bool false) =>
      cases h
      rfl
  | atom (.natural value) => exact hnumber rfl h
  | atom .number => exact hnumber rfl h
  | atom (.text content) =>
      obtain ⟨body, hbody, rfl⟩ := h
      obtain ⟨pieces, hpieces, rfl⟩ := Literal.spells_iff.mp hbody
      rw [List.cons_append, List.append_assoc, List.singleton_append, read?,
        Literal.pieces?_of_inTurn hpieces]
      rfl

/-- What is read as a token spells it. -/
theorem read?_eq_some {token : Token} {source rest : List Char}
    (h : read? source = some (token, rest)) :
    ∃ spelling, token.Spelled spelling ∧ source = spelling ++ rest := by
  rw [read?.eq_def] at h
  split at h
  case h_10 tail =>
    obtain ⟨⟨pieces, after⟩, hread, heq⟩ := Option.map_eq_some_iff.mp h
    cases heq
    obtain ⟨body, hbody, rfl⟩ := Literal.pieces?_eq_some_iff.mp hread
    exact ⟨_, ⟨body, Literal.spells_iff.mpr ⟨pieces, hbody, rfl⟩, rfl⟩, by simp⟩
  case h_11 =>
    obtain ⟨⟨a, after⟩, hread, heq⟩ := Option.map_eq_some_iff.mp h
    cases heq
    obtain ⟨spelling, hspelling, rfl⟩ := Atom.number?_eq_some hread
    exact ⟨spelling, hspelling.spelled, rfl⟩
  all_goals
    cases h
    exact ⟨_, rfl, rfl⟩

/-- A spelling does not begin with a space. -/
theorem Spelled.exists_cons {token : Token} {spelling : List Char} (h : token.Spelled spelling) :
    ∃ c rest, spelling = c :: rest ∧ isSpace c = false := by
  have hnumber {a : Atom} (h : a.IsNumber spelling) :
      ∃ c rest, spelling = c :: rest ∧ isSpace c = false := by
    obtain ⟨c, digits, rfl, hc⟩ := h.exists_cons
    refine ⟨c, digits, rfl, ?_⟩
    rw [← Bool.not_eq_true]
    intro hspace
    simp only [isSpace, Bool.or_eq_true, beq_iff_eq] at hspace
    obtain ((rfl | rfl) | rfl) | rfl := hspace <;> simp at hc
  match token with
  | openArray | closeArray | openObject | closeObject | comma | colon
  | atom .null | atom (.bool true) | atom (.bool false) =>
      cases h
      exact ⟨_, _, rfl, rfl⟩
  | atom (.natural value) => exact hnumber h
  | atom .number => exact hnumber h
  | atom (.text content) =>
      obtain ⟨body, -, rfl⟩ := h
      exact ⟨_, _, rfl, rfl⟩

/-- A token that is no atom would not lengthen a number before it. -/
theorem Spelled.continuesNumber_head {token : Token} {spelling : List Char}
    (h : token.Spelled spelling) (hatom : ∀ a, token ≠ atom a) (rest : List Char) :
    ∀ c ∈ (spelling ++ rest).head?, Atom.continuesNumber c = false := by
  match token with
  | openArray | closeArray | openObject | closeObject | comma | colon =>
      cases h
      rintro c hc
      cases hc
      rfl
  | atom a => exact absurd rfl (hatom a)

end Token

/-! ## Texts -/

/-- Characters that may stand between tokens. -/
def IsSpaces (text : List Char) : Prop := ∀ c ∈ text, isSpace c = true

theorem isSpaces_nil : IsSpaces [] := fun _ => List.not_mem_nil.elim

/-- A text is made of spellings of tokens, with spaces before, between and after them. -/
inductive Spread : List Token → List Char → Prop where
  | nil {spaces : List Char} (hspaces : IsSpaces spaces) : Spread [] spaces
  | cons {token : Token} {tokens : List Token} {spaces spelling rest : List Char}
      (hspaces : IsSpaces spaces) (head : token.Spelled spelling) (tail : Spread tokens rest) :
      Spread (token :: tokens) (spaces ++ (spelling ++ rest))

/-- A text spells a value. -/
def Spells (json : Json) (text : String) : Prop := Spread json.tokens text.toList

variable {found tokens : List Token}

theorem lexFrom?_spaces (found : List Token) {spaces : List Char} (h : IsSpaces spaces)
    (rest : List Char) :
    lexFrom? found (spaces ++ rest) = lexFrom? found rest := by
  induction spaces with
  | nil => rfl
  | cons c spaces ih =>
      obtain ⟨hc, hspaces⟩ := List.forall_mem_cons.mp h
      rw [List.cons_append, lexFrom?, if_pos hc, ih hspaces]

theorem lexFrom?_token {c : Char} {source after : List Char} {token : Token}
    (hspace : isSpace c = false) (h : Token.read? (c :: source) = some (token, after)) :
    lexFrom? found (c :: source) = lexFrom? (token :: found) after := by
  rw [lexFrom?, if_neg (by simp [hspace])]
  split
  next hnone =>
    rw [hnone] at h
    cases h
  next token' after' hsome =>
    rw [hsome] at h
    cases h
    rfl

theorem Spread.cons_space {c : Char} {text : List Char} (hc : isSpace c = true)
    (h : Spread tokens text) : Spread tokens (c :: text) := by
  cases h with
  | nil hspaces => exact .nil (List.forall_mem_cons.mpr ⟨hc, hspaces⟩)
  | @cons token tokens spaces spelling rest hspaces head tail =>
      have hmore : IsSpaces (c :: spaces) := List.forall_mem_cons.mpr ⟨hc, hspaces⟩
      exact .cons hmore head tail

/-- A text that is split into tokens is made of their spellings. -/
theorem spread_of_lexFrom? {source : List Char} (h : lexFrom? found source = some tokens) :
    ∃ more, tokens = found.reverse ++ more ∧ Spread more source := by
  fun_induction lexFrom? found source with
  | case1 found =>
      cases h
      exact ⟨[], by simp, .nil isSpaces_nil⟩
  | case2 found c rest hspace ih =>
      obtain ⟨more, rfl, hmore⟩ := ih h
      exact ⟨more, rfl, hmore.cons_space hspace⟩
  | case3 found c rest hspace hnone => cases h
  | case4 found c rest hspace token after hread hlength ih =>
      obtain ⟨more, rfl, hmore⟩ := ih h
      obtain ⟨spelling, hspelling, hsource⟩ := Token.read?_eq_some hread
      refine ⟨token :: more, by simp, ?_⟩
      rw [hsource]
      exact .cons isSpaces_nil hspelling hmore

/-- A text that does not go on with an atom would not lengthen a number before it. -/
theorem continuesNumber_head_of_spread {text : List Char} (h : Spread tokens text)
    (hatom : ∀ a, tokens.head? ≠ some (.atom a)) :
    ∀ c ∈ text.head?, Atom.continuesNumber c = false := by
  have hspace {c : Char} (hc : isSpace c = true) : Atom.continuesNumber c = false := by
    simp only [isSpace, Bool.or_eq_true, beq_iff_eq] at hc
    obtain ((rfl | rfl) | rfl) | rfl := hc <;> rfl
  intro c hc
  cases h with
  | nil hspaces => exact hspace (hspaces c (List.mem_of_mem_head? hc))
  | @cons token tokens spaces spelling rest hspaces head tail =>
      cases spaces with
      | nil =>
          exact head.continuesNumber_head (fun a heq => hatom a (congrArg some heq)) rest c hc
      | cons first spaces =>
          cases hc
          exact hspace (hspaces c List.mem_cons_self)

/-- Spellings of tokens that a reader accepts are split into those tokens.  It accepts no two atoms
in a row, so a number is never followed by what would lengthen it. -/
theorem lexFrom?_of_spread {text : List Char} (h : Spread tokens text) {progress : Progress}
    (hrun : (run? progress tokens).isSome) (found : List Token) :
    lexFrom? found text = some (found.reverse ++ tokens) := by
  induction h generalizing progress found with
  | nil hspaces =>
      have hread := lexFrom?_spaces found hspaces []
      rw [List.append_nil] at hread
      rw [hread]
      simp [lexFrom?]
  | @cons token tokens spaces spelling rest hspaces head tail ih =>
      rw [run?_cons, Option.isSome_iff_exists] at hrun
      obtain ⟨last, hlast⟩ := hrun
      obtain ⟨after, hnext, hrest⟩ := Option.bind_eq_some_iff.mp hlast
      have hends : (∃ a, token = .atom a) →
          ∀ c ∈ rest.head?, Atom.continuesNumber c = false := by
        rintro ⟨a, rfl⟩
        apply continuesNumber_head_of_spread tail
        intro b hhead
        obtain ⟨others, rfl⟩ := List.head?_eq_some_iff.mp hhead
        rw [run?_cons] at hrest
        obtain ⟨between, hbetween, -⟩ := Option.bind_eq_some_iff.mp hrest
        exact next?_ne_atom hnext hbetween b rfl
      have hread := Token.read?_append head hends
      obtain ⟨c, spelled, rfl, hspace⟩ := head.exists_cons
      rw [List.cons_append] at hread
      rw [lexFrom?_spaces found hspaces, List.cons_append, lexFrom?_token hspace hread,
        ih (Option.isSome_of_eq_some hrest)]
      simp

theorem lex?_eq_some_tokens_iff {text : String} {json : Json} :
    lex? text = some json.tokens ↔ json.Spells text := by
  constructor
  · intro h
    obtain ⟨tokens, htokens, hspread⟩ := spread_of_lexFrom? h
    rw [List.reverse_nil, List.nil_append] at htokens
    rwa [Spells, htokens]
  · intro h
    have hrun := run?_tokens json [] []
    rw [List.append_nil, run?_nil] at hrun
    exact lexFrom?_of_spread h (Option.isSome_of_eq_some hrun) []

/-- A text is read as a value exactly if it spells the value. -/
theorem parse?_eq_some_iff {text : String} {json : Json} :
    parse? text = some json ↔ json.Spells text := by
  rw [parse?, Option.bind_eq_some_iff, ← lex?_eq_some_tokens_iff]
  constructor
  · rintro ⟨tokens, hlex, htokens⟩
    rw [hlex, ofTokens?_eq_some_iff.mp htokens]
  · intro h
    exact ⟨json.tokens, h, ofTokens?_tokens json⟩

instance (json : Json) (text : String) : Decidable (json.Spells text) :=
  decidable_of_iff _ lex?_eq_some_tokens_iff

-- Three escapes: by a letter, by a unit and by a surrogate pair.
example : (Json.text "/é😀").Spells " \"\\/\\u00e9\\uD83D\\ude00\"\n" := by
  decide +kernel

/-! ## Written values -/

theorem Literal.spellsChar_escape (c : Char) : SpellsChar c (escape c) := by
  unfold escape
  split
  next letter hlookup =>
    obtain ⟨front, back, htable, -⟩ := List.lookup_eq_some_iff.mp hlookup
    have hmem : (c, letter) ∈ shortEscapes := by simp [htable]
    exact .plainly (.letter (List.mem_cons_of_mem _ hmem))
  next hlookup =>
    split_ifs with hcontrol
    · have hlength : ∀ m : Fin 0x20, (Text.hexadecimal4 m.val).length = 4 := by decide
      exact .unit ⟨_, rfl, hlength ⟨c.toNat, hcontrol⟩,
        (Text.digitsValue?_zero_eq_some_iff (by decide)).mp (Text.digitsValue?_hexadecimal4 _)⟩
    · refine .plainly (.itself (Nat.le_of_not_lt hcontrol) ?_ ?_)
      · rintro rfl
        cases hlookup
      · rintro rfl
        cases hlookup

theorem Literal.spells_escapes (chars : List Char) :
    InTurn SpellsChar chars (chars.flatMap escape) := by
  induction chars with
  | nil => exact .nil
  | cons c chars ih => exact .cons (spellsChar_escape c) ih

theorem Token.spelled_spell (token : Token) : token.Spelled token.spell := by
  match token with
  | openArray | closeArray | openObject | closeObject | comma | colon
  | atom .null | atom (.bool true) | atom (.bool false) => rfl
  | atom (.natural n) => exact .inl (Atom.isUnsigned_decimal n)
  | atom .number => exact .inr ⟨rfl, _, _, Atom.isUnsigned_decimal 0, rfl⟩
  | atom (.text (some content)) => exact ⟨_, Literal.spells_escapes content.toList, rfl⟩
  | atom (.text none) =>
      have hunit : Literal.SpellsUnit 0xD800 ['\\', 'u', 'd', '8', '0', '0'] :=
        Literal.spellsUnit_of_digitsValue? (by decide)
      exact ⟨_, Literal.spells_iff.mpr ⟨_, .single (.unit hunit), rfl⟩, rfl⟩

theorem spread_flatMap_spell (tokens : List Token) :
    Spread tokens (tokens.flatMap Token.spell) := by
  induction tokens with
  | nil => exact .nil isSpaces_nil
  | cons token tokens ih => exact .cons isSpaces_nil token.spelled_spell ih

theorem spells_render (json : Json) : json.Spells json.render := by
  rw [Spells, render, String.toList_ofList]
  exact spread_flatMap_spell json.tokens

/-- Reading what was written gives the value back. -/
theorem parse?_render (json : Json) : parse? json.render = some json :=
  parse?_eq_some_iff.mpr (spells_render json)

end Json
end TickGate
