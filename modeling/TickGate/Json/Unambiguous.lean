import TickGate.Json.Parser

/-!
# Tokens determine values

Main statement: `ofTokens?_eq_some_iff`, a list of tokens is read as a value exactly if it is
the list of that value's tokens.  From right to left, reading the tokens of a value from any
place where a value may begin ends that value there.  From left to right, every step of the
reader adds one token to those that it has read.
-/

namespace TickGate
namespace Json

/-- The progress after some more tokens, where the text may go on with them. -/
def run? (progress : Progress) (tokens : List Token) : Option Progress :=
  tokens.foldlM Progress.next? progress

@[simp] theorem run?_nil (progress : Progress) : run? progress [] = some progress := rfl

theorem run?_cons (progress : Progress) (token : Token) (tokens : List Token) :
    run? progress (token :: tokens) = (progress.next? token).bind fun after => run? after tokens := by
  simp [run?]

/-! ## Reading the tokens of a value -/

theorem run?_firstItem (json : Json) (outer : List Frame) (rest : List Token) :
    run? (.firstItem outer) (json.tokens ++ rest) =
      run? (.value (.array [] :: outer)) (json.tokens ++ rest) := by
  match json with
  | .atom a => rfl
  | .array [] => rfl
  | .array (_ :: _) =>
    simp only [tokens, List.cons_append, run?_cons]
    rfl
  | .object [] => rfl
  | .object ((_, _) :: _) =>
    simp only [tokens, List.cons_append, run?_cons]
    rfl

mutual

/-- Reading the tokens of a value ends that value. -/
theorem run?_tokens (json : Json) (outer : List Frame) (rest : List Token) :
    run? (.value outer) (json.tokens ++ rest) = run? (.ended json outer) rest := by
  match json with
  | .atom a => rfl
  | .array [] => rfl
  | .array (item :: items) =>
    simp only [tokens, List.cons_append, List.append_assoc, run?_cons, Progress.next?,
      Progress.start?, Option.bind_some]
    rw [run?_firstItem, run?_tokens item]
    exact run?_itemTokens items item [] outer rest
  | .object [] => rfl
  | .object ((key, value) :: members) =>
    simp only [tokens, List.cons_append, List.append_assoc, run?_cons, Progress.next?,
      Progress.start?, Option.bind_some]
    rw [run?_tokens value]
    exact run?_memberTokens members key value [] outer rest

theorem run?_itemTokens (items : List Json) (last : Json) (done : List Json)
    (outer : List Frame) (rest : List Token) :
    run? (.ended last (.array done :: outer)) (itemTokens items ++ .closeArray :: rest) =
      run? (.ended (.array (done.reverse ++ last :: items)) outer) rest := by
  match items with
  | [] => simp [itemTokens, run?_cons, Progress.next?]
  | item :: items =>
    simp only [itemTokens, List.cons_append, List.append_assoc, run?_cons, Progress.next?,
      Option.bind_some]
    rw [run?_tokens item, run?_itemTokens items]
    simp

theorem run?_memberTokens (members : List (Option String × Json)) (key : Option String)
    (last : Json) (done : List (Option String × Json)) (outer : List Frame) (rest : List Token) :
    run? (.ended last (.object done key :: outer)) (memberTokens members ++ .closeObject :: rest) =
      run? (.ended (.object (done.reverse ++ (key, last) :: members)) outer) rest := by
  match members with
  | [] => simp [memberTokens, run?_cons, Progress.next?]
  | (next, value) :: members =>
    simp only [memberTokens, List.cons_append, List.append_assoc, run?_cons, Progress.next?,
      Option.bind_some]
    rw [run?_tokens value, run?_memberTokens members]
    simp

end

theorem ofTokens?_tokens (json : Json) : ofTokens? json.tokens = some json := by
  have h := run?_tokens json [] []
  rw [List.append_nil] at h
  change (run? (.value []) json.tokens).bind Progress.result? = some json
  rw [h]
  rfl

theorem next?_ended_atom (json : Json) (outer : List Frame) (a : Atom) :
    (Progress.ended json outer).next? (.atom a) = none := by
  match outer with
  | [] | .array _ :: _ | .object _ _ :: _ => rfl

/-- No two tokens next to each other are both values without parts. -/
theorem next?_ne_atom {before between after : Progress} {first : Atom} {second : Token}
    (hfirst : before.next? (.atom first) = some between)
    (hsecond : between.next? second = some after) (a : Atom) : second ≠ .atom a := by
  rintro rfl
  match before, first with
  | .value outer, first =>
    cases hfirst
    rw [next?_ended_atom] at hsecond
    cases hsecond
  | .firstItem outer, first =>
    cases hfirst
    rw [next?_ended_atom] at hsecond
    cases hsecond
  | .firstKey outer, .text k =>
    cases hfirst
    cases hsecond
  | .key members outer, .text k =>
    cases hfirst
    cases hsecond
  | .firstKey outer, .null | .firstKey outer, .bool _ | .firstKey outer, .natural _
  | .firstKey outer, .number => cases hfirst
  | .key members outer, .null | .key members outer, .bool _ | .key members outer, .natural _
  | .key members outer, .number => cases hfirst
  | .colon members k outer, first => cases hfirst
  | .ended v outer, first =>
    rw [next?_ended_atom] at hfirst
    cases hfirst

/-! ## The tokens read so far -/

/-- The tokens of items that are followed by another item. -/
def leadingItems (items : List Json) : List Token :=
  items.flatMap fun item => item.tokens ++ [.comma]

/-- The tokens of members that are followed by another member. -/
def leadingMembers (members : List (Option String × Json)) : List Token :=
  members.flatMap fun member => .atom (.text member.1) :: .colon :: (member.2.tokens ++ [.comma])

theorem tokens_itemTokens (item last : Json) (items : List Json) :
    item.tokens ++ itemTokens (items ++ [last]) = leadingItems (item :: items) ++ last.tokens := by
  induction items generalizing item with
  | nil => simp [itemTokens, leadingItems]
  | cons next items ih =>
    have h := ih next
    simp only [leadingItems, List.flatMap_cons, List.append_assoc] at h ⊢
    simp [itemTokens, h]

theorem tokens_memberTokens (member last : Option String × Json)
    (members : List (Option String × Json)) :
    .atom (.text member.1) :: .colon :: (member.2.tokens ++ memberTokens (members ++ [last])) =
      leadingMembers (member :: members) ++
        .atom (.text last.1) :: .colon :: last.2.tokens := by
  induction members generalizing member with
  | nil => simp [memberTokens, leadingMembers]
  | cons next members ih =>
    have h := ih next
    simp only [leadingMembers, List.flatMap_cons, List.append_assoc] at h ⊢
    simp [memberTokens, h]

theorem tokens_array_concat (items : List Json) (last : Json) :
    (Json.array (items ++ [last])).tokens =
      .openArray :: (leadingItems items ++ (last.tokens ++ [.closeArray])) := by
  cases items with
  | nil => simp [tokens, leadingItems, itemTokens]
  | cons item items =>
    rw [List.cons_append, tokens, ← List.append_assoc, tokens_itemTokens, List.append_assoc]

theorem tokens_object_concat (members : List (Option String × Json))
    (last : Option String × Json) :
    (Json.object (members ++ [last])).tokens =
      .openObject :: (leadingMembers members ++
        .atom (.text last.1) :: .colon :: (last.2.tokens ++ [.closeObject])) := by
  cases members with
  | nil => simp [tokens, leadingMembers, memberTokens]
  | cons member members =>
    have h := congrArg (· ++ [Token.closeObject]) (tokens_memberTokens member last members)
    simpa [tokens] using h

/-- The tokens read of a frame. -/
def Frame.read : Frame → List Token
  | .array items => .openArray :: leadingItems items.reverse
  | .object members key =>
    .openObject :: (leadingMembers members.reverse ++ [.atom (.text key), .colon])

/-- The tokens read before the innermost part. -/
def readBefore (frames : List Frame) : List Token := frames.reverse.flatMap Frame.read

theorem readBefore_cons (frame : Frame) (outer : List Frame) :
    readBefore (frame :: outer) = readBefore outer ++ frame.read := by
  simp [readBefore]

/-- The tokens read so far. -/
def Progress.read : Progress → List Token
  | .value outer => readBefore outer
  | .firstItem outer => readBefore outer ++ [.openArray]
  | .firstKey outer => readBefore outer ++ [.openObject]
  | .key members outer => readBefore outer ++ .openObject :: leadingMembers members.reverse
  | .colon members k outer =>
    readBefore outer ++ .openObject :: (leadingMembers members.reverse ++ [.atom (.text k)])
  | .ended v outer => readBefore outer ++ v.tokens

theorem read_start? {outer : List Frame} {token : Token} {after : Progress}
    (h : Progress.start? outer token = some after) :
    after.read = readBefore outer ++ [token] := by
  unfold Progress.start? at h
  split at h <;> cases h <;> rfl

/-- A step adds its token to those read. -/
theorem read_next? {before after : Progress} {token : Token}
    (h : before.next? token = some after) : after.read = before.read ++ [token] := by
  unfold Progress.next? at h
  split at h
  case h_1 => exact read_start? h
  case h_3 =>
    rw [read_start? h, readBefore_cons]
    simp [Frame.read, Progress.read, leadingItems]
  case h_12 => cases h
  all_goals
    cases h
    simp [Progress.read, readBefore_cons, Frame.read, tokens, leadingItems, leadingMembers,
      tokens_array_concat, tokens_object_concat]

theorem read_run? {before after : Progress} {tokens : List Token}
    (h : run? before tokens = some after) : after.read = before.read ++ tokens := by
  induction tokens generalizing before with
  | nil =>
    cases h
    simp
  | cons token tokens ih =>
    rw [run?_cons, Option.bind_eq_some_iff] at h
    obtain ⟨between, hnext, hrun⟩ := h
    rw [ih hrun, read_next? hnext, List.append_assoc, List.cons_append, List.nil_append]

/-- A list of tokens is read as a value exactly if it is the list of that value's tokens. -/
theorem ofTokens?_eq_some_iff {tokens : List Token} {json : Json} :
    ofTokens? tokens = some json ↔ tokens = json.tokens := by
  constructor
  · intro h
    obtain ⟨progress, hrun, hresult⟩ := Option.bind_eq_some_iff.1 h
    have hread := read_run? hrun
    unfold Progress.result? at hresult
    split at hresult
    · cases hresult
      simpa [Progress.read, readBefore] using hread.symm
    · cases hresult
  · rintro rfl
    exact ofTokens?_tokens json

end Json
end TickGate
