import Mathlib.Data.List.Induction

/-!
# Sessions

A session performs calls one after the other on a state.  `Session.final` is the state that it
reaches and `Session.log` lists each call with its answer.  Operations that are atomic steps may
be called by any number of callers: whatever the order in which their calls come to be
performed, that order is the list of calls of one session.
-/

namespace TickGate

namespace Session

variable {S C A : Type} (perform : S → C → A × S)

/-- The state after calls. -/
def final (state : S) (calls : List C) : S :=
  calls.foldl (fun state call => (perform state call).2) state

/-- The calls with their answers, the earliest first. -/
def log : S → List C → List (C × A)
  | _, [] => []
  | state, call :: calls =>
    (call, (perform state call).1) :: log (perform state call).2 calls

@[simp] theorem final_nil (state : S) : final perform state [] = state := rfl

@[simp] theorem final_cons (state : S) (call : C) (calls : List C) :
    final perform state (call :: calls) = final perform (perform state call).2 calls := rfl

theorem final_append (state : S) (front back : List C) :
    final perform state (front ++ back) = final perform (final perform state front) back :=
  List.foldl_append

@[simp] theorem final_concat (state : S) (calls : List C) (call : C) :
    final perform state (calls ++ [call]) = (perform (final perform state calls) call).2 := by
  rw [final_append]
  rfl

theorem log_append (state : S) (front back : List C) :
    log perform state (front ++ back) =
      log perform state front ++ log perform (final perform state front) back := by
  induction front generalizing state with
  | nil => rfl
  | cons call front ih => simp [log, ih]

@[simp] theorem log_concat (state : S) (calls : List C) (call : C) :
    log perform state (calls ++ [call]) =
      log perform state calls ++ [(call, (perform (final perform state calls) call).1)] :=
  log_append perform state calls [call]

theorem map_fst_log (state : S) (calls : List C) :
    (log perform state calls).map Prod.fst = calls := by
  induction calls generalizing state with
  | nil => rfl
  | cons call calls ih => rw [log, List.map_cons, ih]

/-- The state after one more of the calls. -/
theorem final_take_succ (state : S) {calls : List C} {n : ℕ} {call : C}
    (h : calls[n]? = some call) :
    final perform state (calls.take (n + 1)) =
      (perform (final perform state (calls.take n)) call).2 := by
  have htake : calls.take (n + 1) = calls.take n ++ [call] := by
    rw [List.take_add_one, h]
    rfl
  rw [htake, final_concat]

/-- An entry of the log is its call, answered in the state that the calls before it reached. -/
theorem getElem?_log (state : S) (calls : List C) (n : Nat) :
    (log perform state calls)[n]? =
      calls[n]?.map fun call =>
        (call, (perform (final perform state (calls.take n)) call).1) := by
  induction calls generalizing state n with
  | nil => simp [log]
  | cons call calls ih =>
      cases n with
      | zero => simp [log]
      | succ n => simpa [log] using ih (perform state call).2 n

/-- A log that is split at an entry belongs to calls that are split at the entry's call. -/
theorem exists_calls_of_log_eq_append_cons
    {state : S} {calls : List C} {before after : List (C × A)} {entry : C × A}
    (h : log perform state calls = before ++ entry :: after) :
    ∃ front call back,
      calls = front ++ call :: back ∧
      before = log perform state front ∧
      entry = (call, (perform (final perform state front) call).1) ∧
      after = log perform (final perform state (front ++ [call])) back := by
  induction calls generalizing state before with
  | nil => simp [log] at h
  | cons call calls ih =>
      cases before with
      | nil =>
          obtain ⟨hentry, hafter⟩ := List.cons.inj h
          exact ⟨[], call, calls, rfl, rfl, hentry.symm, hafter.symm⟩
      | cons first before =>
          obtain ⟨hfirst, hrest⟩ := List.cons.inj h
          obtain ⟨front, split, back, hcalls, hbefore, hentry, hafter⟩ := ih hrest
          refine ⟨call :: front, split, back, by rw [hcalls]; rfl, ?_, hentry, hafter⟩
          rw [hbefore, ← hfirst]
          rfl

/-- Entries that are the log of a session from one state to another. -/
structure Leads (before : S) (entries : List (C × A)) (after : S) : Prop where
  log : log perform before (entries.map Prod.fst) = entries
  final : final perform before (entries.map Prod.fst) = after

theorem leads_nil (state : S) : Leads perform state [] state := ⟨rfl, rfl⟩

theorem Leads.cons {before after : S} {call : C} {entries : List (C × A)}
    (h : Leads perform (perform before call).2 entries after) :
    Leads perform before ((call, (perform before call).1) :: entries) after where
  log := by rw [List.map_cons, Session.log, h.log]
  final := by rw [List.map_cons, final_cons, h.final]

theorem Leads.append {before middle after : S} {front back : List (C × A)}
    (hfront : Leads perform before front middle) (hback : Leads perform middle back after) :
    Leads perform before (front ++ back) after where
  log := by rw [List.map_append, log_append, hfront.log, hfront.final, hback.log]
  final := by rw [List.map_append, final_append, hfront.final, hback.final]

/-- Each entry holds what its call answers in the state that the entries before it lead to. -/
theorem Leads.answer_eq {before after : S} {front back : List (C × A)} {call : C} {answer : A}
    (h : Leads perform before (front ++ (call, answer) :: back) after) :
    (perform (Session.final perform before (front.map Prod.fst)) call).1 = answer := by
  have hlog := h.log
  rw [List.map_append, log_append] at hlog
  have hlength : (Session.log perform before (front.map Prod.fst)).length = front.length := by
    rw [← List.length_map Prod.fst, map_fst_log, List.length_map]
  obtain ⟨-, hrest⟩ := List.append_inj hlog hlength
  rw [List.map_cons, Session.log] at hrest
  exact (Prod.mk.inj (List.cons.inj hrest).1).2

section Simulation

variable {T : Type} {perform} {other : T → C → A × T} {f : S → T}

/-- States that answer a call alike, and go on to states that do, answer a session alike. -/
theorem log_eq_of_simulates
    (h : ∀ state call, other (f state) call = ((perform state call).1, f (perform state call).2))
    (state : S) (calls : List C) : log other (f state) calls = log perform state calls := by
  induction calls generalizing state with
  | nil => rfl
  | cons call calls ih => rw [log, log, h, ih]

theorem final_eq_of_simulates
    (h : ∀ state call, other (f state) call = ((perform state call).1, f (perform state call).2))
    (state : S) (calls : List C) : final other (f state) calls = f (final perform state calls) := by
  induction calls generalizing state with
  | nil => rfl
  | cons call calls ih => rw [final_cons, final_cons, h, ih]

end Simulation

end Session

/-! ## The last marked entry of a list -/

section Marks

variable {α β : Type} (mark : α → Option β)

/-- The last entry with a mark, by its mark, and the entries after it. -/
def lastMarked? : List α → Option (β × List α)
  | [] => none
  | entry :: rest => (lastMarked? rest).or ((mark entry).map fun found => (found, rest))

theorem lastMarked?_eq_none_iff {entries : List α} :
    lastMarked? mark entries = none ↔ ∀ entry ∈ entries, mark entry = none := by
  induction entries with
  | nil => simp [lastMarked?]
  | cons entry rest ih => simp [lastMarked?, ih, and_comm]

theorem lastMarked?_eq_some_iff {entries after : List α} {found : β} :
    lastMarked? mark entries = some (found, after) ↔
      ∃ before entry, entries = before ++ entry :: after ∧ mark entry = some found ∧
        ∀ later ∈ after, mark later = none := by
  induction entries with
  | nil => simp [lastMarked?]
  | cons first rest ih =>
      rw [lastMarked?, Option.or_eq_some_iff, ih, lastMarked?_eq_none_iff]
      constructor
      · rintro (⟨before, entry, rfl, hmark, hafter⟩ | ⟨hrest, hfirst⟩)
        · exact ⟨first :: before, entry, rfl, hmark, hafter⟩
        · obtain ⟨_, hmark, hpair⟩ := Option.map_eq_some_iff.1 hfirst
          obtain ⟨rfl, rfl⟩ := Prod.mk.inj hpair
          exact ⟨[], first, rfl, hmark, hrest⟩
      · rintro ⟨before, entry, hsplit, hmark, hafter⟩
        cases before with
        | nil =>
            obtain ⟨rfl, rfl⟩ := List.cons.inj hsplit
            exact .inr ⟨hafter, by rw [hmark]; rfl⟩
        | cons head before =>
            obtain ⟨rfl, rfl⟩ := List.cons.inj hsplit
            exact .inl ⟨before, entry, rfl, hmark, hafter⟩

/-- A list extended by one entry: the entry is the last marked one if it has a mark. -/
theorem lastMarked?_concat (entries : List α) (entry : α) :
    lastMarked? mark (entries ++ [entry]) =
      match mark entry with
      | some found => some (found, [])
      | none => (lastMarked? mark entries).map fun found => (found.1, found.2 ++ [entry]) := by
  induction entries with
  | nil => cases h : mark entry <;> simp [lastMarked?, h]
  | cons first rest ih =>
      rw [List.cons_append, lastMarked?, ih]
      cases h : mark entry with
      | some found => simp
      | none =>
          simp only [lastMarked?]
          cases hrest : lastMarked? mark rest with
          | some found => simp
          | none => cases hfirst : mark first <;> simp

end Marks

end TickGate
