import Mathlib.Data.List.Basic
import TickGate.Proofs.Session

/-!
# Callers that do not disturb one another

Each of some callers has its calls, in an order of its own, and an interleaving is an order in which
all of them come to be performed.  A call is independent of another if it neither changes what the
other is answered nor matters in which of the two orders they are made.  Where the calls of
different callers are independent, each caller is answered as if it were alone, and every
interleaving leads to the same state.
-/

namespace TickGate
namespace Session

variable {ι S C A : Type}

/-! ## Interleavings -/

section Interleavings

variable {α : Type} [DecidableEq ι]

/-- The entries of one caller. -/
def ofCaller (caller : ι) (entries : List (ι × α)) : List α :=
  entries.filterMap fun entry => if entry.1 = caller then some entry.2 else none

/-- An order of all calls in which those of each caller stand in the caller's own order. -/
def Interleaves (calls : ι → List C) (order : List (ι × C)) : Prop :=
  ∀ caller, ofCaller caller order = calls caller

theorem ofCaller_cons_self (caller : ι) (entry : α) (entries : List (ι × α)) :
    ofCaller caller ((caller, entry) :: entries) = entry :: ofCaller caller entries := by
  simp [ofCaller]

theorem ofCaller_cons_of_ne {caller other : ι} (h : other ≠ caller) (entry : α)
    (entries : List (ι × α)) :
    ofCaller caller ((other, entry) :: entries) = ofCaller caller entries := by
  simp [ofCaller, h]

theorem ofCaller_append (caller : ι) (front back : List (ι × α)) :
    ofCaller caller (front ++ back) = ofCaller caller front ++ ofCaller caller back :=
  List.filterMap_append

theorem mem_ofCaller {caller : ι} {entry : α} {entries : List (ι × α)} :
    entry ∈ ofCaller caller entries ↔ (caller, entry) ∈ entries := by
  simp [ofCaller]

/-- The first entry of a caller, with the entries of others before it. -/
theorem exists_of_ofCaller_eq_cons {caller : ι} {entry : α} {rest : List α}
    {entries : List (ι × α)} (h : ofCaller caller entries = entry :: rest) :
    ∃ front back, entries = front ++ (caller, entry) :: back ∧
      ofCaller caller front = [] ∧ ofCaller caller back = rest := by
  obtain ⟨front, ⟨other, found⟩, back, rfl, hfront, hfound, hback⟩ :=
    List.filterMap_eq_cons_iff.1 h
  obtain ⟨hcaller, hentry⟩ := Option.ite_none_right_eq_some.1 hfound
  obtain rfl : other = caller := hcaller
  obtain rfl : found = entry := Option.some.inj hentry
  exact ⟨front, back, rfl, List.filterMap_eq_nil_iff.2 hfront, hback⟩

theorem ofCaller_cons_inj {caller other : ι} {entry : α} {left right : List (ι × α)}
    (h : ofCaller caller ((other, entry) :: left) = ofCaller caller ((other, entry) :: right)) :
    ofCaller caller left = ofCaller caller right := by
  by_cases hother : other = caller
  · subst hother
    rw [ofCaller_cons_self, ofCaller_cons_self] at h
    exact (List.cons.inj h).2
  · rwa [ofCaller_cons_of_ne hother, ofCaller_cons_of_ne hother] at h

/-- The first entry of a caller may as well come before those of the others. -/
theorem ofCaller_move {caller : ι} {front : List (ι × α)} (h : ofCaller caller front = [])
    (entry : α) (back : List (ι × α)) (other : ι) :
    ofCaller other (front ++ (caller, entry) :: back) =
      ofCaller other ((caller, entry) :: (front ++ back)) := by
  by_cases hother : caller = other
  · subst hother
    rw [ofCaller_append, h, ofCaller_cons_self, ofCaller_cons_self, ofCaller_append, h]
    rfl
  · rw [ofCaller_append, ofCaller_cons_of_ne hother, ofCaller_cons_of_ne hother, ofCaller_append]

theorem Interleaves.mem_iff {calls : ι → List α} {left right : List (ι × α)}
    (hleft : Interleaves calls left) (hright : Interleaves calls right) {entry : ι × α} :
    entry ∈ left ↔ entry ∈ right := by
  obtain ⟨caller, call⟩ := entry
  rw [← mem_ofCaller, ← mem_ofCaller, hleft, hright]

end Interleavings

/-! ## Independent calls -/

variable (perform : S → C → A × S)

/-- The first call does not change the answer to the second, nor does their order matter to the
state. -/
structure Independent (first second : C) : Prop where
  answer (state : S) : (perform (perform state first).2 second).1 = (perform state second).1
  final (state : S) :
    (perform (perform state first).2 second).2 = (perform (perform state second).2 first).2

/-- Whatever calls of different callers an order has, the first is independent of the second. -/
def IndependentCallers (order : List (ι × C)) : Prop :=
  ∀ first ∈ order, ∀ second ∈ order, first.1 ≠ second.1 →
    Independent perform first.2 second.2

variable {perform}

theorem IndependentCallers.of_cons {entry : ι × C} {order : List (ι × C)}
    (h : IndependentCallers perform (entry :: order)) : IndependentCallers perform order :=
  fun first hfirst second hsecond =>
    h first (List.mem_cons_of_mem _ hfirst) second (List.mem_cons_of_mem _ hsecond)

theorem log_of_independent {first : C} {calls : List C}
    (h : ∀ call ∈ calls, Independent perform first call) (state : S) :
    log perform (perform state first).2 calls = log perform state calls := by
  induction calls generalizing state with
  | nil => rfl
  | cons call calls ih =>
      obtain ⟨hcall, hcalls⟩ := List.forall_mem_cons.1 h
      rw [log, log, hcall.answer, hcall.final, ih hcalls]

theorem final_of_independent {first : C} {calls : List C}
    (h : ∀ call ∈ calls, Independent perform first call) (state : S) :
    final perform (perform state first).2 calls =
      (perform (final perform state calls) first).2 := by
  induction calls generalizing state with
  | nil => rfl
  | cons call calls ih =>
      obtain ⟨hcall, hcalls⟩ := List.forall_mem_cons.1 h
      rw [final_cons, final_cons, hcall.final, ih hcalls]

variable (perform) in
/-- The calls with their callers and their answers, when they are performed in an order. -/
def sharedLog (state : S) (order : List (ι × C)) : List (ι × C × A) :=
  (order.map Prod.fst).zip (log perform state (order.map Prod.snd))

variable (perform) in
theorem sharedLog_cons (state : S) (caller : ι) (call : C) (order : List (ι × C)) :
    sharedLog perform state ((caller, call) :: order) =
      (caller, call, (perform state call).1) ::
        sharedLog perform (perform state call).2 order := rfl

variable [DecidableEq ι]

/-- Among independent callers, each is answered as if it were alone. -/
theorem ofCaller_sharedLog {order : List (ι × C)} (h : IndependentCallers perform order)
    (state : S) (caller : ι) :
    ofCaller caller (sharedLog perform state order) =
      log perform state (ofCaller caller order) := by
  induction order generalizing state with
  | nil => rfl
  | cons entry order ih =>
      obtain ⟨other, call⟩ := entry
      have hrest := ih h.of_cons (perform state call).2
      rw [sharedLog_cons]
      by_cases hother : other = caller
      · subst hother
        rw [ofCaller_cons_self, ofCaller_cons_self, log, hrest]
      · rw [ofCaller_cons_of_ne hother, ofCaller_cons_of_ne hother, hrest]
        apply log_of_independent
        intro own hown
        exact h (other, call) List.mem_cons_self (caller, own)
          (List.mem_cons_of_mem _ (mem_ofCaller.1 hown)) hother

/-- All interleavings of the calls of independent callers lead to the same state. -/
theorem final_eq_of_interleaves {calls : ι → List C} {left right : List (ι × C)}
    (h : IndependentCallers perform left) (hleft : Interleaves calls left)
    (hright : Interleaves calls right) (state : S) :
    final perform state (left.map Prod.snd) = final perform state (right.map Prod.snd) := by
  induction left generalizing calls right state with
  | nil =>
      have hnil : right = [] := by
        rw [List.eq_nil_iff_forall_not_mem]
        intro entry hmem
        exact List.not_mem_nil ((hleft.mem_iff hright).2 hmem)
      rw [hnil]
  | cons entry left ih =>
      obtain ⟨caller, call⟩ := entry
      have hfirst : ofCaller caller right = call :: ofCaller caller left := by
        rw [hright, ← hleft, ofCaller_cons_self]
      obtain ⟨front, back, rfl, hfront, -⟩ := exists_of_ofCaller_eq_cons hfirst
      -- The call comes first on the left.  On the right only other callers are before it.
      have hrest : Interleaves (fun other => ofCaller other left) (front ++ back) := by
        intro other
        have hsame : ofCaller other ((caller, call) :: (front ++ back)) =
            ofCaller other ((caller, call) :: left) := by
          rw [← ofCaller_move hfront, hright, hleft]
        exact ofCaller_cons_inj hsame
      have hothers : ∀ other ∈ front.map Prod.snd, Independent perform call other := by
        intro other hother
        obtain ⟨⟨owner, own⟩, hmem, rfl⟩ := List.mem_map.1 hother
        have howner : caller ≠ owner := by
          rintro rfl
          have hown := mem_ofCaller.2 hmem
          rw [hfront] at hown
          exact List.not_mem_nil hown
        have hleftMem := (hleft.mem_iff hright).2 (List.mem_append_left _ hmem)
        exact h (caller, call) List.mem_cons_self (owner, own) hleftMem howner
      have hsame := ih h.of_cons (fun _ => rfl) hrest (perform state call).2
      rw [List.map_append, final_append, final_of_independent hothers] at hsame
      rw [List.map_append, final_append]
      exact hsame

end Session
end TickGate
