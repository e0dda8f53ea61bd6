import TickGate.Proofs.Session
import TickGate.Proofs.Source.Value

/-!
# The totals of a balance

A balance holds how often its two conditions have held, each number up to the largest count:
`final_start`.  So what it answers compares two totals, and the order in which they came about
does not show.  A debit is owed from the moment at which it is counted, also before the first
credit.  A moment at which both conditions hold, or neither, leaves the answer as it is, except
where one total has outgrown its count and the other has not.
-/

namespace TickGate

namespace Balance

variable {S T : Type}

/-- A balance that has counted nothing yet. -/
def start (id : SourceId) (credit debit : Condition S) : Balance S := { id, credit, debit }

/-- Evaluates a balance at a moment. -/
def perform (balance : Balance S) (moment : Moment S) : Bool × Balance S :=
  balance.evaluate moment.tick moment.host

/-- What a balance answers at a moment, when it has been evaluated at the moments of its past. -/
def valueAfter (balance : Balance S) (past : List (Moment S)) (now : Moment S) : Bool :=
  ((Session.final perform balance past).perform now).1

/-- Whether a credit and whether a debit is due at a moment. -/
def entry (credit debit : Condition S) (moment : Moment S) : Bool × Bool :=
  (credit.holdsAt moment, debit.holdsAt moment)

/-- Neither total is larger than a count can be. -/
def Exact (credit debit : Condition S) (moments : List (Moment S)) : Prop :=
  credit.occurrences moments < UInt64.size ∧ debit.occurrences moments < UInt64.size

/-! ## Totals -/

variable (id : SourceId) (credit debit : Condition S)

/-- A balance has counted the moments at which its conditions held. -/
theorem final_start (moments : List (Moment S)) :
    Session.final perform (start id credit debit) moments =
      { id, credit, debit
        credits := .ofOccurrences (credit.occurrences moments)
        debits := .ofOccurrences (debit.occurrences moments) } := by
  induction moments using List.reverseRecOn with
  | nil => rfl
  | append_singleton moments now ih =>
      rw [Session.final_concat, ih, ← Source.Kind.tally_ofOccurrences,
        ← Source.Kind.tally_ofOccurrences]
      rfl

theorem valueAfter_start (past : List (Moment S)) (now : Moment S) :
    (start id credit debit).valueAfter past now =
      decide (Count.ofOccurrences (debit.occurrences (past ++ [now])) <
        Count.ofOccurrences (credit.occurrences (past ++ [now]))) := by
  rw [valueAfter, final_start, ← Source.Kind.tally_ofOccurrences,
    ← Source.Kind.tally_ofOccurrences]
  rfl

variable {credit debit}

/-- Totals that fit into counts are compared exactly. -/
theorem valueAfter_of_exact {past : List (Moment S)} {now : Moment S}
    (h : Exact credit debit (past ++ [now])) :
    (start id credit debit).valueAfter past now =
      decide (debit.occurrences (past ++ [now]) < credit.occurrences (past ++ [now])) := by
  rw [valueAfter_start, decide_eq_decide]
  exact Count.ofOccurrences_lt_iff h.2 h.1

theorem Exact.of_append {front back : List (Moment S)}
    (h : Exact credit debit (front ++ back)) : Exact credit debit front := by
  obtain ⟨hcredit, hdebit⟩ := h
  rw [Condition.occurrences_append] at hcredit hdebit
  constructor
  · omega
  · omega

/-! ## The order of the entries -/

theorem occurrences_eq_of_perm {credit' debit' : Condition T} {moments : List (Moment S)}
    {others : List (Moment T)}
    (h : (others.map (entry credit' debit')).Perm (moments.map (entry credit debit))) :
    credit'.occurrences others = credit.occurrences moments ∧
      debit'.occurrences others = debit.occurrences moments := by
  have hcredit := h.countP_eq Prod.fst
  have hdebit := h.countP_eq Prod.snd
  rw [List.countP_map, List.countP_map] at hcredit hdebit
  exact ⟨hcredit, hdebit⟩

/-! ## One more entry -/

/-- A moment that is entered on both sides or on neither leaves the answer as it is. -/
theorem valueAfter_concat_of_eq {past : List (Moment S)} {now next : Moment S}
    (hexact : Exact credit debit (past ++ [now] ++ [next]))
    (heq : credit.holdsAt next = debit.holdsAt next) :
    (start id credit debit).valueAfter (past ++ [now]) next =
      (start id credit debit).valueAfter past now := by
  rw [valueAfter_of_exact id hexact, valueAfter_of_exact id hexact.of_append,
    credit.occurrences_concat (past ++ [now]), debit.occurrences_concat (past ++ [now]), heq,
    decide_eq_decide]
  exact Nat.add_lt_add_iff_right

/-- After any moments the two counts of a new balance are the numbers of moments at which its
conditions held, up to the largest count.  While neither number is larger than that, the answer is
whether the credits are more: any source with the same entries, in whatever order, answers the
same; only an entry on one side alone changes the answer; and debits from before the first credit
are owed at every later moment.  Of two balances with credit and debit exchanged no more than one
is high at a moment, however many entries there are. -/
theorem value_compares_totals (id : SourceId) (credit debit : Condition S) :
    let balance := start id credit debit
    (∀ moments : List (Moment S),
      let reached := Session.final perform balance moments
      reached.credits.toNat = min (credit.occurrences moments) Count.limit.toNat ∧
        reached.debits.toNat = min (debit.occurrences moments) Count.limit.toNat) ∧
    (∀ past now, Exact credit debit (past ++ [now]) →
      balance.valueAfter past now =
        decide (debit.occurrences (past ++ [now]) < credit.occurrences (past ++ [now]))) ∧
    (∀ {T : Type} (otherId : SourceId) (otherCredit otherDebit : Condition T)
        (past : List (Moment S)) (now : Moment S) (otherPast : List (Moment T))
        (otherNow : Moment T),
      ((otherPast ++ [otherNow]).map (entry otherCredit otherDebit)).Perm
        ((past ++ [now]).map (entry credit debit)) →
      (start otherId otherCredit otherDebit).valueAfter otherPast otherNow =
        balance.valueAfter past now) ∧
    (∀ past now next, Exact credit debit (past ++ [now] ++ [next]) →
      balance.valueAfter (past ++ [now]) next ≠ balance.valueAfter past now →
      credit.holdsAt next ≠ debit.holdsAt next) ∧
    (∀ front back now, credit.occurrences front = 0 →
      Exact credit debit (front ++ back ++ [now]) →
      balance.valueAfter (front ++ back) now =
        decide (debit.occurrences front + debit.occurrences (back ++ [now]) <
          credit.occurrences (back ++ [now]))) ∧
    ∀ (otherId : SourceId) (past : List (Moment S)) (now : Moment S),
      ¬(balance.valueAfter past now = true ∧
        (start otherId debit credit).valueAfter past now = true) := by
  intro balance
  refine ⟨?_, fun past now => valueAfter_of_exact id, ?_, ?_, ?_, ?_⟩
  · intro moments reached
    have hreached : reached = _ := final_start id credit debit moments
    rw [hreached]
    exact ⟨Count.toNat_ofOccurrences _, Count.toNat_ofOccurrences _⟩
  · intro T otherId otherCredit otherDebit past now otherPast otherNow hperm
    obtain ⟨hcredit, hdebit⟩ := occurrences_eq_of_perm hperm
    have hvalue := valueAfter_start id credit debit past now
    rw [← hcredit, ← hdebit] at hvalue
    rw [valueAfter_start, hvalue]
  · intro past now next hexact hchange heq
    exact hchange (valueAfter_concat_of_eq id hexact heq)
  · intro front back now hfront hexact
    have hvalue := valueAfter_of_exact id hexact
    rwa [List.append_assoc, credit.occurrences_append, debit.occurrences_append, hfront,
      Nat.zero_add] at hvalue
  · rintro otherId past now ⟨hcredit, hdebit⟩
    rw [valueAfter_start, decide_eq_true_eq] at hcredit hdebit
    exact UInt64.lt_asymm hcredit hdebit

/-- A debit that cancels the first of two credits, and the same entries in another order. -/
theorem value_compares_totals_of_early_debit :
    let moment (tick : Tick) : Moment Unit := { tick, host := () }
    let credit : Condition Unit := .within { low := 2, high := 3 }
    let debit : Condition Unit := .within { low := 1, high := 1 }
    let balance := start "a" credit debit
    Exact credit debit [moment 1, moment 2, moment 3] ∧
    credit.occurrences [moment 1] = 0 ∧
    balance.valueAfter [moment 1, moment 2] (moment 3) = true ∧
    balance.valueAfter [moment 1, moment 2] (moment 3) = decide (1 + 0 < 2) ∧
    balance.valueAfter [moment 1, moment 2] (moment 3) ≠
      balance.valueAfter [moment 1] (moment 2) ∧
    credit.holdsAt (moment 3) ≠ debit.holdsAt (moment 3) ∧
    (start "b" credit debit).valueAfter [moment 3, moment 1] (moment 2) = true ∧
    (start "b" debit credit).valueAfter [moment 1, moment 2] (moment 3) ≠ true := by
  intro moment credit debit balance
  obtain ⟨-, hvalue, horder, hchange, howed, hswapped⟩ := value_compares_totals "a" credit debit
  have hexact : Exact credit debit [moment 1, moment 2, moment 3] := by
    constructor <;> decide
  have hbefore : credit.occurrences [moment 1] = 0 := rfl
  have hhigh : balance.valueAfter [moment 1, moment 2] (moment 3) = true :=
    hvalue [moment 1, moment 2] (moment 3) hexact
  have hrise : balance.valueAfter [moment 1, moment 2] (moment 3) ≠
      balance.valueAfter [moment 1] (moment 2) := by decide
  have hperm : (([moment 3, moment 1] ++ [moment 2]).map (entry credit debit)).Perm
      (([moment 1, moment 2] ++ [moment 3]).map (entry credit debit)) := by decide
  refine ⟨hexact, hbefore, hhigh, ?_, hrise, ?_, ?_, ?_⟩
  · exact howed [moment 1] [moment 2] (moment 3) hbefore hexact
  · exact hchange [moment 1] (moment 2) (moment 3) hexact hrise
  · rw [horder "b" credit debit _ _ _ _ hperm]
    exact hhigh
  · intro hboth
    exact hswapped "b" [moment 1, moment 2] (moment 3) ⟨hhigh, hboth⟩

end Balance
end TickGate
