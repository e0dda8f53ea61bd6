import TickGate.Proofs.Source.Recording
import TickGate.Proofs.Source.Value

/-!
# Sources and refused publishes

A source evaluates before the board is asked, and nothing takes the evaluation back.  So a
refused publish moves the source as an accepted one does: the level of this tick is the level
seen last, and this tick's credit and debit are counted.  A host that publishes for the same
tick again has the source evaluated again, from there.
-/

namespace TickGate

/-! ## Evaluating for one tick again and again -/

theorem Edge.pulses_self (edge : Edge) (level : Level) : edge.pulses level level = false := by
  cases edge <;> cases level <;> rfl

namespace Balance

/-- A count to which one tick was tallied a number of times. -/
def tallied (count : Count) (holds : Bool) (times : Nat) : Count :=
  if holds then .ofOccurrences (count.toNat + times) else count

theorem tallied_zero (count : Count) (holds : Bool) : tallied count holds 0 = count := by
  cases holds with
  | false => rfl
  | true =>
      have hlimit := Count.toNat_le_limit count
      rw [tallied, if_pos rfl, ← UInt64.toNat_inj, Count.toNat_ofOccurrences]
      omega

theorem tallied_tallied (count : Count) (holds : Bool) (first second : Nat) :
    tallied (tallied count holds first) holds second = tallied count holds (first + second) := by
  cases holds with
  | false => rfl
  | true =>
      simp only [tallied, if_true]
      rw [← UInt64.toNat_inj, Count.toNat_ofOccurrences, Count.toNat_ofOccurrences,
        Count.toNat_ofOccurrences]
      omega

theorem tally_eq_tallied (count : Count) (holds : Bool) :
    tally count holds = tallied count holds 1 := by
  cases holds with
  | false => rfl
  | true =>
      simp only [tally, tallied, if_true]
      rw [← UInt64.toNat_inj, Count.toNat_next, Count.toNat_ofOccurrences]

theorem tally_eq_self_iff {count : Count} {holds : Bool} :
    tally count holds = count ↔ (holds = true → count = Count.limit) := by
  cases holds with
  | false => simp [tally]
  | true =>
      have hlimit := Count.toNat_le_limit count
      change count.next = count ↔ _
      rw [← UInt64.toNat_inj, Count.toNat_next, ← UInt64.toNat_inj]
      constructor
      · intro h _
        omega
      · intro h
        have := h rfl
        omega

end Balance

namespace Source

variable {S : Type}

/-- The source when it has been evaluated for one tick a number of times. -/
def reevaluated (tick : Tick) (host : S) : Nat → Source S → Source S
  | 0, source => source
  | times + 1, source => reevaluated tick host times (source.evaluate tick host).2

/-- What a source publishes for a tick for which it has been evaluated before, `times` times
and at least once.  There is no edge from a level to itself. -/
def valueAgain (tick : Tick) (host : S) (times : Nat) : Source S → Bool
  | probe p =>
    match p.mode with
    | .level => p.condition tick host
    | .pulse _ => false
  | balance b =>
    Balance.tallied b.debits (b.debit tick host) (times + 1) <
      Balance.tallied b.credits (b.credit tick host) (times + 1)

/-- An evaluation at this moment leaves the source as it is: the level has not changed, or no
condition holds that still counts. -/
def Settled (tick : Tick) (host : S) : Source S → Prop
  | probe p => p.level = .ofBool (p.condition tick host)
  | balance b =>
    (b.credit tick host = true → b.credits = Count.limit) ∧
      (b.debit tick host = true → b.debits = Count.limit)

theorem evaluate_eq_self_iff {source : Source S} {tick : Tick} {host : S} :
    (source.evaluate tick host).2 = source ↔ source.Settled tick host := by
  cases source with
  | probe p =>
      obtain ⟨id, condition, mode, level⟩ := p
      simp only [evaluate, Probe.evaluate, probe.injEq, Probe.mk.injEq, true_and, Settled]
      exact eq_comm
  | balance b =>
      obtain ⟨id, credit, debit, credits, debits⟩ := b
      simp only [evaluate, Balance.evaluate, balance.injEq, Balance.mk.injEq, true_and,
        Settled, Balance.tally_eq_self_iff]

theorem reevaluated_probe (tick : Tick) (host : S) (times : Nat) (p : Probe S) :
    reevaluated tick host (times + 1) (probe p) =
      probe { p with level := .ofBool (p.condition tick host) } := by
  induction times generalizing p with
  | zero => rfl
  | succ times ih => exact ih (p.evaluate tick host).2

theorem reevaluated_balance (tick : Tick) (host : S) (times : Nat) (b : Balance S) :
    reevaluated tick host times (balance b) =
      balance
        { b with
          credits := Balance.tallied b.credits (b.credit tick host) times
          debits := Balance.tallied b.debits (b.debit tick host) times } := by
  induction times generalizing b with
  | zero => simp only [reevaluated, Balance.tallied_zero]
  | succ times ih =>
      rw [reevaluated]
      simp only [evaluate, ih, Balance.evaluate, Balance.tally_eq_tallied,
        Balance.tallied_tallied, Nat.add_comm 1 times]

theorem evaluate_reevaluated (source : Source S) (tick : Tick) (host : S) (times : Nat) :
    ((source.reevaluated tick host (times + 1)).evaluate tick host).1 =
      source.valueAgain tick host (times + 1) := by
  cases source with
  | probe p =>
      rw [reevaluated_probe]
      cases hmode : p.mode with
      | level => simp [evaluate, Probe.evaluate, valueAgain, hmode, Mode.value]
      | pulse edge =>
          simp [evaluate, Probe.evaluate, valueAgain, hmode, Mode.value, Edge.pulses_self]
  | balance b =>
      rw [reevaluated_balance]
      simp only [evaluate, Balance.evaluate, valueAgain, Balance.tally_eq_tallied,
        Balance.tallied_tallied]

/-! ## Publishing -/

variable {β γ : Type} [Board β] [Board γ]

/-- The answers to publishes for one tick on boards in order, and the source afterwards. -/
def attempts (tick : Tick) (host : S) :
    List β → Source S → List (Except Fault Bool) × Source S
  | [], source => ([], source)
  | board :: boards, source =>
    let out := (source.publish board tick host).value
    let (answers, last) := attempts tick host boards out.2.1
    (out.1 :: answers, last)

theorem attempts_source (source : Source S) (tick : Tick) (host : S) (boards : List β) :
    (source.attempts tick host boards).2 = source.reevaluated tick host boards.length := by
  induction boards generalizing source with
  | nil => rfl
  | cons board boards ih =>
      rw [attempts, List.length_cons, reevaluated, publish_value]
      exact ih (source.evaluate tick host).2

/-- The edge of a refused pulse is gone at the next attempt, and a credit that was refused once
is counted twice when the source is accepted. -/
theorem refusal_is_remembered :
    let idle := Registry.new .reject
    let begun := (idle.beginTick 0).value
    let pulse : Source Unit :=
      .probe { id := "a", condition := .always, mode := .pulse .rising }
    let edge := (pulse.publish idle 0 ()).value
    let account : Source Unit :=
      .balance { id := "a", credit := .always, debit := .never, debits := 1 }
    let entry := (account.publish idle 0 ()).value
    (edge.1 = .error .noActiveTick ∧ edge.2.1 ≠ pulse ∧
      (pulse.publish begun 0 ()).value.1 = .ok true ∧
      (edge.2.1.publish begun 0 ()).value.1 = .ok false) ∧
    entry.1 = .error .noActiveTick ∧ entry.2.1 ≠ account ∧
      (account.publish begun 0 ()).value.1 = .ok false ∧
      (entry.2.1.publish begun 0 ()).value.1 = .ok true := by
  intro idle begun pulse edge account entry
  have hpulse : ¬ pulse.Settled 0 () := nofun
  have haccount : ¬ account.Settled 0 () := by
    rintro ⟨hcredit, -⟩
    exact absurd (hcredit rfl) (by decide)
  refine ⟨⟨rfl, ?_, rfl, rfl⟩, rfl, ?_, rfl, rfl⟩
  · intro h
    exact hpulse (evaluate_eq_self_iff.mp h)
  · intro h
    exact haccount (evaluate_eq_self_iff.mp h)

/-- A publish moves the source by one evaluation, whether it is accepted or refused, and so
leaves it as it was only where it is settled.  When boards have been tried for a tick and another
one accepts the source for the same tick and host, the value there is the level once more, no
pulse at all, or the balance with that tick counted once for each attempt. -/
theorem refused_publish_evaluates {S β γ : Type} [Board β] [Board γ] (source : Source S)
    (tick : Tick) (host : S) :
    (∀ board : β, (source.publish board tick host).value.2.1 = (source.evaluate tick host).2) ∧
    ((source.evaluate tick host).2 = source ↔ source.Settled tick host) ∧
    ∀ (first : β) (others : List β) (board : γ) (value : Bool),
      let tried := (source.attempts tick host (first :: others)).2
      (tried.publish board tick host).value.1 = .ok value →
      value = source.valueAgain tick host (others.length + 1) := by
  refine ⟨?_, evaluate_eq_self_iff, ?_⟩
  · intro board
    rw [publish_value]
  · intro first others board value tried haccepted
    obtain ⟨hvalue, -, -⟩ := accepted_of_ok haccepted
    have htried : tried = source.reevaluated tick host (others.length + 1) :=
      attempts_source source tick host (first :: others)
    rw [hvalue, htried, evaluate_reevaluated]

/-- A balance that a barrier refuses before its first tick, after a seal and for a repeat. -/
theorem refused_publish_evaluates_thrice :
    let idle := Barrier.new .reject
    let sealed := Session.final Barrier.perform idle [.beginTick 0, .sealTick]
    let begun := (idle.beginTick 0).value
    let taken := (begun.publish "a" true).value.2
    let account : Source Unit :=
      .balance { id := "a", credit := .always, debit := .never, debits := 3 }
    let tried := account.attempts 0 () [idle, sealed, taken]
    tried.1 = [.error .noActiveTick, .error (.publishAfterSeal "a" 0),
      .error (.duplicatePublish "a" 0)] ∧
    (account.evaluate 0 ()).1 = false ∧
    (tried.2.publish begun 0 ()).value.1 = .ok true ∧ account.valueAgain 0 () 3 = true := by
  intro idle sealed begun taken account tried
  have haccepted : (tried.2.publish begun 0 ()).value.1 = .ok true := rfl
  have hvalue :=
    (refused_publish_evaluates account 0 ()).2.2 idle [sealed, taken] begun true haccepted
  exact ⟨rfl, rfl, haccepted, hvalue.symm⟩

end Source
end TickGate
