import TickGate.Source.Probe

/-!
# Balances

A balance counts the ticks at which a credit condition held and those at which a debit
condition held, and is high while the credits outnumber the debits.  Nothing is forgotten: a
debit before the first credit cancels it.
-/

namespace TickGate

/-- A named source that is high while credits outnumber debits. -/
structure Balance (S : Type) where
  id : SourceId
  /-- The condition that adds a credit. -/
  credit : Condition S
  /-- The condition that adds a debit. -/
  debit : Condition S
  credits : Count := 0
  debits : Count := 0

namespace Balance

variable {S : Type}

/-- A count after a tick at which its condition held or not. -/
def tally (count : Count) (holds : Bool) : Count := if holds then count.next else count

/-- The value at a tick, and the balance that has counted it. -/
def evaluate (balance : Balance S) (tick : Tick) (host : S) : Bool × Balance S :=
  let credits := tally balance.credits (balance.credit tick host)
  let debits := tally balance.debits (balance.debit tick host)
  (debits < credits, { balance with credits, debits })

@[simp] theorem evaluate_id (balance : Balance S) (tick : Tick) (host : S) :
    (balance.evaluate tick host).2.id = balance.id := rfl

end Balance
end TickGate
