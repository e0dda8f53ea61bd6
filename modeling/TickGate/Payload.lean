/-!
# Payloads

The data that an observed system computes: one 16-bit word in each tick, whether or not
anything watches.  A shift register runs through pseudo-random words.
-/

namespace TickGate

/-- A system that computes one word in each tick. -/
class Payload (π : Type) where
  /-- The word of the next tick, and the system after it. -/
  next : π → UInt16 × π

/-- A 16-bit shift register whose feedback is the sum of the taps 16, 14, 13 and 11. -/
structure ShiftRegister where
  state : UInt16
  deriving DecidableEq, Repr, Inhabited

namespace ShiftRegister

/-- The seed used where none is given. -/
def defaultSeed : UInt16 := 0xACE1

/-- A register that starts at a seed.  A register of zeros would never change, so it starts
at one. -/
def ofSeed (seed : UInt16) : ShiftRegister := ⟨if seed = 0 then 1 else seed⟩

/-- The contents after one shift to the right, the sum of the taps coming in at the left. -/
def shift (state : UInt16) : UInt16 :=
  let bit := (state ^^^ (state >>> 2) ^^^ (state >>> 3) ^^^ (state >>> 5)) &&& 1
  (state >>> 1) ||| (bit <<< 15)

/-- The register after one shift. -/
def step (register : ShiftRegister) : ShiftRegister := ⟨shift register.state⟩

instance : Payload ShiftRegister where
  next register :=
    let register := register.step
    (register.state, register)

end ShiftRegister

end TickGate
