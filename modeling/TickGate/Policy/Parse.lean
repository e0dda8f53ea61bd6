import TickGate.Fault
import TickGate.Text.Blank

/-!
# Reading a policy

A policy is read from its name or word in any ASCII case, between any blank characters.
-/

namespace TickGate
namespace Policy

/-- The policy that a text names. -/
def parse (text : String) : Except Fault Policy :=
  match ofWord? (String.ofList ((Text.trim text.toList).map Char.toLower)) with
  | some policy => .ok policy
  | none => .error (.unknownPolicy text)

/-- A fault of `parse` holds the text as it was given. -/
theorem parse_error {text : String} {fault : Fault} (h : parse text = .error fault) :
    fault = .unknownPolicy text := by
  unfold parse at h
  split at h
  · cases h
  · exact (Except.error.inj h).symm

end Policy
end TickGate
