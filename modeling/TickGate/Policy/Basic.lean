/-!
# Combination policies

How the values of several sources become one decision.  The policy's two written forms are
its name, which messages show, and its word, which configurations hold.
-/

namespace TickGate

/-- The rule that merges the terms of a trigger. -/
inductive Policy where
  /-- True when every term is. -/
  | all
  /-- True when some term is. -/
  | any
  /-- The value of the only term. -/
  | level
  deriving DecidableEq, Repr, Inhabited

namespace Policy

/-- The word for a policy in configurations. -/
def word : Policy → String
  | all => "and"
  | any => "or"
  | level => "level"

/-- The name of a policy in messages. -/
def name : Policy → String
  | all => "AND"
  | any => "OR"
  | level => "LEVEL"

/-- Every policy. -/
def every : List Policy := [all, any, level]

/-- The policy that a word stands for. -/
def ofWord? (text : String) : Option Policy := every.find? fun policy => policy.word == text

/-- Merges the terms of a trigger.  The value of no term at all under `level` is `fallback`. -/
def combine (policy : Policy) (fallback : Bool) (terms : List Bool) : Bool :=
  match policy with
  | all => terms.all id
  | any => terms.any id
  | level => terms.headD fallback

theorem mem_every (policy : Policy) : policy ∈ every := by
  cases policy <;> decide

theorem ofWord?_word (policy : Policy) : ofWord? policy.word = some policy := by
  cases policy <;> decide

theorem ofWord?_eq_some_iff {text : String} {policy : Policy} :
    ofWord? text = some policy ↔ text = policy.word := by
  constructor
  · intro h
    have hword := List.find?_some h
    exact (eq_of_beq hword).symm
  · rintro rfl
    exact ofWord?_word policy

theorem combine_singleton (policy : Policy) (fallback term : Bool) :
    policy.combine fallback [term] = term := by
  cases policy <;> simp [combine]

end Policy
end TickGate
