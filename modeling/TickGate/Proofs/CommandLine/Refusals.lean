import TickGate.CommandLine.Arguments

/-!
# The wording of refusals

The program tells a request for help from all other refusals by how the wording begins, and this
is right: no other refusal, and no fault, is worded so that it begins like the usage text.  It is
enough to look at the first letter.
-/

namespace TickGate

/-- A text begins with the first character of the text that it begins with. -/
theorem head?_toList_append {front : String} {c : Char} (h : front.toList.head? = some c)
    (back : String) : (front ++ back).toList.head? = some c := by
  rw [String.toList_append, List.head?_append, h]
  rfl

theorem Fault.exists_head?_message (fault : Fault) :
    ∃ c, c ≠ 'U' ∧ fault.message.toList.head? = some c := by
  cases fault with
  | duplicatePublish id tick =>
      refine ⟨'t', by decide, ?_⟩
      exact head?_toList_append (head?_toList_append (head?_toList_append rfl _) _) _
  | invalidPolicy policy sources =>
      cases policy with
      | all => exact ⟨'A', by decide, head?_toList_append (head?_toList_append rfl _) _⟩
      | any => exact ⟨'O', by decide, head?_toList_append (head?_toList_append rfl _) _⟩
      | level => exact ⟨'L', by decide, head?_toList_append (head?_toList_append rfl _) _⟩
  | noActiveTick => exact ⟨'n', by decide, rfl⟩
  | publishAfterSeal id tick =>
      refine ⟨'t', by decide, ?_⟩
      exact head?_toList_append
        (head?_toList_append (head?_toList_append (head?_toList_append rfl _) _) _) _
  | readBeforeSeal tick => exact ⟨'s', by decide, head?_toList_append (head?_toList_append rfl _) _⟩
  | incompleteSnapshot tick missing =>
      refine ⟨'t', by decide, ?_⟩
      exact head?_toList_append
        (head?_toList_append (head?_toList_append (head?_toList_append rfl _) _) _) _
  | unknownPolicy text => exact ⟨'u', by decide, head?_toList_append (head?_toList_append rfl _) _⟩

namespace CommandLine

theorem Refusal.exists_head?_message {refusal : Refusal} (h : refusal ≠ .help) :
    ∃ c, c ≠ 'U' ∧ refusal.message.toList.head? = some c := by
  cases refusal with
  | help => exact absurd rfl h
  | missingCommand => exact ⟨'m', by decide, rfl⟩
  | unknownCommand text => exact ⟨'u', by decide, head?_toList_append rfl _⟩
  | missingValue flag => exact ⟨'m', by decide, head?_toList_append rfl _⟩
  | invalidValue flag text =>
      refine ⟨'i', by decide, ?_⟩
      exact head?_toList_append (head?_toList_append (head?_toList_append rfl _) _) _
  | invalidPolicy fault => exact fault.exists_head?_message
  | unknownOption text => exact ⟨'u', by decide, head?_toList_append rfl _⟩
  | invertedWindow high low =>
      refine ⟨'-', by decide, ?_⟩
      exact head?_toList_append
        (head?_toList_append (head?_toList_append (head?_toList_append rfl _) _) _) _

theorem prefix_usage : "Usage:".toList <+: usage.toList := by
  have hline : "Usage:".toList <+: "Usage: trigger-demo <command> [options]".toList := by
    decide +kernel
  rw [usage, String.toList_join]
  exact hline.trans (List.prefix_append_of_prefix (List.prefix_append _ _))

/-- Of all refusals only the request for help is worded so that it begins like the usage text. -/
theorem Refusal.startsWith_usage_iff {refusal : Refusal} :
    refusal.message.startsWith "Usage:" = true ↔ refusal = .help := by
  rw [String.startsWith_string_iff]
  constructor
  · intro hprefix
    by_cases hhelp : refusal = .help
    · exact hhelp
    · obtain ⟨c, hc, hfirst⟩ := Refusal.exists_head?_message hhelp
      obtain ⟨rest, hrest⟩ := hprefix
      rw [← hrest] at hfirst
      exact absurd (Option.some.inj hfirst).symm hc
  · rintro rfl
    exact prefix_usage

end CommandLine
end TickGate
