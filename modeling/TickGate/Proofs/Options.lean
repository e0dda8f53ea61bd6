import Mathlib.Tactic.MkIffOfInductiveProp
import TickGate.Proofs.Json.RoundTrip

/-!
# Reading options

Options are read from the members of an object.  The order of the members, the members of other
names and the members that hold a default make no difference, and an array is read as the object
that has its items under the names of the first fields.
-/

namespace TickGate
namespace Options

open Json (AtMostOnce Gives IsWord given)

/-- Each field has the value of its member, or its default in the build if there is no such
member. -/
@[mk_iff]
structure Holds (build : Build) (members : List (String × Json)) (options : Options) : Prop where
  policy : Gives (fun policy : Policy => IsWord policy.word) (Options.default build).policy
    (given "policy" members) options.policy
  fallback : Gives (fun value json => json = .bool value) (Options.default build).fallback
    (given "fallback_when_unpublished" members) options.fallback
  edgeMode : Gives (fun value json => json = .bool value) (Options.default build).edgeMode
    (given "edge_mode" members) options.edgeMode
  duplicateRule : Gives (fun rule : DuplicateRule => IsWord rule.word)
    (Options.default build).duplicateRule (given "duplicate_policy" members) options.duplicateRule

/-- A member of a field's name has a value that the field can take. -/
structure Acceptable (member : String × Json) : Prop where
  policy : member.1 = "policy" → ∃ policy : Policy, IsWord policy.word member.2
  fallback : member.1 = "fallback_when_unpublished" → ∃ value, member.2 = .bool value
  edgeMode : member.1 = "edge_mode" → ∃ value, member.2 = .bool value
  duplicateRule :
    member.1 = "duplicate_policy" → ∃ rule : DuplicateRule, IsWord rule.word member.2

/-- A member of a field's name has the default of this field in the build as its value. -/
structure HoldsDefault (build : Build) (member : String × Json) : Prop where
  policy : member.1 = "policy" → IsWord (Options.default build).policy.word member.2
  fallback :
    member.1 = "fallback_when_unpublished" → member.2 = .bool (Options.default build).fallback
  edgeMode : member.1 = "edge_mode" → member.2 = .bool (Options.default build).edgeMode
  duplicateRule :
    member.1 = "duplicate_policy" → IsWord (Options.default build).duplicateRule.word member.2

theorem decode?_policy_iff (policy : Policy) (json : Json) :
    Codec.decode? json = some policy ↔ IsWord policy.word json :=
  Json.choice?_eq_some_iff (by decide) (Policy.mem_every policy)

theorem decode?_bool_iff (value : Bool) (json : Json) :
    Codec.decode? json = some value ↔ json = .bool value := by
  constructor
  · intro h
    match json with
    | .atom (.bool found) => exact congrArg Json.bool (Option.some.inj h)
    | .atom .null | .atom (.natural _) | .atom .number | .atom (.text _) | .array _ | .object _ =>
        cases h
  · rintro rfl
    rfl

theorem decode?_duplicateRule_iff (rule : DuplicateRule) (json : Json) :
    Codec.decode? json = some rule ↔ IsWord rule.word json :=
  Json.choice?_eq_some_iff (by decide) (DuplicateRule.mem_every rule)

variable {build : Build} {members others : List (String × Json)} {options : Options}

theorem atMostOnce_names_iff : AtMostOnce names members ↔
    (given "policy" members).length ≤ 1 ∧ (given "fallback_when_unpublished" members).length ≤ 1 ∧
      (given "edge_mode" members).length ≤ 1 ∧ (given "duplicate_policy" members).length ≤ 1 := by
  simp [AtMostOnce, names]

theorem Holds.atMostOnce (h : Holds build members options) : AtMostOnce names members :=
  atMostOnce_names_iff.mpr
    ⟨h.policy.length_le, h.fallback.length_le, h.edgeMode.length_le, h.duplicateRule.length_le⟩

theorem decode?_eq_some_iff {json : Json} {policy fallback edgeMode duplicateRule : Option Json}
    (h : json.fields? names = some [policy, fallback, edgeMode, duplicateRule]) :
    decode? build json = some options ↔
      Json.optional? (Options.default build).policy policy = some options.policy ∧
      Json.optional? (Options.default build).fallback fallback = some options.fallback ∧
      Json.optional? (Options.default build).edgeMode edgeMode = some options.edgeMode ∧
      Json.optional? (Options.default build).duplicateRule duplicateRule =
        some options.duplicateRule := by
  simp only [decode?, h, Option.bind_eq_bind, Option.bind_some, Option.bind_eq_some_iff]
  constructor
  · rintro ⟨policy, hpolicy, fallback, hfallback, edgeMode, hedge, rule, hrule, heq⟩
    cases heq
    exact ⟨hpolicy, hfallback, hedge, hrule⟩
  · rintro ⟨hpolicy, hfallback, hedge, hrule⟩
    exact ⟨_, hpolicy, _, hfallback, _, hedge, _, hrule, rfl⟩

theorem decode?_of_fields?_eq_none {json : Json} (h : json.fields? names = none) :
    decode? build json = none := by
  simp only [decode?, h, Option.bind_eq_bind, Option.bind_none]

/-- The members of an object are read as the options that they give. -/
theorem decode?_record_iff :
    decode? build (Json.record members) = some options ↔ Holds build members options := by
  by_cases honce : AtMostOnce names members
  · have hfields := Json.fields?_eq_some_iff.mpr ⟨honce, rfl⟩
    obtain ⟨hpolicy, hfallback, hedge, hrule⟩ := atMostOnce_names_iff.mp honce
    rw [decode?_eq_some_iff hfields, holds_iff, Json.gives_iff_optional? decode?_policy_iff,
      Json.gives_iff_optional? decode?_bool_iff, Json.gives_iff_optional? decode?_bool_iff,
      Json.gives_iff_optional? decode?_duplicateRule_iff]
    simp only [hpolicy, hfallback, hedge, hrule, true_and]
  · have hnone : (Json.record members).fields? names = none := by
      rw [Option.eq_none_iff_forall_ne_some]
      exact fun fields hfields => honce (Json.fields?_eq_some_iff.mp hfields).1
    rw [decode?_of_fields?_eq_none hnone]
    exact ⟨fun h => (Option.some_ne_none _ h.symm).elim, fun h => (honce h.atMostOnce).elim⟩

theorem decode?_array {items : List Json} (h : items.length ≤ names.length) :
    decode? build (.array items) = decode? build (Json.record (names.zip items)) := by
  simp only [decode?, Json.fields?_array (by decide) h]

theorem forall_acceptable_iff : (∀ member ∈ members, Acceptable member) ↔
    (∀ json ∈ given "policy" members, ∃ policy : Policy, IsWord policy.word json) ∧
    (∀ json ∈ given "fallback_when_unpublished" members, ∃ value, json = .bool value) ∧
    (∀ json ∈ given "edge_mode" members, ∃ value, json = .bool value) ∧
    ∀ json ∈ given "duplicate_policy" members, ∃ rule : DuplicateRule, IsWord rule.word json := by
  constructor
  · intro h
    exact ⟨fun json hjson => (h _ (Json.mem_given.mp hjson)).policy rfl,
      fun json hjson => (h _ (Json.mem_given.mp hjson)).fallback rfl,
      fun json hjson => (h _ (Json.mem_given.mp hjson)).edgeMode rfl,
      fun json hjson => (h _ (Json.mem_given.mp hjson)).duplicateRule rfl⟩
  · rintro ⟨hpolicy, hfallback, hedge, hrule⟩ ⟨name, json⟩ hmem
    constructor <;> rintro rfl
    · exact hpolicy json (Json.mem_given.mpr hmem)
    · exact hfallback json (Json.mem_given.mpr hmem)
    · exact hedge json (Json.mem_given.mpr hmem)
    · exact hrule json (Json.mem_given.mpr hmem)

/-- Members give options if no field is given twice and each is given a value that it can take. -/
theorem exists_holds_iff :
    (∃ options, Holds build members options) ↔
      AtMostOnce names members ∧ ∀ member ∈ members, Acceptable member := by
  rw [atMostOnce_names_iff, forall_acceptable_iff]
  constructor
  · rintro ⟨options, h⟩
    obtain ⟨hpolicy, hpolicies⟩ := Json.exists_gives_iff.mp ⟨_, h.policy⟩
    obtain ⟨hfallback, hfallbacks⟩ := Json.exists_gives_iff.mp ⟨_, h.fallback⟩
    obtain ⟨hedge, hedges⟩ := Json.exists_gives_iff.mp ⟨_, h.edgeMode⟩
    obtain ⟨hrule, hrules⟩ := Json.exists_gives_iff.mp ⟨_, h.duplicateRule⟩
    exact ⟨⟨hpolicy, hfallback, hedge, hrule⟩, hpolicies, hfallbacks, hedges, hrules⟩
  · rintro ⟨⟨hpolicy, hfallback, hedge, hrule⟩, hpolicies, hfallbacks, hedges, hrules⟩
    obtain ⟨policy, givesPolicy⟩ := Json.exists_gives_iff.mpr ⟨hpolicy, hpolicies⟩
    obtain ⟨fallback, givesFallback⟩ := Json.exists_gives_iff.mpr ⟨hfallback, hfallbacks⟩
    obtain ⟨edgeMode, givesEdge⟩ := Json.exists_gives_iff.mpr ⟨hedge, hedges⟩
    obtain ⟨rule, givesRule⟩ := Json.exists_gives_iff.mpr ⟨hrule, hrules⟩
    exact ⟨⟨policy, fallback, edgeMode, rule⟩, givesPolicy, givesFallback, givesEdge, givesRule⟩

/-- Only the members of the fields' names count, and not their order. -/
theorem holds_congr (h : (members.filter fun member => member.1 ∈ names).Perm
    (others.filter fun member => member.1 ∈ names)) :
    Holds build members options ↔ Holds build others options := by
  have hgiven {name : String} (hname : name ∈ names) :
      (given name members).Perm (given name others) := by
    have hperm := Json.given_perm name h
    rwa [Json.given_filter hname, Json.given_filter hname] at hperm
  rw [holds_iff, holds_iff]
  exact and_congr (Json.gives_congr (hgiven (by decide))) <|
    and_congr (Json.gives_congr (hgiven (by decide))) <|
    and_congr (Json.gives_congr (hgiven (by decide))) (Json.gives_congr (hgiven (by decide)))

/-- A member that holds a default can be left out. -/
theorem holds_delete_iff {front back : List (String × Json)} {member : String × Json}
    (honce : AtMostOnce names (front ++ member :: back)) (h : HoldsDefault build member) :
    Holds build (front ++ member :: back) options ↔ Holds build (front ++ back) options := by
  obtain ⟨hpolicy, hfallback, hedge, hrule⟩ := atMostOnce_names_iff.mp honce
  rw [holds_iff, holds_iff]
  exact and_congr (Json.gives_delete_iff decode?_policy_iff hpolicy h.policy) <|
    and_congr (Json.gives_delete_iff decode?_bool_iff hfallback h.fallback) <|
    and_congr (Json.gives_delete_iff decode?_bool_iff hedge h.edgeMode)
      (Json.gives_delete_iff decode?_duplicateRule_iff hrule h.duplicateRule)

theorem read?_eq_bind (text : String) :
    read? build text = (Json.parse? text).bind (decode? build) := rfl

theorem read?_eq_decode? {json : Json} {text : String} (h : json.Spells text) :
    read? build text = decode? build json := by
  rw [read?_eq_bind, Json.parse?_eq_some_iff.mpr h, Option.bind_some]

/-- A text is read as the options that some members give, if they give any. -/
structure ReadsAs (build : Build) (text : String) (members : List (String × Json)) : Prop where
  eq_some_iff : ∀ options, read? build text = some options ↔ Holds build members options
  isSome_iff : (read? build text).isSome ↔
    AtMostOnce names members ∧ ∀ member ∈ members, Acceptable member

theorem readsAs_of_decode? {json : Json} {text : String} (h : json.Spells text)
    (hdecode : decode? build json = decode? build (Json.record members)) :
    ReadsAs build text members := by
  have hread : ∀ options, read? build text = some options ↔ Holds build members options := by
    intro options
    rw [read?_eq_decode? h, hdecode, decode?_record_iff]
  refine ⟨hread, ?_⟩
  rw [Option.isSome_iff_exists, ← exists_holds_iff]
  exact exists_congr hread

/-- Only texts of objects and of arrays are read as options. -/
theorem exists_spells_of_read? {text : String} (h : read? build text = some options) :
    (∃ members, (Json.record members).Spells text) ∨ ∃ items, (Json.array items).Spells text := by
  rw [read?_eq_bind] at h
  obtain ⟨json, hparse, hdecode⟩ := Option.bind_eq_some_iff.mp h
  have hspells := Json.parse?_eq_some_iff.mp hparse
  have hfields : json.fields? names ≠ none := by
    intro hnone
    rw [decode?_of_fields?_eq_none hnone] at hdecode
    cases hdecode
  match json with
  | .atom a => exact absurd rfl hfields
  | .array items => exact .inr ⟨items, hspells⟩
  | .object members =>
      have hreadable : ∀ member ∈ members, member.1 ≠ none := fun member hmem hnone =>
        hfields (Json.fields?_eq_none_of_unreadable ⟨member, hmem, hnone⟩)
      obtain ⟨named, rfl⟩ := Json.exists_eq_map_some hreadable
      exact .inl ⟨named, hspells⟩

theorem read?_eq_of_holds_iff {text text' : String} (h : (Json.record members).Spells text)
    (h' : (Json.record others).Spells text')
    (hholds : ∀ options, Holds build members options ↔ Holds build others options) :
    read? build text = read? build text' := by
  apply Option.ext
  intro options
  rw [read?_eq_decode? h, read?_eq_decode? h', decode?_record_iff, decode?_record_iff, hholds]

/-- A text of an object is read as the options that its members give, so the order of the members,
the members of other names, the spaces and the members that hold a default make no difference.  A
text of an array is read as the object of its items under the names of the first fields, and an item
too many is refused.  Nothing else is read as options, and in particular no object with a name whose
escapes spell no text. -/
theorem reads_members (build : Build) :
    (∀ members text, (Json.record members).Spells text → ReadsAs build text members) ∧
    (∀ items text, (Json.array items).Spells text →
      (items.length ≤ 4 → ReadsAs build text (names.zip items)) ∧
      (4 < items.length → read? build text = none)) ∧
    (∀ members others text text', (Json.record members).Spells text →
      (Json.record others).Spells text' →
      (members.filter fun member => member.1 ∈ names).Perm
        (others.filter fun member => member.1 ∈ names) →
      read? build text = read? build text') ∧
    (∀ front member back text text', (Json.record (front ++ member :: back)).Spells text →
      (Json.record (front ++ back)).Spells text' →
      AtMostOnce names (front ++ member :: back) → HoldsDefault build member →
      read? build text = read? build text') ∧
    (∀ members text, (Json.object members).Spells text → (∃ member ∈ members, member.1 = none) →
      read? build text = none) ∧
    ∀ options text, read? build text = some options →
      (∃ members, (Json.record members).Spells text) ∨ ∃ items, (Json.array items).Spells text := by
  refine ⟨fun members text h => readsAs_of_decode? h rfl, fun items text h => ⟨fun hlength => ?_,
    fun hlength => ?_⟩, fun members others text text' h h' hperm => ?_,
    fun front member back text text' h h' honce hdefault => ?_, fun members text h hnone => ?_,
    fun options text h => exists_spells_of_read? h⟩
  · exact readsAs_of_decode? h (decode?_array hlength)
  · rw [read?_eq_decode? h]
    exact decode?_of_fields?_eq_none (Json.fields?_array_of_lt hlength)
  · exact read?_eq_of_holds_iff h h' fun options => holds_congr hperm
  · exact read?_eq_of_holds_iff h h' fun options => holds_delete_iff honce hdefault
  · rw [read?_eq_decode? h]
    exact decode?_of_fields?_eq_none (Json.fields?_eq_none_of_unreadable hnone)

/-- A nested value under another name, an escape in a name, a default, and arrays.  The rule that
is not given, and the one that need not be, are those of the build. -/
theorem reads_members_of_other_names :
    let nested := " \x7b\"x\":[\x7b\x7d,-5e+1],\"\\u0070olicy\":\"and\"\x7d"
    let plain := "\x7b\"policy\":\"and\"\x7d"
    read? .debug nested = some { policy := .all, duplicateRule := .reject } ∧
      read? .release nested = some { policy := .all, duplicateRule := .lastWriteWins } ∧
      read? .release nested = read? .release plain ∧
      read? .release "\x7b\"duplicate_policy\":\"last_write_wins\",\"policy\":\"and\"\x7d" =
        read? .release plain ∧
      read? .release "[\x7b\"or\":null\x7d,true]" =
        some { policy := .any, fallback := true, duplicateRule := .lastWriteWins } ∧
      read? .release "[\"or\",true,true,\"reject\",0]" = none ∧
      read? .release "\x7b\"\\ud800\":1\x7d" = none ∧
      ((∃ members, (Json.record members).Spells "[\x7b\"or\":null\x7d,true]") ∨
        ∃ items, (Json.array items).Spells "[\x7b\"or\":null\x7d,true]") := by
  intro nested plain
  obtain ⟨hobject, harray, hperm, hdelete, hunreadable, honly⟩ := reads_members .release
  have hnested : (Json.record [("x", .array [.object [], .atom .number]),
      ("policy", .text "and")]).Spells nested := by
    decide +kernel
  have hplain : (Json.record [("policy", .text "and")]).Spells plain := by
    decide +kernel
  have hdefault : (Json.record [("duplicate_policy", .text "last_write_wins"),
      ("policy", .text "and")]).Spells
      "\x7b\"duplicate_policy\":\"last_write_wins\",\"policy\":\"and\"\x7d" := by
    decide +kernel
  have hitems : (Json.array [.record [("or", .atom .null)], .bool true]).Spells
      "[\x7b\"or\":null\x7d,true]" := by
    decide +kernel
  have hmany : (Json.array [.text "or", .bool true, .bool true, .text "reject", .natural 0]).Spells
      "[\"or\",true,true,\"reject\",0]" := by
    decide +kernel
  have hlone : (Json.object [(none, .natural 1)]).Spells "\x7b\"\\ud800\":1\x7d" := by
    decide +kernel
  have hread : read? .release "[\x7b\"or\":null\x7d,true]" =
      some { policy := .any, fallback := true, duplicateRule := .lastWriteWins } := by
    apply (((harray _ _ hitems).1 (by decide)).eq_some_iff _).mpr
    exact ⟨.inr ⟨_, rfl, .inr rfl⟩, .inr ⟨_, rfl, rfl⟩, .inl ⟨rfl, rfl⟩, .inl ⟨rfl, rfl⟩⟩
  refine ⟨(((reads_members .debug).1 _ _ hnested).eq_some_iff _).mpr ?_,
    ((hobject _ _ hnested).eq_some_iff _).mpr ?_, hperm _ _ _ _ hnested hplain ?_,
    hdelete [] _ _ _ _ hdefault hplain ?_ ?_, hread, (harray _ _ hmany).2 ?_,
    hunreadable _ _ hlone ?_, honly _ _ hread⟩
  · exact ⟨.inr ⟨_, rfl, .inl rfl⟩, .inl ⟨rfl, rfl⟩, .inl ⟨rfl, rfl⟩, .inl ⟨rfl, rfl⟩⟩
  · exact ⟨.inr ⟨_, rfl, .inl rfl⟩, .inl ⟨rfl, rfl⟩, .inl ⟨rfl, rfl⟩, .inl ⟨rfl, rfl⟩⟩
  · exact .refl _
  · decide
  · exact ⟨by simp, by simp, by simp, fun _ => .inl rfl⟩
  · decide
  · exact ⟨_, List.mem_singleton_self _, rfl⟩

end Options
end TickGate
