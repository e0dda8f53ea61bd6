import Mathlib.Data.List.Nodup
import Mathlib.Tactic.SplitIfs
import TickGate.Json.Codec

/-!
# Reading members

The fields of a record are found by name, wherever they stand and whatever stands between them, or
by position.  A field is given at most once, and what it is given decides its value.
-/

namespace TickGate
namespace Json

/-! ## Words -/

/-- A JSON value spells a word: as a text, or as the name of the only member, which is null. -/
def IsWord (word : String) (json : Json) : Prop :=
  json = text word ∨ json = record [(word, atom .null)]

theorem word?_eq_some_iff {word : String} {json : Json} :
    word? json = some word ↔ IsWord word json := by
  constructor
  · intro h
    rw [word?.eq_def] at h
    split at h
    next content =>
      rw [h]
      exact .inl rfl
    next content =>
      rw [h]
      exact .inr rfl
    next => cases h
  · rintro (rfl | rfl) <;> rfl

/-- Where no two values have the same word, a word is read as the value that it is the word of. -/
theorem choice?_eq_some_iff {α : Type} {word : α → String} {values : List α} {value : α}
    (hwords : (values.map word).Nodup) (hvalue : value ∈ values) {json : Json} :
    choice? word values json = some value ↔ IsWord (word value) json := by
  rw [choice?, Option.bind_eq_some_iff, ← word?_eq_some_iff]
  constructor
  · rintro ⟨spelled, hspelled, hfind⟩
    have hword : word value = spelled := by simpa using List.find?_some hfind
    rwa [hword]
  · intro h
    refine ⟨word value, h, ?_⟩
    cases hfind : values.find? (fun other => word other == word value) with
    | none =>
        have hne := List.find?_eq_none.mp hfind value hvalue
        simp at hne
    | some found =>
        have hword : word found = word value := by simpa using List.find?_some hfind
        rw [List.inj_on_of_nodup_map hwords (List.mem_of_find?_eq_some hfind) hvalue hword]

/-! ## Members -/

/-- The values of the members of a name. -/
def given (name : String) (members : List (String × Json)) : List Json :=
  (members.filter fun member => member.1 = name).map Prod.snd

/-- No two members have the same of some names. -/
def AtMostOnce (names : List String) (members : List (String × Json)) : Prop :=
  ∀ name ∈ names, (given name members).length ≤ 1

instance (names : List String) (members : List (String × Json)) :
    Decidable (AtMostOnce names members) :=
  inferInstanceAs (Decidable (∀ name ∈ names, (given name members).length ≤ 1))

variable {names : List String} {members : List (String × Json)}

theorem mem_given {name : String} {json : Json} :
    json ∈ given name members ↔ (name, json) ∈ members := by
  simp [given]

theorem given_append (name : String) (front back : List (String × Json)) :
    given name (front ++ back) = given name front ++ given name back := by
  simp [given]

theorem given_cons (name : String) (member : String × Json) (back : List (String × Json)) :
    given name (member :: back) =
      if member.1 = name then member.2 :: given name back else given name back := by
  rw [given, List.filter_cons]
  split_ifs with h h' h' <;> simp_all [given]

theorem given_filter {name : String} (h : name ∈ names) :
    given name (members.filter fun member => member.1 ∈ names) = given name members := by
  rw [given, given, List.filter_filter]
  congr 1
  apply List.filter_congr
  rintro ⟨other, json⟩ -
  by_cases heq : other = name
  · simp [heq, h]
  · simp [heq]

theorem given_perm {others : List (String × Json)} (name : String) (h : members.Perm others) :
    (given name members).Perm (given name others) :=
  (h.filter _).map _

/-- Where a name is not repeated, its only member gives its value. -/
theorem given_eq_singleton {front back : List (String × Json)} {member : String × Json}
    (h : (given member.1 (front ++ member :: back)).length ≤ 1) :
    given member.1 (front ++ member :: back) = [member.2] ∧
      given member.1 (front ++ back) = [] := by
  rw [given_append, given_cons, if_pos rfl] at h ⊢
  rw [List.length_append, List.length_cons] at h
  have hfront := List.eq_nil_of_length_eq_zero (l := given member.1 front) (by omega)
  have hback := List.eq_nil_of_length_eq_zero (l := given member.1 back) (by omega)
  rw [given_append, hfront, hback]
  exact ⟨rfl, rfl⟩

theorem member?_record (name : String) :
    member? name (members.map fun member => (some member.1, member.2)) =
      (given name members).head? := by
  induction members with
  | nil => rfl
  | cons member members ih =>
      rw [List.map_cons, member?, given_cons]
      by_cases h : member.1 = name
      · rw [if_pos (congrArg some h), if_pos h, List.head?_cons]
      · rw [if_neg fun heq => h (Option.some.inj heq), if_neg h, ih]

theorem countP_record (name : String) :
    (members.map fun member => (some member.1, member.2)).countP
      (fun member => member.1 = some name) = (given name members).length := by
  rw [List.countP_map, given, List.length_map, ← List.countP_eq_length_filter]
  apply List.countP_congr
  simp

/-- An object gives each field the value under its name, if none of the names is repeated. -/
theorem fields?_eq_some_iff {fields : List (Option Json)} :
    (record members).fields? names = some fields ↔
      AtMostOnce names members ∧ fields = names.map fun name => (given name members).head? := by
  have hreadable : (members.map fun member => (some member.1, member.2)).all
      (fun member => member.1.isSome) = true := by
    simp
  have honce : (names.all fun name => (members.map fun member => (some member.1, member.2)).countP
      (fun member => member.1 = some name) ≤ 1) = true ↔ AtMostOnce names members := by
    simp only [countP_record, List.all_eq_true, decide_eq_true_eq, AtMostOnce]
  rw [record, fields?, hreadable, Bool.true_and]
  split_ifs with h
  · simp [honce.mp h, member?_record, eq_comm]
  · simp [mt honce.mpr h]

theorem exists_eq_map_some {members : List (Option String × Json)}
    (h : ∀ member ∈ members, member.1 ≠ none) :
    ∃ named : List (String × Json),
      members = named.map fun member => (some member.1, member.2) := by
  induction members with
  | nil => exact ⟨[], rfl⟩
  | cons member members ih =>
      obtain ⟨hmember, hmembers⟩ := List.forall_mem_cons.mp h
      obtain ⟨named, rfl⟩ := ih hmembers
      obtain ⟨key, value⟩ := member
      obtain ⟨name, rfl⟩ := Option.ne_none_iff_exists'.mp hmember
      exact ⟨(name, value) :: named, rfl⟩

/-- An object with a name that is not readable has no fields. -/
theorem fields?_eq_none_of_unreadable {members : List (Option String × Json)}
    (h : ∃ member ∈ members, member.1 = none) : (object members).fields? names = none := by
  obtain ⟨member, hmem, hnone⟩ := h
  have hunreadable : members.all (fun member => member.1.isSome) = false :=
    List.all_eq_false.mpr ⟨member, hmem, by simp [hnone]⟩
  rw [fields?, hunreadable, Bool.false_and]
  rfl

/-! ## Records and arrays -/

theorem given_zip {items : List Json} (hnames : names.Nodup)
    (hlength : items.length ≤ names.length) :
    AtMostOnce names (names.zip items) ∧
      (names.map fun name => (given name (names.zip items)).head?) =
        items.map some ++ List.replicate (names.length - items.length) none := by
  induction names generalizing items with
  | nil =>
      obtain rfl := List.eq_nil_of_length_eq_zero (Nat.le_zero.mp hlength)
      exact ⟨by simp [AtMostOnce], rfl⟩
  | cons name names ih =>
      obtain ⟨hname, hnames⟩ := List.nodup_cons.mp hnames
      cases items with
      | nil => simp [AtMostOnce, given, List.replicate_succ, List.map_const']
      | cons item items =>
          obtain ⟨honce, hfields⟩ := ih hnames (Nat.le_of_succ_le_succ hlength)
          have hself : given name ((name, item) :: names.zip items) = [item] := by
            rw [given_cons, if_pos rfl, List.cons.injEq, List.eq_nil_iff_forall_not_mem]
            exact ⟨rfl, fun json hjson => hname (List.of_mem_zip (mem_given.mp hjson)).1⟩
          have hother : ∀ other ∈ names,
              given other ((name, item) :: names.zip items) = given other (names.zip items) := by
            intro other hother
            rw [given_cons, if_neg]
            rintro rfl
            exact hname hother
          rw [List.zip_cons_cons]
          constructor
          · intro other hmem
            obtain rfl | hmem := List.mem_cons.mp hmem
            · exact Nat.le_of_eq (congrArg List.length hself)
            · rw [hother other hmem]
              exact honce other hmem
          · have hrest := List.map_congr_left fun other hmem =>
              congrArg List.head? (hother other hmem)
            rw [List.map_cons, hself, hrest, hfields, List.length_cons, List.length_cons,
              Nat.add_sub_add_right]
            rfl

/-- A record holds each of its fields, in order. -/
theorem fields?_record (hnames : (members.map Prod.fst).Nodup) :
    (record members).fields? (members.map Prod.fst) =
      some (members.map fun member => some member.2) := by
  have hlength : (members.map Prod.snd).length = (members.map Prod.fst).length := by simp
  have hzip : (members.map Prod.fst).zip (members.map Prod.snd) = members :=
    (List.zip_of_prod rfl rfl).symm
  obtain ⟨honce, hfields⟩ := given_zip hnames (Nat.le_of_eq hlength)
  rw [hzip] at honce hfields
  apply fields?_eq_some_iff.mpr
  refine ⟨honce, ?_⟩
  rw [hfields, hlength, Nat.sub_self, List.replicate_zero, List.append_nil, List.map_map]
  rfl

/-- An array of at most as many items as there are fields gives the first fields their values. -/
theorem fields?_array {items : List Json} (hnames : names.Nodup)
    (hlength : items.length ≤ names.length) :
    (array items).fields? names = (record (names.zip items)).fields? names := by
  obtain ⟨honce, hfields⟩ := given_zip hnames hlength
  rw [fields?, if_pos hlength, ← hfields]
  exact (fields?_eq_some_iff.mpr ⟨honce, rfl⟩).symm

theorem fields?_array_of_lt {items : List Json} (h : names.length < items.length) :
    (array items).fields? names = none :=
  if_neg (Nat.not_le_of_lt h)

/-! ## Fields with a default -/

/-- The values under a field's name give the field its value: none at all gives the default, and a
single one gives what it stands for. -/
def Gives {α : Type} (stands : α → Json → Prop) (default : α) (values : List Json) (value : α) :
    Prop :=
  (values = [] ∧ value = default) ∨ ∃ json, values = [json] ∧ stands value json

section Gives

variable {α : Type} {stands : α → Json → Prop} {default value : α} {values others : List Json}

theorem gives_nil_iff : Gives stands default [] value ↔ value = default := by
  simp [Gives]

theorem gives_singleton_iff {json : Json} :
    Gives stands default [json] value ↔ stands value json := by
  simp [Gives]

theorem Gives.length_le (h : Gives stands default values value) : values.length ≤ 1 := by
  obtain ⟨rfl, -⟩ | ⟨json, rfl, -⟩ := h
  · exact Nat.zero_le 1
  · exact Nat.le_refl 1

theorem gives_congr (h : values.Perm others) :
    Gives stands default values value ↔ Gives stands default others value := by
  have hnil : values = [] ↔ others = [] := by
    rw [← List.perm_nil, ← List.perm_nil]
    exact ⟨h.symm.trans, h.trans⟩
  have hsingleton (json : Json) : values = [json] ↔ others = [json] := by
    rw [← List.perm_singleton, ← List.perm_singleton]
    exact ⟨h.symm.trans, h.trans⟩
  simp only [Gives, hnil, hsingleton]

theorem exists_gives_iff :
    (∃ value, Gives stands default values value) ↔
      values.length ≤ 1 ∧ ∀ json ∈ values, ∃ value, stands value json := by
  match values with
  | [] => simp [gives_nil_iff]
  | [json] => simp [gives_singleton_iff]
  | _ :: _ :: _ => simp [Gives]

variable [Codec α] (hstands : ∀ value json, Codec.decode? json = some value ↔ stands value json)

include hstands

theorem gives_iff_optional? :
    Gives stands default values value ↔
      values.length ≤ 1 ∧ optional? default values.head? = some value := by
  match values with
  | [] => simp [gives_nil_iff, optional?, eq_comm]
  | [json] => simp [gives_singleton_iff, optional?, hstands]
  | _ :: _ :: _ => simp [Gives]

/-- A member that holds the default of its field can be left out. -/
theorem gives_delete_iff {front back : List (String × Json)} {member : String × Json}
    {name : String} (honce : (given name (front ++ member :: back)).length ≤ 1)
    (hdefault : member.1 = name → stands default member.2) :
    Gives stands default (given name (front ++ member :: back)) value ↔
      Gives stands default (given name (front ++ back)) value := by
  by_cases hname : member.1 = name
  · subst hname
    obtain ⟨hwith, hwithout⟩ := given_eq_singleton honce
    rw [hwith, hwithout, gives_singleton_iff, gives_nil_iff, ← hstands,
      (hstands default member.2).mpr (hdefault rfl), Option.some.injEq, eq_comm]
  · rw [given_append, given_append, given_cons, if_neg hname]

end Gives

end Json
end TickGate
