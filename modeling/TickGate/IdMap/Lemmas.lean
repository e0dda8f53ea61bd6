import TickGate.IdMap.Basic

/-!
# Reading after writing

The laws of `IdMap` through its view `get?`.
-/

namespace TickGate
namespace IdMap

variable {β : Type}

theorem lookup_place_self (id : SourceId) (value : β) (entries : List (SourceId × β)) :
    lookup id (place id value entries) = some value := by
  induction entries with
  | nil => simp [place, lookup]
  | cons head rest ih =>
    rw [place]
    split
    · simp [lookup]
    · split
      · simp [lookup]
      next hne => simp [lookup, Ne.symm hne, ih]

theorem lookup_place_of_ne {id other : SourceId} (h : other ≠ id) (value : β)
    (entries : List (SourceId × β)) :
    lookup other (place id value entries) = lookup other entries := by
  induction entries with
  | nil => simp [place, lookup, Ne.symm h]
  | cons head rest ih =>
    rw [place]
    split
    · simp [lookup, Ne.symm h]
    · split
      next heq => simp [lookup, ← heq, Ne.symm h]
      · simp [lookup, ih]

/-- Reading after one write. -/
theorem get?_insert (map : IdMap β) (id other : SourceId) (value : β) :
    (map.insert id value).get? other = if other = id then some value else map.get? other := by
  split
  next h => subst h; exact lookup_place_self _ _ _
  next h => exact lookup_place_of_ne h _ _

@[simp] theorem get?_insert_self (map : IdMap β) (id : SourceId) (value : β) :
    (map.insert id value).get? id = some value := lookup_place_self _ _ _

@[simp] theorem get?_empty (id : SourceId) : (empty : IdMap β).get? id = none := rfl

theorem lookup_eq_none_of_lt {id : SourceId} {entries : List (SourceId × β)}
    (h : ∀ entry ∈ entries, id < entry.1) : lookup id entries = none := by
  induction entries with
  | nil => rfl
  | cons head rest ih =>
    have hne : head.1 ≠ id := fun heq =>
      String.lt_irrefl id (by simpa [heq] using h head List.mem_cons_self)
    simp [lookup, hne, ih fun entry hentry => h entry (List.mem_cons_of_mem _ hentry)]

theorem lookup_eq_some_iff {id : SourceId} {value : β} {entries : List (SourceId × β)}
    (h : entries.Pairwise (fun a b => a.1 < b.1)) :
    lookup id entries = some value ↔ (id, value) ∈ entries := by
  induction entries with
  | nil => simp [lookup]
  | cons head rest ih =>
    obtain ⟨hhead, hrest⟩ := List.pairwise_cons.1 h
    rw [lookup, List.mem_cons]
    split
    next heq =>
      subst heq
      constructor
      · intro hvalue
        exact .inl (Prod.ext rfl (Option.some.inj hvalue).symm)
      · rintro (hmem | hmem)
        · rw [← hmem]
        · exact absurd (hhead _ hmem) (String.lt_irrefl _)
    next hne =>
      rw [ih hrest]
      constructor
      · exact .inr
      · rintro (hmem | hmem)
        · exact absurd (by rw [← hmem]) hne
        · exact hmem

/-- A value is read exactly where the listing has its entry. -/
theorem get?_eq_some_iff {map : IdMap β} {id : SourceId} {value : β} :
    map.get? id = some value ↔ (id, value) ∈ map.entries :=
  lookup_eq_some_iff map.ascending

theorem entries_eq_of_lookup_eq {left right : List (SourceId × β)}
    (hleft : left.Pairwise (fun a b => a.1 < b.1)) (hright : right.Pairwise (fun a b => a.1 < b.1))
    (h : ∀ id, lookup id left = lookup id right) : left = right := by
  induction left generalizing right with
  | nil =>
    cases right with
    | nil => rfl
    | cons head rest => simpa [lookup] using h head.1
  | cons a as ih =>
    cases right with
    | nil => simpa [lookup] using h a.1
    | cons b bs =>
      obtain ⟨ha, has⟩ := List.pairwise_cons.1 hleft
      obtain ⟨hb, hbs⟩ := List.pairwise_cons.1 hright
      have hsome : (a.1, a.2) ∈ b :: bs :=
        (lookup_eq_some_iff hright).1 (by rw [← h]; simp [lookup])
      have hother : (b.1, b.2) ∈ a :: as :=
        (lookup_eq_some_iff hleft).1 (by rw [h]; simp [lookup])
      have hab : a = b := by
        rcases List.mem_cons.1 hsome with hsome | hsome
        · exact hsome
        · rcases List.mem_cons.1 hother with hother | hother
          · exact hother.symm
          · exact absurd (String.lt_trans (ha _ hother) (hb _ hsome)) (String.lt_irrefl _)
      subst hab
      congr 1
      refine ih has hbs fun id => ?_
      have hid := h id
      rw [lookup, lookup] at hid
      split at hid
      next heq =>
        subst heq
        rw [lookup_eq_none_of_lt ha, lookup_eq_none_of_lt hb]
      next => exact hid

/-- Maps that read alike are equal. -/
theorem ext {left right : IdMap β} (h : ∀ id, left.get? id = right.get? id) : left = right := by
  obtain ⟨left, hleft⟩ := left
  obtain ⟨right, hright⟩ := right
  have := entries_eq_of_lookup_eq hleft hright h
  subst this
  rfl

/-- A name is listed exactly where a value is read. -/
theorem mem_keys {map : IdMap β} {id : SourceId} : id ∈ map.keys ↔ (map.get? id).isSome := by
  rw [Option.isSome_iff_exists]
  simp only [get?_eq_some_iff, keys, List.mem_map, Prod.exists, exists_and_right, exists_eq_right]

/-- The names ascend strictly, so each stands once. -/
theorem keys_ascending (map : IdMap β) : map.keys.Pairwise (· < ·) := by
  rw [keys, List.pairwise_map]
  exact map.ascending

theorem keys_nodup (map : IdMap β) : map.keys.Nodup := by
  refine List.Pairwise.imp ?_ map.keys_ascending
  intro left right hlt heq
  exact String.lt_irrefl right (heq ▸ hlt)

theorem contains_iff {map : IdMap β} {id : SourceId} :
    map.contains id = true ↔ id ∈ map.keys := by
  rw [mem_keys, contains]

theorem length_place (id : SourceId) (value : β) {entries : List (SourceId × β)}
    (h : entries.Pairwise (fun a b => a.1 < b.1)) :
    (place id value entries).length =
      entries.length + if (lookup id entries).isSome then 0 else 1 := by
  induction entries with
  | nil => rfl
  | cons head rest ih =>
    obtain ⟨hhead, hrest⟩ := List.pairwise_cons.1 h
    rw [place]
    split
    next hlt =>
      have habsent : lookup id (head :: rest) = none :=
        lookup_eq_none_of_lt (List.forall_mem_cons.2
          ⟨hlt, fun entry hentry => String.lt_trans hlt (hhead entry hentry)⟩)
      simp [habsent]
    next hlt =>
      split
      next heq => simp [lookup, heq]
      next hne => simp [lookup, Ne.symm hne, ih hrest, Nat.add_right_comm]

/-- A write makes a map larger by one, unless the name held a value. -/
theorem size_insert (map : IdMap β) (id : SourceId) (value : β) :
    (map.insert id value).size = map.size + if (map.get? id).isSome then 0 else 1 :=
  length_place id value map.ascending

/-- Writing a value that is there already changes nothing. -/
theorem insert_eq_self {map : IdMap β} {id : SourceId} {value : β}
    (h : map.get? id = some value) : map.insert id value = map := by
  refine ext fun other => ?_
  rw [get?_insert]
  split
  next heq => rw [heq, h]
  next => rfl

end IdMap
end TickGate
