import TickGate.Proofs.Registry.Gating

/-!
# The sources that are missing

The sources that are expected and the values of the tick are kept apart, and a source is missing if
it is among the first and has none of the second.  Here is what each operation does to the missing
sources: when a tick begins all that are expected are missing, an accepted publish takes its source
off the list and a failed one none, and a declaration adds its source if it is new and silent.  What
is expected only ever grows, in ticks that are run as well.  Main statement:
`missing_follows_calls`.
-/

namespace TickGate
namespace Registry

variable {registry : Registry} {id : SourceId} {value : Bool} {tick : Tick}

/-! ## The list of missing sources -/

theorem missing_nodup : registry.missing.Nodup := registry.declared.keys_nodup.filter _

theorem notMem_missing_of_notMem (h : id ∉ registry.declared.keys) : id ∉ registry.missing :=
  fun hmem => h (mem_missing.1 hmem).1

/-! ## Beginning a tick -/

theorem missing_beginTick :
    (registry.beginTick tick).value.missing = registry.declared.keys := by
  simp [missing]

/-! ## Publishing -/

theorem missing_countDuplicate : registry.countDuplicate.missing = registry.missing := rfl

theorem missing_store : (registry.store id value).missing = registry.missing.erase id := by
  have hfilter : (registry.store id value).missing = registry.missing.filter (· != id) := by
    rw [missing, missing, List.filter_filter]
    refine List.filter_congr fun other _ => ?_
    rw [store_read]
    by_cases hother : other = id <;> simp [hother]
  rw [hfilter, missing_nodup.erase_eq_filter]

theorem missing_publish_of_ok (h : (registry.publish id value).value.1 = .ok ()) :
    (registry.publish id value).value.2.missing = registry.missing.erase id := by
  obtain ⟨tick, -, hnext | hnext⟩ := publish_accepted_cases h
  · rw [hnext, missing_store]
  · rw [hnext, missing_store, missing_countDuplicate]

theorem missing_publish_of_error {fault : Fault}
    (h : (registry.publish id value).value.1 = .error fault) :
    (registry.publish id value).value.2.missing = registry.missing := by
  rcases publish_refused_cases h with ⟨-, -, hnext⟩ | ⟨-, -, hnext⟩
  · rw [hnext]
  · rw [hnext, missing_countDuplicate]

/-! ## Declaring -/

/-- Declaring a source again changes nothing. -/
theorem declare_of_known (h : (registry.declare id).1 = false) :
    (registry.declare id).2 = registry := by
  have hmem : id ∈ registry.declared.keys := by
    by_contra hnot
    rw [declare_fst.2 hnot] at h
    exact Bool.noConfusion h
  obtain ⟨_, hget⟩ := Option.isSome_iff_exists.1 (IdMap.mem_keys.1 hmem)
  have hsame : registry.declared.insert id () = registry.declared := IdMap.insert_eq_self hget
  simp only [declare, hsame]

theorem mem_missing_declare {other : SourceId} :
    other ∈ (registry.declare id).2.missing ↔
      other ∈ registry.missing ∨ other = id ∧ registry.read id = none := by
  rw [mem_missing, mem_missing, mem_declare, declare_read]
  constructor
  · rintro ⟨rfl | hmem, hread⟩
    · exact .inr ⟨rfl, hread⟩
    · exact .inl ⟨hmem, hread⟩
  · rintro (⟨hmem, hread⟩ | ⟨rfl, hread⟩)
    · exact ⟨.inr hmem, hread⟩
    · exact ⟨.inl rfl, hread⟩

/-- A new source was not missing and is now if it is silent, and no other source is affected. -/
theorem missing_declare_of_new (h : (registry.declare id).1 = true) :
    id ∉ registry.missing ∧
      (id ∈ (registry.declare id).2.missing ↔ registry.read id = none) ∧
      ∀ other, other ≠ id →
        (other ∈ (registry.declare id).2.missing ↔ other ∈ registry.missing) := by
  have hnot : id ∉ registry.missing := notMem_missing_of_notMem (declare_fst.1 h)
  refine ⟨hnot, ?_, ?_⟩
  · rw [mem_missing_declare, or_iff_right hnot, eq_self, true_and]
  · intro other hother
    rw [mem_missing_declare, or_iff_left (fun hid => hother hid.1)]

/-! ## Runs -/

/-- A script declares nothing but what its calls declare, within the ticks that it runs as well. -/
theorem mem_declared_of_script (script : Script) (registry : Registry) :
    id ∈ (script.final registry).declared.keys ↔
      id ∈ registry.declared.keys ∨ .declare id ∈ (script.entries registry).map Prod.fst := by
  rw [← (script.leads registry).final, mem_declared_final, or_comm]

/-- Wherever calls of a new registry lead, the missing sources ascend strictly and are those that
have been declared and are silent since a tick began last, and the registry is complete if there are
none.  A declaration answers whether its source is new, which is then missing if it is silent; an
accepted publish takes its source off the list, a failed one leaves the list as it is, and when a
tick begins all that is declared is missing.  Nothing that is declared is ever dropped: whatever a
host does next, ticks that it runs included, adds the sources that it declares, and a tick leaves
the registry that its publishing left. -/
theorem missing_follows_calls (rule : DuplicateRule) (calls : List Call) :
    let registry := Session.final perform (Registry.new rule) calls
    (registry.missing.Pairwise (· < ·) ∧ registry.missing.Nodup ∧
      (∀ id, id ∈ registry.missing ↔ id ∈ registry.declared.keys ∧ registry.read id = none) ∧
      (registry.isComplete = true ↔ registry.missing = [])) ∧
    ((∀ id, id ∈ registry.declared.keys ↔ .declare id ∈ calls) ∧
      ∀ id, registry.read id = none ↔ id ∉ sourcesOf (publishes calls)) ∧
    (∀ id,
      let out := registry.declare id
      (out.1 = true ↔ id ∉ registry.declared.keys) ∧
      (∀ other, other ∈ out.2.declared.keys ↔ other = id ∨ other ∈ registry.declared.keys) ∧
      (out.1 = true →
        id ∉ registry.missing ∧ (id ∈ out.2.missing ↔ registry.read id = none) ∧
          ∀ other, other ≠ id → (other ∈ out.2.missing ↔ other ∈ registry.missing)) ∧
      (out.1 = false → out.2 = registry)) ∧
    (∀ id value,
      let out := (registry.publish id value).value
      out.2.declared = registry.declared ∧
      (out.1 = .ok () →
        out.2.missing = registry.missing.erase id ∧ id ∉ out.2.missing ∧
          (id ∉ registry.declared.keys → out.2.missing = registry.missing)) ∧
      ∀ fault, out.1 = .error fault → out.2.missing = registry.missing) ∧
    (∀ tick,
      let next := (registry.beginTick tick).value
      next.declared = registry.declared ∧ next.missing = registry.declared.keys) ∧
    (∀ script : Script,
      Session.Leads perform registry (script.entries registry) (script.final registry) ∧
      ∀ id, id ∈ (script.final registry).declared.keys ↔
        id ∈ registry.declared.keys ∨ .declare id ∈ (script.entries registry).map Prod.fst) ∧
    ∀ {σ ρ : Type} (tick : Tick)
      (publish : Registry → σ → Traced (Except Fault Unit × Registry × σ))
      (decide : Registry → σ → Traced (ρ × σ)) (host : σ),
      (registry.runTick tick publish decide host).value.2.1 =
        (publish (registry.beginTick tick).value host).value.2.1 := by
  intro registry
  refine ⟨⟨missing_ascending, missing_nodup, fun id => mem_missing, isComplete_iff⟩, ⟨?_, ?_⟩, ?_,
    ?_, ?_, ?_, runTick_value_registry registry⟩
  · intro id
    rw [mem_declared_final]
    exact or_iff_left List.not_mem_nil
  · intro id
    exact (tracks_session rule calls).read_eq_none_iff
  · intro id out
    exact ⟨declare_fst, fun other => mem_declare, missing_declare_of_new, declare_of_known⟩
  · intro id value out
    refine ⟨publish_declared, ?_, fun fault => missing_publish_of_error⟩
    intro hok
    have hmissing : out.2.missing = registry.missing.erase id := missing_publish_of_ok hok
    refine ⟨hmissing, ?_, ?_⟩
    · rw [hmissing]
      exact missing_nodup.not_mem_erase
    · intro hnot
      rw [hmissing, List.erase_of_not_mem (notMem_missing_of_notMem hnot)]
  · intro tick next
    exact ⟨beginTick_declared, missing_beginTick⟩
  · intro script
    exact ⟨script.leads registry, fun id => mem_declared_of_script script registry⟩

/-- One source has published before it is declared, another publishes undeclared, one that is
expected publishes, and one publishes again. -/
theorem missing_follows_calls_of_late_declaration :
    let registry := Session.final perform (Registry.new .reject)
      [.declare "b", .declare "a", .beginTick 3, .publish "c" true]
    let late := registry.declare "c"
    let again := registry.declare "a"
    let undeclared := (registry.publish "d" true).value
    let expected := (registry.publish "b" false).value
    let repeated := (registry.publish "c" false).value
    registry.missing = ["a", "b"] ∧
    (late.1 = true ∧ "c" ∉ late.2.missing ∧ "b" ≠ "c" ∧ "b" ∈ late.2.missing) ∧
    (again.1 = false ∧ again.2 = registry) ∧
    (undeclared.1 = .ok () ∧ "d" ∉ registry.declared.keys ∧
      undeclared.2.missing = registry.missing) ∧
    (expected.1 = .ok () ∧ expected.2.missing = registry.missing.erase "b") ∧
    (repeated.1 = .error (.duplicatePublish "c" 3) ∧
      repeated.2.missing = registry.missing) := by
  intro registry late again undeclared expected repeated
  obtain ⟨-, -, hdeclare, hpublish, -⟩ := missing_follows_calls .reject
    [.declare "b", .declare "a", .beginTick 3, .publish "c" true]
  have hmissing : registry.missing = ["a", "b"] := by decide
  have hlate : late.1 = true := by decide
  have hagain : again.1 = false := by decide
  have hother : "b" ≠ "c" := by decide
  have hnot : "d" ∉ registry.declared.keys := by decide
  have hread : registry.read "c" ≠ none := by decide
  have hmem : "b" ∈ registry.missing := by decide
  obtain ⟨-, -, hnew, -⟩ := hdeclare "c"
  obtain ⟨-, hadded, hkept⟩ := hnew hlate
  obtain ⟨-, -, -, hknown⟩ := hdeclare "a"
  obtain ⟨-, hundeclared, -⟩ := hpublish "d" true
  obtain ⟨-, -, hunexpected⟩ := hundeclared rfl
  obtain ⟨-, hexpected, -⟩ := hpublish "b" false
  obtain ⟨-, -, hrepeated⟩ := hpublish "c" false
  refine ⟨hmissing, ⟨hlate, mt hadded.1 hread, hother, (hkept "b" hother).2 hmem⟩,
    ⟨hagain, hknown hagain⟩, ⟨rfl, hnot, hunexpected hnot⟩, ⟨rfl, (hexpected rfl).1⟩,
    ⟨rfl, hrepeated _ rfl⟩⟩

end Registry
end TickGate
