import TickGate.Proofs.Record.Reading

/-!
# The output of a scenario tells its records

A journal, the log and a printed text receive the same records of a run.  The records are such that
the text falls apart into them again, and from the two messages of a tick the payload's word and its
parity are read.  Main statement: `output_tells_records`.
-/

namespace TickGate

/-! ## Events for information -/

/-- The events for information, the earliest first. -/
def Event.infos (events : Array Event) : List Event :=
  events.toList.filter fun event => event.severity = .info

theorem Event.infos_append (front back : Array Event) :
    infos (front ++ back) = infos front ++ infos back := by
  rw [infos, Array.toList_append, List.filter_append]
  rfl

theorem Registry.infos_publish (registry : Registry) (id : SourceId) (value : Bool) :
    Event.infos (registry.publish id value).events = [] := by
  rw [Registry.publish]
  split
  · rfl
  · split
    · rfl
    · rfl
    · rfl

theorem Trigger.infos_decide {ρ : Type} [View ρ] (trigger : Trigger) (view : ρ) (tick : Tick) :
    Event.infos (trigger.decide view tick).events = [] := by
  rw [Trigger.decide]
  split
  · rfl
  · rfl

/-- A gate that is called in a new tick reports what its action reports, if it runs. -/
theorem Gate.infos_fire {ρ σ α : Type} [View ρ] {gate : Gate} {view : ρ} {tick : Tick}
    (hlast : gate.lastFired ≠ some tick) (action : σ → Traced (α × σ)) (host : σ) :
    Event.infos (gate.fire view tick action host).events =
      if gate.trigger.decision view tick = true then Event.infos (action host).events else [] := by
  by_cases hdecision : gate.trigger.decision view tick = true
  · rw [if_pos hdecision, fire_events_of_decision_true hlast hdecision, Event.infos_append,
      Trigger.infos_decide, List.nil_append]
  · have hfalse : gate.trigger.decision view tick = false := Bool.eq_false_of_not_eq_true hdecision
    rw [if_neg hdecision, fire_events_of_decision_false hlast hfalse, Trigger.infos_decide]

namespace Scenario

/-! ## The events of a run -/

section Events

theorem infos_publish {ρ : Type} (wired : Bool) (tick : Tick) (registry : Registry)
    (scope : Scope ρ) :
    Event.infos (Scenario.publish wired tick registry scope).events = [] := by
  rw [Scenario.publish]
  split
  · simp only [Source.publish, Traced.bind_events, Traced.pure_events, Array.append_empty]
    exact Registry.infos_publish ..
  · rfl

variable {π : Type} [Payload π] {scenario : Scenario} {payload : π} {recorder : EventStream}
  {n : ℕ}

/-- The log receives the records of a tick as the recorder does. -/
theorem infos_decide (word : UInt16) {registry : Registry} (scope : Scope EventStream)
    (hparent : Gate.CalledBelow scenario.sharedTrigger scenario.Emits n scope.parent)
    (hchild : Gate.CalledBelow scenario.sharedTrigger scenario.Emits n scope.child)
    (hn : n < Count.limit.toNat)
    (hdecision : scenario.sharedTrigger.decision registry (.ofNat n) = true ↔ scenario.Emits n) :
    Event.infos (decide (.ofNat n) word registry scope).events =
      (if scenario.Emits n then recordsOf (.ofNat n) word else []).map Event.recorded := by
  obtain ⟨source, parent, child, recorder⟩ := scope
  have hparentTrigger : parent.trigger = scenario.sharedTrigger := hparent.trigger
  have hchildTrigger : child.trigger = scenario.sharedTrigger := hchild.trigger
  simp only [decide, Traced.bind_events, Traced.pure_events, Array.append_empty,
    Event.infos_append, Gate.infos_fire (hparent.lastFired_ne hn),
    Gate.infos_fire (hchild.lastFired_ne hn), hparentTrigger, hchildTrigger, hdecision]
  by_cases hemits : scenario.Emits n
  · rw [if_pos hemits, if_pos hemits, if_pos hemits, recordsOf_eq]
    rfl
  · rw [if_neg hemits, if_neg hemits, if_neg hemits]
    rfl

theorem RunAt.infos_step {run : Run π EventStream}
    (h : RunAt scenario payload recorder n run) (hn : n < Count.limit.toNat) :
    Event.infos (Scenario.step scenario.wired (.ofNat n) run).events =
      (if scenario.Emits n then recordsOf (.ofNat n) (Payload.word payload n) else []).map
        Event.recorded := by
  obtain ⟨registry, source, hpublish, hpublished⟩ := publish_value h.registry hn h.source
  have hrun := Registry.runTick_events_of_complete hpublish hpublished.missing
    (Scenario.decide (.ofNat n) (Payload.word payload n))
  have hdecide := infos_decide (Payload.word payload n) { run.scope with source } h.parent h.child
    hn hpublished.decision
  simp only [Scenario.step]
  rw [h.payload, Payload.next_after, Traced.bind_events, hrun, Traced.pure_events,
    Array.append_empty, Event.infos_append, Event.infos_append, infos_publish, hdecide]
  rfl

/-- What is reported for information in a run are the records that it makes. -/
theorem RunAt.infos_ticks {run : Run π EventStream} {count : ℕ}
    (h : RunAt scenario payload recorder n run) (hcount : n + count = scenario.cycles.toNat)
    (events : Array Event)
    (hevents : Event.infos events = (scenario.recordsBelow payload n).map Event.recorded) :
    Event.infos (Scenario.ticks scenario.wired count (.ofNat n) ⟨run, events⟩).events =
      (scenario.recordsBelow payload scenario.cycles.toNat).map Event.recorded := by
  induction count generalizing n run events with
  | zero =>
      rw [Nat.add_zero] at hcount
      rw [← hcount]
      exact hevents
  | succ count ih =>
      have hcycles := Count.toNat_le_limit scenario.cycles
      have hn : n < Count.limit.toNat := by omega
      obtain ⟨next, hstep, hnext⟩ := h.step hn
      have htick : UInt64.ofNat n + 1 = .ofNat (n + 1) := (UInt64.ofNat_add n 1).symm
      rw [ticks_succ_of_ok hstep, htick]
      refine ih hnext (by omega) _ ?_
      rw [Event.infos_append, hevents, h.infos_step hn, recordsBelow_succ, List.map_append]

theorem infos_run (scenario : Scenario) (payload : π) (recorder : EventStream) :
    Event.infos (scenario.run payload recorder).events =
      (scenario.recordsBelow payload scenario.cycles.toNat).map Event.recorded := by
  let starting : Array Event :=
    #[.scenarioStarting scenario.window.low scenario.window.high scenario.cycles
      scenario.options.policy scenario.options.edgeMode scenario.wired]
  have hzero := runAt_zero scenario payload recorder
  obtain ⟨last, hticks, hlast⟩ := hzero.ticks (Nat.zero_add _) starting
  have hinfos := hzero.infos_ticks (Nat.zero_add _) starting rfl
  have hnat : UInt64.ofNat 0 = 0 := rfl
  rw [hnat] at hticks hinfos
  rw [Scenario.run, trigger_eq]
  simp only [Traced.bind_events]
  rw [hticks]
  simp only [Traced.bind_events, Traced.pure_events, Array.append_empty, Event.infos_append]
  rw [hinfos]
  exact List.append_nil _

end Events

/-! ## The messages of a tick -/

/-- What follows a label at the beginning of a message. -/
def afterLabel? (label message : String) : Option (List Char) :=
  message.toList.dropPrefix? label.toList

/-- The word that the parent's message says. -/
def wordOf? (message : String) : Option UInt16 :=
  ((afterLabel? "lfsr = 0x" message).bind (Text.numeralBelow? 16 (2 ^ 16))).map UInt16.ofNat

/-- The parity that the child's message says. -/
def parityOf? (message : String) : Option ℕ :=
  (afterLabel? "parity = " message).bind (Text.numeralBelow? 10 2)

theorem afterLabel?_append (label : String) (digits : List Char) :
    afterLabel? label (label ++ .ofList digits) = some digits := by
  rw [afterLabel?, List.dropPrefix?_eq_some_iff]
  exact ⟨label.toList, by simp, beq_self_eq_true _⟩

theorem parentRecord_message (tick : Tick) (word : UInt16) :
    (parentRecord tick word).message =
      "lfsr = 0x" ++ String.ofList (Text.hexadecimal4 word.toNat) := rfl

theorem childRecord_message (tick : Tick) (word : UInt16) :
    (childRecord tick word).message =
      "parity = " ++ String.ofList (Text.decimal (parity word)) := rfl

theorem parity_lt (word : UInt16) : parity word < 2 := Nat.mod_lt _ (by decide)

theorem wordOf?_parentRecord (tick : Tick) (word : UInt16) :
    wordOf? (parentRecord tick word).message = some word := by
  have hword : Text.numeralBelow? 16 (2 ^ 16) (Text.hexadecimal4 word.toNat) = some word.toNat := by
    rw [Text.numeralBelow?, Text.numeral?_hexadecimal4, Option.filter_some, if_pos]
    exact decide_eq_true word.toNat_lt
  rw [wordOf?, parentRecord_message, afterLabel?_append, Option.bind_some, hword, Option.map_some,
    UInt16.ofNat_toNat]

theorem parityOf?_childRecord (tick : Tick) (word : UInt16) :
    parityOf? (childRecord tick word).message = some (ones word % 2) := by
  rw [parityOf?, childRecord_message, afterLabel?_append, Option.bind_some, Text.numeralBelow?,
    Text.numeral?_decimal, Option.filter_some, if_pos, parity_eq]
  exact decide_eq_true (parity_lt word)

/-! ## The records of a run -/

theorem readable_parentRecord (tick : Tick) (word : UInt16) :
    (parentRecord tick word).Readable where
  scope_ends := (by decide : ¬ [':', ' '] <:+: parentScope.toList)
  scope_line := (by decide : '\n' ∉ parentScope.toList)
  message_line := by
    have hdigits : '\n' ∉ Text.hexadecimal4 word.toNat := fun hmem =>
      Text.digitValue?_ne_none_of_mem (Text.digitsValue?_hexadecimal4 word.toNat) hmem (by decide)
    rw [parentRecord_message]
    simp [hdigits]

theorem readable_childRecord (tick : Tick) (word : UInt16) :
    (childRecord tick word).Readable where
  scope_ends := (by decide : ¬ [':', ' '] <:+: childScope.toList)
  scope_line := (by decide : '\n' ∉ childScope.toList)
  message_line := by
    have hdigits : '\n' ∉ Text.decimal (parity word) := fun hmem =>
      absurd (Text.isDigit_of_mem_decimal hmem) (by decide)
    rw [childRecord_message]
    simp [hdigits]

/-- What each tick's two records say: the tick, the word and its parity. -/
def decode? : List Record → Option (List (Tick × UInt16 × ℕ))
  | [] => some []
  | first :: second :: rest =>
    if first.tick = second.tick ∧ first.scope = parentScope ∧ second.scope = childScope then do
      let word ← wordOf? first.message
      let parity ← parityOf? second.message
      let later ← decode? rest
      some ((first.tick, word, parity) :: later)
    else none
  | [_] => none

section Records

variable {π : Type} [Payload π] (scenario : Scenario) (payload : π) (n : ℕ)

/-- The ticks in which records are made. -/
def emitting : List ℕ := (List.range n).filter scenario.Emits

theorem length_emitting : (scenario.emitting n).length = Nat.count scenario.Emits n :=
  List.countP_eq_length_filter.symm

theorem recordsBelow_eq_flatMap :
    scenario.recordsBelow payload n =
      (scenario.emitting n).flatMap fun t => recordsOf (.ofNat t) (Payload.word payload t) := by
  rw [recordsBelow, emitting]
  induction List.range n with
  | nil => rfl
  | cons t rest ih =>
      by_cases hemits : scenario.Emits t
      · rw [List.flatMap_cons, if_pos hemits, ih, List.filter_cons_of_pos (by simpa using hemits),
          List.flatMap_cons]
      · rw [List.flatMap_cons, if_neg hemits, ih, List.filter_cons_of_neg (by simpa using hemits)]
        rfl

theorem readable_of_mem_recordsBelow {record : Record}
    (h : record ∈ scenario.recordsBelow payload n) : record.Readable := by
  rw [recordsBelow_eq_flatMap, List.mem_flatMap] at h
  obtain ⟨t, -, hmem⟩ := h
  rw [recordsOf_eq] at hmem
  rcases List.mem_pair.1 hmem with rfl | rfl
  · exact readable_parentRecord ..
  · exact readable_childRecord ..

theorem decode?_flatMap (ticks : List ℕ) (word : ℕ → UInt16) :
    decode? (ticks.flatMap fun t => recordsOf (.ofNat t) (word t)) =
      some (ticks.map fun t => (.ofNat t, word t, ones (word t) % 2)) := by
  induction ticks with
  | nil => rfl
  | cons t rest ih =>
      rw [List.flatMap_cons, recordsOf_eq, List.cons_append, List.cons_append, List.nil_append,
        decode?, if_pos ⟨rfl, rfl, rfl⟩, wordOf?_parentRecord, parityOf?_childRecord, ih]
      rfl

theorem kept_records :
    (scenario.run payload ({} : Journal)).value.2.2.records.toList =
      scenario.recordsBelow payload scenario.cycles.toNat := by
  rw [scenario.run_value payload ({} : Journal), Journal.toList_recordAll]
  rfl

theorem printed_run :
    LineWriter.Printed {} (scenario.recordsBelow payload scenario.cycles.toNat)
      (scenario.run payload ({} : LineWriter)).value.2.2 := by
  rw [scenario.run_value payload ({} : LineWriter)]
  exact LineWriter.printed_recordAll rfl _

/-- Whatever a scenario is run over, a journal, the log and a device that never fails receive the
same records: as they are, as events for information, and as lines of text.  The text falls apart
into lines that are read back as the records; the two messages of each tick say the payload's word
and its parity; and all counts agree.  So other records are never printed alike. -/
theorem output_tells_records (h : scenario.cycles.toNat < 2 ^ 63) :
    let kept := scenario.run payload ({} : Journal)
    let told := scenario.run payload ({} : EventStream)
    let printed := scenario.run payload ({} : LineWriter)
    let records := kept.value.2.2.records.toList
    let fired := scenario.emitting scenario.cycles.toNat
    ∃ (report : Report) (text : String) (lines : List (List Char)),
      (kept.value.1 = .ok report ∧ told.value.1 = .ok report ∧ printed.value.1 = .ok report) ∧
      (Event.infos told.events).map (fun event => (event.fields, event.message)) =
        records.map (fun record => ([("tick", .number record.tick.toNat),
          ("scope", .text record.scope)], record.message)) ∧
      printed.value.2.2.finish = .ok { accepted := text.toUTF8 } ∧
      text.toList.splitOn '\n' = lines ++ [[]] ∧
      (∀ record ∈ records, '\n' ∉ record.scope.toList ∧ '\n' ∉ record.message.toList) ∧
      lines.map Record.ofLine? = records.map some ∧
      decode? records = some (fired.map fun t =>
        (.ofNat t, Payload.word payload t, ones (Payload.word payload t) % 2)) ∧
      (report.parent.fired.toNat = fired.length ∧ report.child.fired.toNat = fired.length ∧
        records.length = report.parent.fired.toNat + report.child.fired.toNat ∧
        printed.value.2.2.written.toNat = records.length ∧ records.length < 2 ^ 64) ∧
      ∀ {π' : Type} [Payload π'] (other : Scenario) (system : π'),
        (other.run system ({} : LineWriter)).value.2.2.device.accepted =
          printed.value.2.2.device.accepted →
        (other.run system ({} : Journal)).value.2.2.records.toList = records := by
  intro kept told printed records fired
  let cycles := scenario.cycles.toNat
  have hrecords : records = scenario.recordsBelow payload cycles := scenario.kept_records payload
  have hprinted : LineWriter.Printed {} records printed.value.2.2 :=
    hrecords ▸ scenario.printed_run payload
  have hreadable : ∀ record ∈ records, record.Readable :=
    fun record hmem => scenario.readable_of_mem_recordsBelow payload cycles (hrecords ▸ hmem)
  have hlengthFired : fired.length = Nat.count scenario.Emits cycles :=
    scenario.length_emitting cycles
  have hfired : (scenario.reportOf payload).parent.fired.toNat = fired.length :=
    (scenario.reportOf_fired_toNat payload).trans hlengthFired.symm
  have hlength : records.length = 2 * fired.length := by
    rw [hrecords, hlengthFired, length_recordsBelow]
  have hcounted : records.length < 2 ^ 64 := by
    have hcount : fired.length ≤ cycles := by
      rw [hlengthFired]
      exact Nat.count_le scenario.Emits
    omega
  have hfits : ({} : Device).Fits (LineWriter.bytes records).size :=
    Device.fits_of_capacity_eq_none rfl _
  refine ⟨scenario.reportOf payload, LineWriter.text records,
    records.map fun record => record.line.toList, ⟨?_, ?_, ?_⟩, ?_, ?_,
    LineWriter.splitOn_text hreadable, ?_, LineWriter.map_ofLine?_lines hreadable, ?_,
    ⟨hfired, hfired, ?_, ?_, hcounted⟩, ?_⟩
  · exact congrArg Prod.fst (scenario.run_value payload ({} : Journal))
  · exact congrArg Prod.fst (scenario.run_value payload ({} : EventStream))
  · exact congrArg Prod.fst (scenario.run_value payload ({} : LineWriter))
  · rw [infos_run, ← hrecords, List.map_map]
    rfl
  · rw [hprinted.finish, if_neg (not_not.2 hfits)]
    rfl
  · intro record hmem
    exact ⟨(hreadable record hmem).scope_line, (hreadable record hmem).message_line⟩
  · rw [hrecords, recordsBelow_eq_flatMap]
    exact decode?_flatMap fired (Payload.word payload)
  · show records.length = (scenario.reportOf payload).parent.fired.toNat +
      (scenario.reportOf payload).parent.fired.toNat
    rw [hfired, hlength, Nat.two_mul]
  · rw [hprinted.written_of_fits hfits, UInt64.toNat_ofNat_of_lt' hcounted]
  · intro π' _ other system hsame
    have hotherPrinted := other.printed_run system
    rw [hotherPrinted.device, hprinted.device] at hsame
    rw [other.kept_records system]
    refine LineWriter.eq_of_bytes_eq (fun record hmem => ?_) hreadable hsame
    exact other.readable_of_mem_recordsBelow system _ hmem

/-- Two of three ticks, with the words that they make of the seed one. -/
theorem output_tells_records_of_two_ticks :
    let scenario : Scenario := { Scenario.default .debug with window := ⟨1, 2⟩, cycles := 3 }
    let payload := ShiftRegister.ofSeed 1
    let records := (scenario.run payload ({} : Journal)).value.2.2.records.toList
    let printed := (scenario.run payload ({} : LineWriter)).value.2.2
    scenario.cycles.toNat < 2 ^ 63 ∧ decode? records = some [(1, 0x4000, 1), (2, 0x2000, 1)] ∧
      (Event.infos (scenario.run payload ({} : EventStream)).events).length = 4 ∧
      printed.written.toNat = 4 ∧
      ∃ (text : String) (lines : List (List Char)),
        printed.finish = .ok { accepted := text.toUTF8 } ∧
        text.toList.splitOn '\n' = lines ++ [[]] ∧ lines.map Record.ofLine? = records.map some := by
  intro scenario payload records printed
  have hcycles : scenario.cycles.toNat < 2 ^ 63 := by decide
  obtain ⟨report, text, lines, -, hinfos, hfinish, hsplit, -, hread, hdecode,
    ⟨hparent, hchild, hlength, hwritten, -⟩, -⟩ := output_tells_records scenario payload hcycles
  have hfired : (scenario.emitting scenario.cycles.toNat).length = 2 := by decide +kernel
  have hrecords : records.length = 4 := by
    rw [hlength, hparent, hchild, hfired]
  refine ⟨hcycles, hdecode.trans (by decide +kernel), ?_, hwritten.trans hrecords, text, lines,
    hfinish, hsplit, hread⟩
  have hevents := congrArg List.length hinfos
  rw [List.length_map, List.length_map] at hevents
  exact hevents.trans hrecords

end Records

end Scenario
end TickGate
