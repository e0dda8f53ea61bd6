import TickGate.Proofs.Scenario.Emission
import TickGate.Record.LineWriter

/-!
# Watching a payload does not change it

Settings decide which records are made, and a recorder what becomes of them.  Neither reaches the
payload, which advances once in each tick, or the number of ticks; and what a recorder does with the
records, be it to lose them, does not reach the report.
-/

namespace TickGate

/-! ## The lines of a line writer -/

namespace LineWriter

/-- How many of the lines of records a writer prints in full. -/
def lines (writer : LineWriter) : List Record → ℕ
  | [] => 0
  | record :: records =>
    let next := writer.print record
    (if next.failure = none then 1 else 0) + next.lines records

theorem lines_le_length (writer : LineWriter) (records : List Record) :
    writer.lines records ≤ records.length := by
  induction records generalizing writer with
  | nil => exact Nat.le_refl 0
  | cons record records ih =>
      have hrest := ih (writer.print record)
      rw [lines, List.length_cons]
      split <;> omega

/-- A line is counted if it is printed in full. -/
theorem written_print (writer : LineWriter) (record : Record) :
    (writer.print record).written =
      writer.written + .ofNat (if (writer.print record).failure = none then 1 else 0) := by
  have hnothing : writer.written = writer.written + .ofNat 0 := (UInt64.add_zero _).symm
  rw [print]
  split
  next failure hfailure =>
    rw [hfailure]
    exact hnothing
  next hclear =>
    split
    · rw [hclear]
      rfl
    · exact hnothing

theorem written_recordAll (writer : LineWriter) (records : List Record) :
    (Recorder.recordAll writer records).written =
      writer.written + .ofNat (writer.lines records) := by
  induction records generalizing writer with
  | nil => exact (UInt64.add_zero _).symm
  | cons record records ih =>
      have hcons : Recorder.recordAll writer (record :: records) =
        Recorder.recordAll (writer.print record) records := rfl
      rw [hcons, ih, written_print, lines, UInt64.ofNat_add, UInt64.add_assoc]

end LineWriter

namespace Scenario

variable {π : Type} [Payload π]

/-- Two runs over one payload for the same number of ticks, with any settings and any recorders:
neither fails, both advance the payload once in each tick and report its last word, and both report
the same ticks.  With the same settings they make the same report, whatever the recorders do.  Where
the ticks are fewer than `2 ^ 63`, a line writer counts its lines exactly, on any device. -/
theorem observed_unchanged {ρ σ : Type} [Recorder ρ] [Recorder σ] (first second : Scenario)
    (payload : π) (recorder : ρ) (other : σ) (h : first.cycles = second.cycles)
    (hlimit : first.cycles.toNat < 2 ^ 63) :
    let cycles := first.cycles.toNat
    let advanced := (fun system => (Payload.next system).2)^[cycles] payload
    ∃ left right leftRecorder rightRecorder,
      (first.run payload recorder).value = (.ok left, advanced, leftRecorder) ∧
      (second.run payload other).value = (.ok right, advanced, rightRecorder) ∧
      left.finalPayload = Payload.lastWord payload cycles ∧
      right.finalPayload = Payload.lastWord payload cycles ∧
      left.ticks = first.cycles ∧ right.ticks = first.cycles ∧
      left.registry.ticks = first.cycles ∧ right.registry.ticks = first.cycles ∧
      (first = second → left = right) ∧
      ∀ device : Device,
        let writer : LineWriter := { device }
        (first.run payload writer).value.2.2.written.toNat =
          writer.lines (first.recordsBelow payload cycles) := by
  intro cycles advanced
  have hsecond : second.cycles.toNat = cycles := by rw [← h]
  refine ⟨first.reportOf payload, second.reportOf payload, _,
    Recorder.recordAll other (second.recordsBelow payload cycles),
    first.run_value payload recorder, ?_, rfl, ?_, rfl, h.symm, rfl, h.symm, ?_, ?_⟩
  · rw [second.run_value payload other, hsecond]
    rfl
  · rw [← hsecond]
    rfl
  · intro hsame
    rw [hsame]
  · intro device writer
    have hwritten : (Recorder.recordAll writer (first.recordsBelow payload cycles)).written =
        0 + .ofNat (writer.lines (first.recordsBelow payload cycles)) := writer.written_recordAll _
    have hlines := writer.lines_le_length (first.recordsBelow payload cycles)
    have hlength := first.length_recordsBelow payload cycles
    have hcount := Nat.count_le first.Emits (n := cycles)
    have hlt : writer.lines (first.recordsBelow payload cycles) < 2 ^ 64 := by omega
    rw [first.run_value payload writer]
    show (Recorder.recordAll writer (first.recordsBelow payload cycles)).written.toNat = _
    rw [hwritten, UInt64.zero_add, UInt64.toNat_ofNat_of_lt' hlt]

/-- Other settings, and a device that is full after twenty bytes in the place of a journal. -/
theorem observed_unchanged_by_full_device :
    let first : Scenario := { Scenario.default .debug with window := ⟨0, 1⟩, cycles := 3 }
    let second : Scenario := { Scenario.default .release with wired := false, cycles := 3 }
    let payload := ShiftRegister.ofSeed 1
    let device : Device := { capacity := some 20 }
    ∃ left right leftRecorder rightRecorder,
      (first.run payload ({ device } : LineWriter)).value = (.ok left, ⟨8192⟩, leftRecorder) ∧
      (second.run payload ({} : Journal)).value = (.ok right, ⟨8192⟩, rightRecorder) ∧
      left.finalPayload = 8192 ∧ right.finalPayload = 8192 ∧
      left.ticks = right.ticks ∧ leftRecorder.failure = some .full := by
  intro first second payload device
  have hpayload : (fun system : ShiftRegister => (Payload.next system).2)^[3] payload = ⟨8192⟩ := by
    decide
  have hword : Payload.lastWord payload 3 = 8192 := by decide
  have hfailure : (first.run payload ({ device } : LineWriter)).value.2.2.failure = some .full := by
    decide +kernel
  obtain ⟨left, right, leftRecorder, rightRecorder, hfirst, hsecond, hleft, hright, hticks, hsame,
    -⟩ := observed_unchanged first second payload ({ device } : LineWriter) ({} : Journal) rfl
      (by decide)
  have hcycles : first.cycles.toNat = 3 := rfl
  rw [hcycles, hpayload] at hfirst hsecond
  rw [hcycles, hword] at hleft hright
  rw [hfirst] at hfailure
  exact ⟨left, right, leftRecorder, rightRecorder, hfirst, hsecond, hleft, hright,
    hticks.trans hsame.symm, hfailure⟩

end Scenario
end TickGate
