import Mathlib.Order.Bounds.Defs
import TickGate.Proofs.Scenario.Emission
import TickGate.Record.LineWriter

/-!
# What a line writer leaves on its device

A device with a limit ends with the longest prefix of what it was offered, however the bytes were
divided into pieces and in whatever portions it took them: `Device.given` is the device in terms of
all bytes offered.  A line writer stops offering with the first line that is not taken whole; so it
counts the lines that fit, and that line's failure is the one that it reports in the end.  Main
statement: `prints_longest_prefix`.
-/

namespace TickGate

/-! ## Bytes on a device -/

theorem extract_zero_eq_extract_min (bytes : ByteArray) (limit : ℕ) :
    bytes.extract 0 limit = bytes.extract 0 (min limit bytes.size) := by
  calc bytes.extract 0 limit
      = (bytes.extract 0 bytes.size).extract 0 limit := by rw [ByteArray.extract_zero_size]
    _ = bytes.extract 0 (min limit bytes.size) := by
      rw [ByteArray.extract_extract, Nat.zero_add, Nat.zero_add]

namespace Device

/-- Whether so many bytes are within the limit. -/
def Fits (device : Device) (size : ℕ) : Prop :=
  ∀ limit, device.capacity = some limit → size ≤ limit

instance (device : Device) (size : ℕ) : Decidable (device.Fits size) :=
  match h : device.capacity with
  | none => isTrue fun limit hlimit => nomatch h.symm.trans hlimit
  | some limit =>
    decidable_of_iff (size ≤ limit) <| by simp [Fits, h]

/-- The device after bytes were offered to it when it was empty: it took those within the limit. -/
def given (device : Device) (offered : ByteArray) : Device :=
  { device with
    accepted :=
      match device.capacity with
      | none => offered
      | some limit => offered.extract 0 limit }

variable {device : Device} {offered : ByteArray}

theorem Fits.mono {size larger : ℕ} (h : device.Fits larger) (hle : size ≤ larger) :
    device.Fits size :=
  fun limit hlimit => hle.trans (h limit hlimit)

theorem fits_of_capacity_eq_none (h : device.capacity = none) (size : ℕ) : device.Fits size :=
  fun _ hlimit => nomatch h.symm.trans hlimit

theorem exists_limit_of_not_fits {size : ℕ} (h : ¬ device.Fits size) :
    ∃ limit, device.capacity = some limit ∧ limit < size := by
  simpa [Fits] using h

theorem given_of_fits (h : device.Fits offered.size) :
    device.given offered = { device with accepted := offered } := by
  cases hcapacity : device.capacity with
  | none => simp only [given, hcapacity]
  | some limit =>
      have hwhole : offered.extract 0 limit = offered := by
        rw [← Nat.max_eq_left (h limit hcapacity), ByteArray.extract_zero_max_size]
      simp only [given, hcapacity, hwhole]

theorem given_empty (h : device.accepted = .empty) : device.given .empty = device := by
  have hfits : device.Fits ByteArray.empty.size := fun limit _ => Nat.zero_le limit
  rw [given_of_fits hfits, ← h]

/-- A full device takes nothing more. -/
theorem given_append_of_full {limit : ℕ} (hcapacity : device.capacity = some limit)
    (hfull : limit ≤ offered.size) (bytes : ByteArray) :
    device.given (offered ++ bytes) = device.given offered := by
  simp only [given, hcapacity, ByteArray.extract_append, Nat.sub_eq_zero_of_le hfull,
    Nat.zero_sub, ByteArray.extract_same, ByteArray.append_empty]

theorem room_given (h : device.Fits offered.size) :
    (device.given offered).room = device.capacity.map (· - offered.size) := by
  rw [given_of_fits h, room]

/-- What a write does to a device that has taken all bytes so far. -/
theorem write_given (h : device.Fits offered.size) (bytes : ByteArray) :
    (device.given offered).write bytes =
      (if device.Fits (offered ++ bytes).size then .ok () else .error device.overflow,
        device.given (offered ++ bytes)) := by
  rw [given_of_fits h]
  cases hcapacity : device.capacity with
  | none =>
      have hfits := fits_of_capacity_eq_none hcapacity (offered ++ bytes).size
      rw [if_pos hfits, given_of_fits hfits]
      simp [write, room, hcapacity]
  | some limit =>
      have hle := h limit hcapacity
      have hiff : bytes.size ≤ limit - offered.size ↔ device.Fits (offered ++ bytes).size := by
        rw [ByteArray.size_append]
        constructor
        · intro hroom other hother
          obtain rfl := Option.some.inj (hcapacity.symm.trans hother)
          omega
        · intro hfits
          have hboth := hfits limit hcapacity
          omega
      by_cases hfits : device.Fits (offered ++ bytes).size
      · rw [if_pos hfits, given_of_fits hfits]
        simp [write, room, hcapacity, hiff.2 hfits]
      · have hwhole : offered.extract 0 limit = offered := by
          rw [← Nat.max_eq_left hle, ByteArray.extract_zero_max_size]
        rw [if_neg hfits]
        simp [write, room, hcapacity, mt hiff.1 hfits, given, ByteArray.extract_append, hwhole]

/-! ### Pieces and portions -/

/-- The bytes of pieces. -/
def whole (pieces : List ByteArray) : ByteArray := pieces.foldr (· ++ ·) .empty

/-- The device with more bytes accepted. -/
def take (device : Device) (bytes : ByteArray) : Device :=
  { device with accepted := device.accepted ++ bytes }

/-- Hands pieces to a device, one after the other, until it refuses a byte.  What is left of a piece
is offered again as long as the device takes some of it.  `offers` are the bytes offered each
time. -/
inductive Delivers : Device → List ByteArray → List ByteArray → Except Failure Unit → Device → Prop
  | done (device : Device) : Delivers device [] [] (.ok ()) device
  /-- A piece without bytes is not offered. -/
  | next {device after : Device} {pieces offers : List ByteArray} {answer : Except Failure Unit}
      (later : Delivers device pieces offers answer after) :
      Delivers device (.empty :: pieces) offers answer after
  /-- The device takes a portion of a piece, one that it has room for. -/
  | taken {device after : Device} {piece : ByteArray} {pieces offers : List ByteArray}
      {answer : Except Failure Unit} {portion : ℕ} (positive : 0 < portion)
      (part : portion ≤ piece.size) (fits : ∀ room, device.room = some room → portion ≤ room)
      (later : Delivers (device.take (piece.extract 0 portion))
        (piece.extract portion piece.size :: pieces) offers answer after) :
      Delivers device (piece :: pieces) (piece :: offers) answer after
  | refused {device : Device} {piece : ByteArray} {pieces : List ByteArray}
      (nonempty : piece ≠ .empty) (full : device.room = some 0) :
      Delivers device (piece :: pieces) [piece] (.error device.overflow) device

theorem room_take {room : ℕ} (h : device.room = some room) (bytes : ByteArray) :
    (device.take bytes).room = some (room - bytes.size) := by
  obtain ⟨limit, hcapacity, hlimit⟩ := Option.map_eq_some_iff.1 h
  simp only [Device.room, take, hcapacity, Option.map_some, ByteArray.size_append, ← hlimit,
    Nat.sub_sub]

theorem whole_cons (piece : ByteArray) (pieces : List ByteArray) :
    whole (piece :: pieces) = piece ++ whole pieces := rfl

/-- Taking a portion of what is offered leaves the device as if that were all that was offered. -/
theorem given_append_portion (h : device.Fits offered.size) {piece : ByteArray} {portion : ℕ}
    (part : portion ≤ piece.size)
    (fits : ∀ room, (device.given offered).room = some room → portion ≤ room) :
    device.Fits (offered ++ piece.extract 0 portion).size ∧
      (device.given offered).take (piece.extract 0 portion) =
        device.given (offered ++ piece.extract 0 portion) := by
  have hfits : device.Fits (offered ++ piece.extract 0 portion).size := by
    intro limit hlimit
    have hle := h limit hlimit
    have hroom := fits (limit - offered.size) (by rw [room_given h, hlimit]; rfl)
    rw [ByteArray.size_append, ByteArray.size_extract]
    omega
  refine ⟨hfits, ?_⟩
  rw [given_of_fits h, given_of_fits hfits, take]

/-- However pieces are divided, and in whatever portions the device takes them, it ends with what it
takes of all their bytes, and it refuses one of them exactly if they do not fit. -/
theorem Delivers.eq {start after : Device} {pieces offers : List ByteArray}
    {answer : Except Failure Unit} (h : Delivers start pieces offers answer after)
    (hfits : device.Fits offered.size) (hstart : start = device.given offered) :
    answer = (if device.Fits (offered ++ whole pieces).size then .ok ()
      else .error device.overflow) ∧
    after = device.given (offered ++ whole pieces) := by
  induction h generalizing offered with
  | done start =>
      have hwhole : offered ++ whole [] = offered := ByteArray.append_empty
      rw [hwhole, if_pos hfits]
      exact ⟨rfl, hstart⟩
  | next later ih =>
      rw [whole_cons, ByteArray.empty_append]
      exact ih hfits hstart
  | @taken start after piece pieces offers answer portion positive part fits later ih =>
      subst hstart
      obtain ⟨hmore, hportion⟩ := given_append_portion hfits part fits
      have hrest : (offered ++ piece.extract 0 portion) ++
          whole (piece.extract portion piece.size :: pieces) =
            offered ++ whole (piece :: pieces) := by
        rw [whole_cons, whole_cons, ByteArray.append_assoc, ← ByteArray.append_assoc
          (a := piece.extract 0 portion), ByteArray.extract_append_extract, Nat.zero_min,
          Nat.max_eq_right part, ByteArray.extract_zero_size]
      rw [← hrest]
      exact ih hmore hportion
  | @refused start piece pieces nonempty full =>
      subst hstart
      rw [room_given hfits] at full
      obtain ⟨limit, hcapacity, hlimit⟩ := Option.map_eq_some_iff.1 full
      have hsize : piece.size ≠ 0 := fun hzero => nonempty (ByteArray.size_eq_zero_iff.1 hzero)
      have hover : ¬ device.Fits (offered ++ whole (piece :: pieces)).size := by
        intro hall
        have hle := hall limit hcapacity
        rw [whole_cons, ByteArray.size_append, ByteArray.size_append] at hle
        omega
      rw [if_neg hover]
      exact ⟨rfl, (given_append_of_full hcapacity (Nat.le_of_sub_eq_zero hlimit) _).symm⟩

/-- A device can always be handed pieces: it may take as much of each as it has room for. -/
theorem exists_delivers (hfits : device.Fits offered.size) (pieces : List ByteArray) :
    ∃ offers answer after, Delivers (device.given offered) pieces offers answer after := by
  induction pieces generalizing offered with
  | nil => exact ⟨_, _, _, .done _⟩
  | cons piece pieces ih =>
      by_cases hempty : piece = .empty
      · subst hempty
        obtain ⟨offers, answer, after, hlater⟩ := ih hfits
        exact ⟨_, _, _, .next hlater⟩
      have hsize : piece.size ≠ 0 := fun hzero => hempty (ByteArray.size_eq_zero_iff.1 hzero)
      by_cases hall : ∀ room, (device.given offered).room = some room → piece.size ≤ room
      · obtain ⟨hmore, hportion⟩ := given_append_portion hfits le_rfl hall
        obtain ⟨offers, answer, after, hlater⟩ := ih hmore
        refine ⟨piece :: offers, answer, after, .taken (Nat.pos_of_ne_zero hsize) le_rfl hall ?_⟩
        rw [hportion, ByteArray.extract_same]
        exact .next hlater
      · push Not at hall
        obtain ⟨room, hroom, hlt⟩ := hall
        by_cases hzero : room = 0
        · subst hzero
          exact ⟨_, _, _, .refused hempty hroom⟩
        · have hsome : ∀ other, (device.given offered).room = some other → room ≤ other := by
            intro other hother
            exact (Option.some.inj (hroom.symm.trans hother)).le
          refine ⟨_, _, _, .taken (Nat.pos_of_ne_zero hzero) hlt.le hsome (.refused ?_ ?_)⟩
          · intro hrest
            have hleft := congrArg ByteArray.size hrest
            rw [ByteArray.size_extract, ByteArray.size_empty] at hleft
            omega
          · rw [room_take hroom, ByteArray.size_extract]
            congr 1
            omega

theorem Delivers.offers_ne_nil {start after : Device} {pieces offers : List ByteArray}
    {answer : Except Failure Unit} (h : Delivers start pieces offers answer after)
    (hbytes : whole pieces ≠ .empty) : offers ≠ [] := by
  induction h with
  | done start => exact absurd rfl hbytes
  | next later ih =>
      rw [whole_cons, ByteArray.empty_append] at hbytes
      exact ih hbytes
  | taken positive part fits later ih => exact List.cons_ne_nil _ _
  | refused nonempty full => exact List.cons_ne_nil _ _

end Device

/-! ## Lines -/

namespace LineWriter

/-- The lines of records, each ended by a newline. -/
def text (records : List Record) : String :=
  String.join (records.map fun record => record.line ++ "\n")

/-- The bytes of the lines of records. -/
def bytes (records : List Record) : ByteArray := (text records).toUTF8

theorem bytes_concat (records : List Record) (record : Record) :
    bytes (records ++ [record]) = bytes records ++ encode record := by
  simp [bytes, text, encode, String.join_append]

theorem bytes_take_succ {records : List Record} {n : ℕ} {record : Record}
    (h : records[n]? = some record) :
    bytes (records.take (n + 1)) = bytes (records.take n) ++ encode record := by
  rw [List.take_add_one, h, Option.toList_some, bytes_concat]

/-- More records have more bytes. -/
theorem size_bytes_take_mono (records : List Record) {m n : ℕ} (h : m ≤ n) :
    (bytes (records.take m)).size ≤ (bytes (records.take n)).size := by
  induction n, h using Nat.le_induction with
  | base => exact le_rfl
  | succ n hle ih =>
      refine ih.trans ?_
      cases hn : records[n]? with
      | none => rw [List.take_add_one, hn, Option.toList_none, List.append_nil]
      | some record =>
          rw [bytes_take_succ hn, ByteArray.size_append]
          exact Nat.le_add_right _ _

/-- What a line writer holds after records: the bytes that its device took of their lines, the first
failure, and how many of the lines fit, as far as a word can count them. -/
structure Printed (start : Device) (records : List Record) (writer : LineWriter) : Prop where
  device : writer.device = start.given (bytes records)
  failure : writer.failure = if start.Fits (bytes records).size then none else some start.overflow
  written : ∃ count, writer.written = .ofNat count ∧
    IsGreatest {j | j ≤ records.length ∧ start.Fits (bytes (records.take j)).size} count

variable {start : Device} {records : List Record} {writer : LineWriter}

/-- With a line that does not fit, the lines that do are those before. -/
theorem isGreatest_concat_of_not_fits {count : ℕ}
    (h : IsGreatest {j | j ≤ records.length ∧ start.Fits (bytes (records.take j)).size} count)
    {record : Record} (hmore : ¬ start.Fits (bytes (records ++ [record])).size) :
    IsGreatest {j | j ≤ (records ++ [record]).length ∧
      start.Fits (bytes ((records ++ [record]).take j)).size} count := by
  have hlines : ∀ j ≤ records.length, (records ++ [record]).take j = records.take j :=
    fun j hj => List.take_append_of_le_length hj
  rw [List.length_append, List.length_singleton]
  constructor
  · refine ⟨Nat.le_succ_of_le h.1.1, ?_⟩
    rw [hlines count h.1.1]
    exact h.1.2
  · rintro j ⟨hj, hfits⟩
    have hle : j ≤ records.length := by
      by_contra hlt
      obtain rfl : j = records.length + 1 := by omega
      rw [List.take_of_length_le (by simp)] at hfits
      exact hmore hfits
    rw [hlines j hle] at hfits
    exact h.2 ⟨hle, hfits⟩

theorem Printed.written_of_fits (h : Printed start records writer)
    (hfits : start.Fits (bytes records).size) : writer.written = .ofNat records.length := by
  obtain ⟨count, hwritten, hgreatest⟩ := h.written
  have hcount : count = records.length := by
    refine Nat.le_antisymm hgreatest.1.1 (hgreatest.2 ⟨le_rfl, ?_⟩)
    rwa [List.take_length]
  rw [hwritten, hcount]

/-- Printing one more record. -/
theorem Printed.print (h : Printed start records writer) (record : Record) :
    Printed start (records ++ [record]) (writer.print record) := by
  by_cases hfits : start.Fits (bytes records).size
  · have hfailure : writer.failure = none := by rw [h.failure, if_pos hfits]
    have hwrite := Device.write_given hfits (encode record)
    rw [← h.device, ← bytes_concat] at hwrite
    by_cases hmore : start.Fits (bytes (records ++ [record])).size
    · rw [if_pos hmore] at hwrite
      simp only [LineWriter.print, hfailure, hwrite, h.written_of_fits hfits]
      refine ⟨rfl, by rw [if_pos hmore], records.length + 1, ?_, ⟨by simp, ?_⟩, ?_⟩
      · exact (UInt64.ofNat_add records.length 1).symm
      · rwa [List.take_of_length_le (by simp)]
      · rintro j ⟨hj, -⟩
        simpa using hj
    · rw [if_neg hmore] at hwrite
      obtain ⟨count, hwritten, hgreatest⟩ := h.written
      simp only [LineWriter.print, hfailure, hwrite]
      exact ⟨rfl, by rw [if_neg hmore], count, hwritten,
        isGreatest_concat_of_not_fits hgreatest hmore⟩
  · have hfailure : writer.failure = some start.overflow := by rw [h.failure, if_neg hfits]
    obtain ⟨limit, hcapacity, hlt⟩ := Device.exists_limit_of_not_fits hfits
    have hmore : ¬ start.Fits (bytes (records ++ [record])).size := by
      intro hall
      refine hfits (hall.mono ?_)
      rw [bytes_concat, ByteArray.size_append]
      exact Nat.le_add_right _ _
    obtain ⟨count, hwritten, hgreatest⟩ := h.written
    simp only [LineWriter.print, hfailure]
    refine ⟨?_, by rw [if_neg hmore, hfailure], count, hwritten,
      isGreatest_concat_of_not_fits hgreatest hmore⟩
    rw [h.device, bytes_concat, Device.given_append_of_full hcapacity hlt.le]

theorem printed_recordAll (haccepted : start.accepted = .empty) (records : List Record) :
    Printed start records (Recorder.recordAll ({ device := start } : LineWriter) records) := by
  induction records using List.reverseRecOn with
  | nil =>
      have hfits : start.Fits (bytes []).size := fun limit _ => Nat.zero_le limit
      refine ⟨(Device.given_empty haccepted).symm, by rw [if_pos hfits]; rfl, 0, rfl,
        ⟨le_rfl, hfits⟩, ?_⟩
      rintro j ⟨hj, -⟩
      exact hj
  | append_singleton records record ih =>
      rw [Recorder.recordAll_append]
      exact ih.print record

theorem Printed.finish (h : Printed start records writer) :
    writer.finish =
      if ¬ start.Fits (bytes records).size then .error start.overflow
      else if start.flushFails then .error .unflushed
      else .ok { start with accepted := bytes records } := by
  by_cases hfits : start.Fits (bytes records).size
  · have hfailure : writer.failure = none := by rw [h.failure, if_pos hfits]
    rw [if_neg (not_not.2 hfits), LineWriter.finish, hfailure, h.device, Device.given_of_fits hfits]
    by_cases hflush : start.flushFails = true
    · simp [Device.flush, hflush, Except.map]
    · simp [Device.flush, hflush, Except.map]
  · rw [if_pos hfits, LineWriter.finish, h.failure, if_neg hfits]

/-! ## Lines in pieces -/

/-- Prints one record, handing its line over in pieces.  `offers` are the bytes offered to the
device. -/
inductive Prints (pieces : List ByteArray) : LineWriter → List ByteArray → LineWriter → Prop
  | dropped {writer : LineWriter} (failed : writer.failure ≠ none) : Prints pieces writer [] writer
  | written {writer : LineWriter} {device : Device} {offers : List ByteArray}
      (clear : writer.failure = none)
      (delivered : writer.device.Delivers pieces offers (.ok ()) device) :
      Prints pieces writer offers { writer with device, written := writer.written + 1 }
  | failed {writer : LineWriter} {device : Device} {failure : Device.Failure}
      {offers : List ByteArray} (clear : writer.failure = none)
      (delivered : writer.device.Delivers pieces offers (.error failure) device) :
      Prints pieces writer offers { writer with device, failure := some failure }

/-- Prints records, each in its pieces.  `offers` has one entry for each record. -/
inductive PrintsAll (pieces : Record → List ByteArray) :
    LineWriter → List Record → List (List ByteArray) → LineWriter → Prop
  | nil (writer : LineWriter) : PrintsAll pieces writer [] [] writer
  | cons {writer next after : LineWriter} {record : Record} {records : List Record}
      {offered : List ByteArray} {offers : List (List ByteArray)}
      (first : Prints (pieces record) writer offered next)
      (later : PrintsAll pieces next records offers after) :
      PrintsAll pieces writer (record :: records) (offered :: offers) after

/-- The parts of a record's line, as its format spells them out. -/
def spelled (record : Record) : List ByteArray :=
  let tick := String.ofList (Text.padLeft 8 ' ' (Text.decimal record.tick.toNat))
  ["[", tick, "] ", record.scope, ": ", record.message, "\n"].map String.toUTF8

theorem whole_spelled (record : Record) : Device.whole (spelled record) = encode record := by
  simp [spelled, Device.whole, encode, Record.line, toString, ByteArray.append_assoc]

theorem encode_ne_empty (record : Record) : encode record ≠ .empty := by
  intro hempty
  have hsize := congrArg ByteArray.size hempty
  simp [encode] at hsize

variable {pieces : List ByteArray} {offers : List ByteArray} {record : Record} {after : LineWriter}

/-- A line comes out the same in pieces, and bytes of it are offered unless an earlier one did not
fit. -/
theorem Printed.prints (h : Printed start records writer)
    (hpieces : Device.whole pieces = encode record) (hprints : Prints pieces writer offers after) :
    after = writer.print record ∧ (offers = [] ↔ ¬ start.Fits (bytes records).size) := by
  by_cases hfits : start.Fits (bytes records).size
  · have hclear : writer.failure = none := by rw [h.failure, if_pos hfits]
    have hwrite := Device.write_given hfits (encode record)
    have hwhole : Device.whole pieces ≠ .empty := by
      rw [hpieces]
      exact encode_ne_empty record
    rw [← h.device, ← hpieces] at hwrite
    cases hprints with
    | dropped failed => exact absurd hclear failed
    | written clear delivered =>
        obtain ⟨hanswer, hdevice⟩ := delivered.eq hfits h.device
        rw [← hanswer, ← hdevice, hpieces] at hwrite
        refine ⟨by simp only [LineWriter.print, hclear, hwrite], ?_⟩
        exact iff_of_false (delivered.offers_ne_nil hwhole) (not_not.2 hfits)
    | failed clear delivered =>
        obtain ⟨hanswer, hdevice⟩ := delivered.eq hfits h.device
        rw [← hanswer, ← hdevice, hpieces] at hwrite
        refine ⟨by simp only [LineWriter.print, hclear, hwrite], ?_⟩
        exact iff_of_false (delivered.offers_ne_nil hwhole) (not_not.2 hfits)
  · have hfailure : writer.failure = some start.overflow := by rw [h.failure, if_neg hfits]
    cases hprints with
    | dropped failed => exact ⟨by simp only [LineWriter.print, hfailure], iff_of_true rfl hfits⟩
    | written clear delivered => exact nomatch clear.symm.trans hfailure
    | failed clear delivered => exact nomatch clear.symm.trans hfailure

theorem Printed.exists_prints (h : Printed start records writer) (pieces : List ByteArray) :
    ∃ offers after, Prints pieces writer offers after := by
  by_cases hfits : start.Fits (bytes records).size
  · have hclear : writer.failure = none := by rw [h.failure, if_pos hfits]
    obtain ⟨offers, answer, device, hdelivers⟩ := Device.exists_delivers hfits pieces
    rw [← h.device] at hdelivers
    cases answer with
    | ok _ => exact ⟨offers, _, .written hclear hdelivers⟩
    | error failure => exact ⟨offers, _, .failed hclear hdelivers⟩
  · refine ⟨[], writer, .dropped ?_⟩
    rw [h.failure, if_neg hfits]
    exact Option.some_ne_none _

theorem Printed.printsAll {pieces : Record → List ByteArray} {front records : List Record}
    {offers : List (List ByteArray)} (h : Printed start front writer)
    (hpieces : ∀ record, Device.whole (pieces record) = encode record)
    (hprints : PrintsAll pieces writer records offers after) :
    after = Recorder.recordAll writer records ∧ offers.length = records.length ∧
      ∀ k offered, offers[k]? = some offered →
        (offered = [] ↔ ¬ start.Fits (bytes (front ++ records.take k)).size) := by
  induction hprints generalizing front with
  | nil writer => exact ⟨rfl, rfl, fun k offered hnone => nomatch hnone⟩
  | @cons writer next after record records offered offers first later ih =>
      obtain ⟨hnext, hoffered⟩ := h.prints (hpieces record) first
      subst hnext
      obtain ⟨hafter, hlength, hlater⟩ := ih (h.print record)
      refine ⟨hafter, congrArg Nat.succ hlength, fun k other hother => ?_⟩
      cases k with
      | zero =>
          obtain rfl : offered = other := Option.some.inj hother
          rw [List.take_zero, List.append_nil]
          exact hoffered
      | succ k =>
          have hsplit := hlater k other hother
          rw [List.append_assoc] at hsplit
          exact hsplit

theorem Printed.exists_printsAll (h : Printed start records writer)
    {pieces : Record → List ByteArray}
    (hpieces : ∀ record, Device.whole (pieces record) = encode record) (more : List Record) :
    ∃ offers after, PrintsAll pieces writer more offers after := by
  induction more generalizing records writer with
  | nil => exact ⟨[], writer, .nil writer⟩
  | cons record more ih =>
      obtain ⟨offered, next, hprints⟩ := h.exists_prints (pieces record)
      obtain rfl := (h.prints (hpieces record) hprints).1
      obtain ⟨offers, after, hlater⟩ := ih (h.print record)
      exact ⟨offered :: offers, after, .cons hprints hlater⟩

/-- The lines that fit, among the first of all records, if these can be counted by a word. -/
theorem Printed.isGreatest_take {k : ℕ} (h : Printed start (records.take k) writer)
    (hcount : records.length < 2 ^ 64) :
    IsGreatest {j | j ≤ min k records.length ∧ start.Fits (bytes (records.take j)).size}
      writer.written.toNat := by
  obtain ⟨count, hwritten, hgreatest⟩ := h.written
  rw [List.length_take] at hgreatest
  have hle := hgreatest.1.1.trans (Nat.min_le_right _ _)
  rw [hwritten, UInt64.toNat_ofNat_of_lt' (hle.trans_lt hcount)]
  convert hgreatest using 2
  ext j
  refine and_congr_right fun hj => ?_
  rw [List.take_take, Nat.min_eq_left (hj.trans (Nat.min_le_left _ _))]

/-- A writer that failed stays as it is. -/
theorem recordAll_of_failure (h : writer.failure ≠ none) (more : List Record) :
    Recorder.recordAll writer more = writer := by
  have hprint : ∀ record, writer.print record = writer := by
    intro record
    obtain ⟨failure, hfailure⟩ := Option.ne_none_iff_exists'.1 h
    simp only [LineWriter.print, hfailure]
  induction more with
  | nil => rfl
  | cons record more ih =>
      have hcons : Recorder.recordAll writer (record :: more) =
        Recorder.recordAll (writer.print record) more := rfl
      rw [hcons, hprint, ih]

/-- A line writer leaves on its device as much of the lines of its records as the device takes,
counts after each record the lines that fit, does not change any more after the first one that does
not fit, and reports that one rather than a failure of the flush.  None of this depends on the
pieces in which the lines are handed over, nor on the portions that the device takes of them. -/
theorem prints_longest_prefix (capacity : Option ℕ) (overflow : Device.Failure) (flushFails : Bool)
    (records : List Record) (hcount : records.length < 2 ^ 64) :
    let device : Device := { capacity, overflow, flushFails }
    let after := fun k => Recorder.recordAll ({ device } : LineWriter) (records.take k)
    let fit := fun k => device.Fits (bytes (records.take k)).size
    let last := after records.length
    last.device.accepted =
        (match capacity with
          | none => bytes records
          | some limit => (bytes records).extract 0 (min limit (bytes records).size)) ∧
      (∀ k ≤ records.length,
        IsGreatest {j | j ≤ k ∧ fit j} (after k).written.toNat ∧
        ((after k).failure ≠ none ↔ ¬ fit k) ∧
        ∀ m ≥ k, (after k).written ≤ (after m).written ∧
          ((after k).failure ≠ none → after m = after k)) ∧
      last.finish =
        (if ¬ fit records.length then .error overflow
          else if flushFails then .error .unflushed
          else .ok { device with accepted := bytes records }) ∧
      ∀ pieces : Record → List ByteArray,
        (∀ record, Device.whole (pieces record) = encode record) →
        (∃ offers writer, PrintsAll pieces { device } records offers writer) ∧
        ∀ offers writer, PrintsAll pieces { device } records offers writer →
          writer = last ∧ offers.length = records.length ∧
          ∀ k offered, offers[k]? = some offered → (offered = [] ↔ ¬ fit k) := by
  intro device after fit last
  have hprinted : ∀ k, Printed device (records.take k) (after k) :=
    fun k => printed_recordAll rfl (records.take k)
  have hnone : Printed device [] { device } := printed_recordAll rfl []
  have hlast : Printed device records last := by
    have hall := hprinted records.length
    rwa [List.take_length] at hall
  refine ⟨?_, fun k hk => ⟨?_, ?_, ?_⟩, ?_, fun pieces hpieces => ⟨?_, ?_⟩⟩
  · rw [hlast.device, Device.given]
    cases capacity with
    | none => rfl
    | some limit => exact extract_zero_eq_extract_min _ limit
  · have hgreatest := (hprinted k).isGreatest_take hcount
    rwa [Nat.min_eq_left hk] at hgreatest
  · rw [(hprinted k).failure]
    by_cases hfits : device.Fits (bytes (records.take k)).size <;> simp [fit, hfits]
  · intro m hm
    constructor
    · obtain ⟨hle, hfits⟩ := ((hprinted k).isGreatest_take hcount).1
      have hgreatest := (hprinted m).isGreatest_take hcount
      exact UInt64.le_iff_toNat_le.2 (hgreatest.2 ⟨by omega, hfits⟩)
    · intro hfailure
      obtain ⟨n, rfl⟩ := Nat.exists_eq_add_of_le hm
      show Recorder.recordAll _ (records.take (k + n)) = _
      rw [List.take_add, Recorder.recordAll_append]
      exact recordAll_of_failure hfailure _
  · simp only [hlast.finish, fit, List.take_length]
    rfl
  · exact hnone.exists_printsAll hpieces records
  · intro offers writer hprints
    obtain ⟨hwriter, hlength, hoffers⟩ := hnone.printsAll hpieces hprints
    refine ⟨?_, hlength, hoffers⟩
    rw [hwriter]
    exact congrArg _ (List.take_length).symm

/-- A limit inside the scope of a second line, in the middle of a letter that takes two bytes. -/
theorem prints_longest_prefix_inside_letter :
    let records : List Record := [⟨5, "top", "x"⟩, ⟨6, "é", "é"⟩, ⟨7, "top", ""⟩]
    let device : Device := { capacity := some 30, flushFails := true }
    let last := Recorder.recordAll ({ device } : LineWriter) records
    records.length < 2 ^ 64 ∧
      last.device.accepted = (bytes records).extract 0 30 ∧ last.written.toNat = 1 ∧
      last.finish = .error .full ∧
      ∃ offers writer, PrintsAll spelled { device } records offers writer ∧ writer = last ∧
        offers.length = 3 ∧ offers[2]? = some [] := by
  intro records device last
  have hcount : records.length < 2 ^ 64 := by decide
  obtain ⟨haccepted, hafter, hfinish, hpieces⟩ :=
    prints_longest_prefix (some 30) .full true records hcount
  have hover : ∀ j, 2 ≤ j → ¬ device.Fits (bytes (records.take j)).size := by
    intro j hj hfits
    have htwo := hfits.mono (size_bytes_take_mono records hj)
    revert htwo
    decide +kernel
  refine ⟨hcount, ?_, ?_, ?_, ?_⟩
  · refine haccepted.trans ?_
    decide +kernel
  · refine (hafter 3 le_rfl).1.unique ⟨⟨by decide, by decide +kernel⟩, ?_⟩
    rintro j ⟨-, hfits⟩
    by_contra hlt
    exact hover j (by omega) hfits
  · exact hfinish.trans (if_pos (hover 3 (by decide)))
  · obtain ⟨⟨offers, writer, hprints⟩, hall⟩ := hpieces spelled whole_spelled
    obtain ⟨hwriter, hlength, hoffers⟩ := hall offers writer hprints
    have htwo : 2 < offers.length := hlength ▸ by decide
    refine ⟨offers, writer, hprints, hwriter, hlength, ?_⟩
    rw [List.getElem?_eq_getElem htwo]
    exact congrArg some ((hoffers 2 _ (List.getElem?_eq_getElem htwo)).2 (hover 2 le_rfl))

end LineWriter
end TickGate
