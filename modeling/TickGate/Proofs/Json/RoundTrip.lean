import TickGate.Json.Domain
import TickGate.Proofs.Json.Grammar
import TickGate.Proofs.Json.Members

/-!
# Values survive their written form

Reading back what was written gives the value again, and so a text that has been read and
written once is a fixed point of reading and writing.  `Json.parse?_render` settles this for
the syntax; what is left for each type is that its decoder inverts its encoder.  Words and
records are treated once for all types.
-/

namespace TickGate

/-- A codec whose decoder inverts its encoder. -/
class LawfulCodec (α : Type) [Codec α] : Prop where
  decode?_encode : ∀ value : α, Codec.decode? (Codec.encode value) = some value

attribute [simp] LawfulCodec.decode?_encode

/-- Every written value can be read back, and a text written by the codec is written again
as it stands. -/
structure Codec.RoundTrips (α : Type) [Codec α] : Prop where
  read?_write : ∀ value : α, Codec.read? (Codec.write value) = some value
  normalize?_normalize? : ∀ source written : String,
    Codec.normalize? α source = some written → Codec.normalize? α written = some written

namespace LawfulCodec

theorem read?_write {α : Type} [Codec α] [LawfulCodec α] (value : α) :
    Codec.read? (Codec.write value) = some value := by
  rw [Codec.read?, Codec.write, Json.parse?_render, Option.bind_some, decode?_encode]

theorem roundTrips (α : Type) [Codec α] [LawfulCodec α] : Codec.RoundTrips α := by
  constructor
  · exact read?_write
  · intro source written h
    obtain ⟨value, -, rfl⟩ := Option.map_eq_some_iff.mp h
    rw [Codec.normalize?, read?_write, Option.map_some]

end LawfulCodec

namespace Json

/-- A word that stands for one value only is read as that value. -/
theorem choice?_text {α : Type} {word : α → String} {values : List α} {value : α}
    (hwords : (values.map word).Nodup) (hvalue : value ∈ values) :
    choice? word values (text (word value)) = some value :=
  (choice?_eq_some_iff hwords hvalue).mpr (.inl rfl)

@[simp] theorem required?_encode {α : Type} [Codec α] [LawfulCodec α] (value : α) :
    required? (some (Codec.encode value)) = some value :=
  LawfulCodec.decode?_encode value

@[simp] theorem optional?_encode {α : Type} [Codec α] [LawfulCodec α] (default value : α) :
    optional? default (some (Codec.encode value)) = some value :=
  LawfulCodec.decode?_encode value

end Json

/-! ## The types of the library -/

instance : LawfulCodec Bool where
  decode?_encode _ := rfl

instance : LawfulCodec String where
  decode?_encode _ := rfl

instance : LawfulCodec UInt64 where
  decode?_encode value := by
    change (if value.toNat < UInt64.size then some (UInt64.ofNat value.toNat) else none) = _
    rw [if_pos value.toNat_lt_size, UInt64.ofNat_toNat]

instance : LawfulCodec Policy where
  decode?_encode policy := Json.choice?_text (by decide) (Policy.mem_every policy)

theorem DuplicateRule.mem_every (rule : DuplicateRule) : rule ∈ every := by
  cases rule <;> decide

instance : LawfulCodec DuplicateRule where
  decode?_encode rule := Json.choice?_text (by decide) (DuplicateRule.mem_every rule)

theorem Edge.mem_every (edge : Edge) : edge ∈ every := by
  cases edge <;> decide

instance : LawfulCodec Edge where
  decode?_encode edge := Json.choice?_text (by decide) (Edge.mem_every edge)

instance : LawfulCodec Mode where
  decode?_encode mode := by
    cases mode with
    | level => rfl
    | pulse edge =>
      change (Codec.decode? (Codec.encode edge)).map Mode.pulse = _
      rw [LawfulCodec.decode?_encode, Option.map_some]

instance : LawfulCodec Window where
  decode?_encode window := by
    have hfields : (Codec.encode window).fields? ["low", "high"] =
        some [some (Codec.encode window.low), some (Codec.encode window.high)] :=
      Json.fields?_record (by simp)
    simp [Codec.decode?, hfields]

/-- In each build, options are read back from their written form, in which no field is missing. -/
theorem Options.lawfulCodec (build : Build) : @LawfulCodec Options (codec build) := by
  let written := codec build
  constructor
  intro options
  have hfields : (Codec.encode options).fields? names =
      some [some (Codec.encode options.policy), some (Codec.encode options.fallback),
        some (Codec.encode options.edgeMode), some (Codec.encode options.duplicateRule)] :=
    Json.fields?_record (by simp)
  simp [Codec.decode?, decode?, hfields]

instance : LawfulCodec Record where
  decode?_encode record := by
    have hfields : (Codec.encode record).fields? ["tick", "scope", "message"] =
        some [some (Codec.encode record.tick), some (Codec.encode record.scope),
          some (Codec.encode record.message)] :=
      Json.fields?_record (by simp)
    simp [Codec.decode?, hfields]

instance : LawfulCodec Gate.Counts where
  decode?_encode counts := by
    have hfields : (Codec.encode counts).fields? ["fired", "suppressed", "repeated"] =
        some [some (Codec.encode counts.fired), some (Codec.encode counts.suppressed),
          some (Codec.encode counts.repeated)] :=
      Json.fields?_record (by simp)
    simp [Codec.decode?, hfields]

instance : LawfulCodec Registry.Counts where
  decode?_encode counts := by
    have hfields : (Codec.encode counts).fields? ["ticks", "publishes", "duplicates"] =
        some [some (Codec.encode counts.ticks), some (Codec.encode counts.publishes),
          some (Codec.encode counts.duplicates)] :=
      Json.fields?_record (by simp)
    simp [Codec.decode?, hfields]

/-- Every type with a written form is read back from it, and what has been read and written
once is not changed by reading and writing it again. -/
theorem Codec.all_round_trip :
    (∀ build, @RoundTrips Options (Options.codec build)) ∧ RoundTrips Policy ∧
      RoundTrips DuplicateRule ∧ RoundTrips Edge ∧ RoundTrips Mode ∧ RoundTrips Window ∧
      RoundTrips Record ∧ RoundTrips Gate.Counts ∧ RoundTrips Registry.Counts ∧
      RoundTrips SourceId := by
  refine ⟨fun build => ?_, ?_, ?_, ?_, ?_, ?_, ?_, ?_, ?_, ?_⟩
  · exact @LawfulCodec.roundTrips Options (Options.codec build) (Options.lawfulCodec build)
  all_goals apply LawfulCodec.roundTrips

-- A spaced text with a second spelling of the edge is brought to its written form.
example : Codec.normalize? Mode " \x7b\"pulse\" : \x7b\"rising\":null\x7d \x7d" =
    some "\x7b\"pulse\":\"rising\"\x7d" := by
  decide +kernel

end TickGate
