import Mathlib.Data.List.Basic
import Mathlib.Data.List.Induction
import TickGate.CommandLine.Usage
import TickGate.Proofs.CommandLine.Groups

/-!
# The grammar of the options

Options are groups, each of which sets one field.  Of the groups for one field the last one counts,
and the order of groups for different fields does not matter.  Arguments that are not such groups
have a first position that is none, and this position alone decides the error.
-/

namespace TickGate
namespace CommandLine

/-! ## One step of reading -/

section Step

variable {flag text : String} {field : Field} {setting : Setting} {refusal : Refusal}
  (found : List Setting) (rest : List String)

theorem settingsFrom_of_switch (h : Flag.ofText? flag = some (.switch setting)) :
    settingsFrom found (flag :: rest) = settingsFrom (setting :: found) rest := by
  rw [settingsFrom, h]

theorem settingsFrom_of_read_ok (h : Flag.ofText? flag = some (.valued field))
    (hread : field.read flag text = .ok setting) :
    settingsFrom found (flag :: text :: rest) = settingsFrom (setting :: found) rest := by
  simp only [settingsFrom, h, hread]

theorem settingsFrom_of_read_error (h : Flag.ofText? flag = some (.valued field))
    (hread : field.read flag text = .error refusal) :
    settingsFrom found (flag :: text :: rest) = .error refusal := by
  simp only [settingsFrom, h, hread]

end Step

/-! ## Groups -/

/-- An option group, with the text of its value where its flag takes one. -/
inductive Group where
  | start (text : String)
  | stop (text : String)
  | cycles (text : String)
  | seed (text : String)
  | policy (text : String)
  | pulse
  | unwired
  | fallback
  | shortOutput (text : String)
  | longOutput (text : String)
  deriving DecidableEq

/-- The fields that groups set. -/
inductive Target where
  | start
  | stop
  | cycles
  | seed
  | policy
  | pulse
  | unwired
  | fallback
  | output
  deriving DecidableEq

namespace Group

/-- How the group is written. -/
def arguments : Group → List String
  | start text => ["--start", text]
  | stop text => ["--end", text]
  | cycles text => ["--cycles", text]
  | seed text => ["--seed", text]
  | policy text => ["--policy", text]
  | pulse => ["--pulse"]
  | unwired => ["--unwired"]
  | fallback => ["--fallback"]
  | shortOutput text => ["-o", text]
  | longOutput text => ["--output", text]

def target : Group → Target
  | start _ => .start
  | stop _ => .stop
  | cycles _ => .cycles
  | seed _ => .seed
  | policy _ => .policy
  | pulse => .pulse
  | unwired => .unwired
  | fallback => .fallback
  | shortOutput _ | longOutput _ => .output

/-- What the group sets, if its flag accepts its value. -/
def setting? : Group → Option Setting
  | start text => (tick? text).map .start
  | stop text => (tick? text).map .stop
  | cycles text => (tick? text).map .cycles
  | seed text => (seed? text).map .seed
  | policy text => (Policy.parse text).toOption.map .policy
  | pulse => some .pulse
  | unwired => some .unwired
  | fallback => some .fallback
  | shortOutput text | longOutput text => some (.output text)

/-- The flag accepts the value. -/
def Acceptable (group : Group) : Prop := group.setting?.isSome

instance (group : Group) : Decidable group.Acceptable :=
  inferInstanceAs (Decidable (group.setting?.isSome = true))

def start? : Group → Option Tick
  | start text => tick? text
  | _ => none

def stop? : Group → Option Tick
  | stop text => tick? text
  | _ => none

def cycles? : Group → Option Tick
  | cycles text => tick? text
  | _ => none

def seed? : Group → Option UInt16
  | seed text => CommandLine.seed? text
  | _ => none

def policy? : Group → Option Policy
  | policy text => (Policy.parse text).toOption
  | _ => none

def output? : Group → Option String
  | shortOutput text | longOutput text => some text
  | _ => none

/-- The last of the values that groups give. -/
def last? {α : Type} (value? : Group → Option α) (groups : List Group) : Option α :=
  (groups.filterMap value?).getLast?

/-- What groups amount to: each field from the last group that sets it.  No group chooses the rule
for repeated publishes. -/
def resulting (build : Build) (groups : List Group) : Settings where
  scenario :=
    { window := ⟨(last? start? groups).getD 100, (last? stop? groups).getD 1000⟩
      cycles := (last? cycles? groups).getD 1200
      options :=
        { policy := (last? policy? groups).getD .level
          edgeMode := pulse ∈ groups
          fallback := fallback ∈ groups
          duplicateRule := .default build }
      wired := unwired ∉ groups }
  seed := (last? seed? groups).getD 0xACE1
  output := last? output? groups

variable {build : Build} {group : Group} {groups others : List Group} {setting : Setting}

/-- One more group sets its field. -/
theorem resulting_concat (h : group.setting? = some setting) (groups : List Group) :
    resulting build (groups ++ [group]) = (resulting build groups).set setting := by
  cases group with
  | pulse | unwired | fallback | shortOutput path | longOutput path =>
      obtain rfl := Option.some.inj h
      simp [resulting, Settings.set, last?, start?, stop?, cycles?, seed?, policy?, output?]
  | start text | stop text | cycles text | seed text | policy text =>
      obtain ⟨value, hvalue, rfl⟩ := Option.map_eq_some_iff.1 h
      simp [resulting, Settings.set, last?, start?, stop?, cycles?, seed?, policy?, output?, hvalue]

theorem exists_setting (h : group.Acceptable) : ∃ setting, group.setting? = some setting :=
  Option.isSome_iff_exists.1 h

theorem foldl_set_eq_resulting (h : ∀ group ∈ groups, group.Acceptable) :
    (groups.filterMap setting?).foldl Settings.set (.default build) = resulting build groups := by
  induction groups using List.reverseRecOn with
  | nil => rfl
  | append_singleton groups group ih =>
      obtain ⟨setting, hsetting⟩ := exists_setting (h group (by simp))
      have hfront := ih fun other hmem => h other (List.mem_append_left _ hmem)
      rw [List.filterMap_append, List.foldl_append, hfront, resulting_concat hsetting]
      simp [hsetting]

/-! ### Order -/

/-- A field is set by the groups for it alone. -/
theorem filterMap_filter_target {α : Type} {value? : Group → Option α} {target : Target}
    (h : ∀ group : Group, group.target ≠ target → value? group = none) (groups : List Group) :
    (groups.filter (·.target = target)).filterMap value? = groups.filterMap value? := by
  rw [List.filterMap_filter]
  refine List.filterMap_congr fun group _ => ?_
  by_cases htarget : group.target = target
  · simp [htarget]
  · simp [htarget, h group htarget]

/-- The groups for each field stand in the same order. -/
def SameOrders (groups others : List Group) : Prop :=
  ∀ target, groups.filter (·.target = target) = others.filter (·.target = target)

theorem SameOrders.mem_iff (h : SameOrders groups others) : group ∈ groups ↔ group ∈ others := by
  have hfilter : group ∈ groups.filter (·.target = group.target) ↔
      group ∈ others.filter (·.target = group.target) := by rw [h group.target]
  simpa using hfilter

theorem SameOrders.last?_eq {α : Type} {value? : Group → Option α} (h : SameOrders groups others)
    (target : Target) (hvalue : ∀ group : Group, group.target ≠ target → value? group = none) :
    last? value? groups = last? value? others := by
  rw [last?, last?, ← filterMap_filter_target hvalue groups, h target,
    filterMap_filter_target hvalue others]

theorem SameOrders.resulting_eq (h : SameOrders groups others) :
    resulting build groups = resulting build others := by
  have hstart : last? start? groups = last? start? others :=
    h.last?_eq .start fun group htarget => by cases group <;> simp_all [start?, Group.target]
  have hstop : last? stop? groups = last? stop? others :=
    h.last?_eq .stop fun group htarget => by cases group <;> simp_all [stop?, Group.target]
  have hcycles : last? cycles? groups = last? cycles? others :=
    h.last?_eq .cycles fun group htarget => by cases group <;> simp_all [cycles?, Group.target]
  have hseed : last? seed? groups = last? seed? others :=
    h.last?_eq .seed fun group htarget => by cases group <;> simp_all [seed?, Group.target]
  have hpolicy : last? policy? groups = last? policy? others :=
    h.last?_eq .policy fun group htarget => by cases group <;> simp_all [policy?, Group.target]
  have houtput : last? output? groups = last? output? others :=
    h.last?_eq .output fun group htarget => by cases group <;> simp_all [output?, Group.target]
  simp only [resulting, hstart, hstop, hcycles, hseed, hpolicy, houtput, h.mem_iff]

/-! ### Reading -/

theorem toOption_eq_some {ε α : Type} {result : Except ε α} {value : α}
    (h : result.toOption = some value) : result = .ok value := by
  cases result with
  | error failure => exact nomatch h
  | ok found => exact congrArg Except.ok (Option.some.inj h)

/-- An acceptable group is read in one step, whatever follows it. -/
theorem settingsFrom_arguments (h : group.setting? = some setting) (found : List Setting)
    (rest : List String) :
    settingsFrom found (group.arguments ++ rest) = settingsFrom (setting :: found) rest := by
  cases group with
  | pulse | unwired | fallback =>
      obtain rfl := Option.some.inj h
      exact settingsFrom_of_switch found rest rfl
  | shortOutput path | longOutput path =>
      obtain rfl := Option.some.inj h
      exact settingsFrom_of_read_ok found rest rfl rfl
  | start text | stop text | cycles text | seed text =>
      obtain ⟨value, hvalue, rfl⟩ := Option.map_eq_some_iff.1 h
      exact settingsFrom_of_read_ok found rest rfl (by simp [Field.read, hvalue])
  | policy text =>
      obtain ⟨value, hvalue, rfl⟩ := Option.map_eq_some_iff.1 h
      have hparse := toOption_eq_some hvalue
      exact settingsFrom_of_read_ok found rest rfl (by simp [Field.read, hparse])

theorem settingsFrom_flatMap (h : ∀ group ∈ groups, group.Acceptable) (found : List Setting)
    (rest : List String) :
    settingsFrom found (groups.flatMap arguments ++ rest) =
      settingsFrom ((groups.filterMap setting?).reverse ++ found) rest := by
  induction groups generalizing found with
  | nil => rfl
  | cons group groups ih =>
      obtain ⟨setting, hsetting⟩ := exists_setting (h group List.mem_cons_self)
      have hlater := ih (fun other hmem => h other (List.mem_cons_of_mem _ hmem)) (setting :: found)
      rw [List.flatMap_cons, List.append_assoc, settingsFrom_arguments hsetting, hlater,
        List.filterMap_cons_some hsetting]
      simp

/-! ### Division -/

/-- The group that arguments begin with. -/
def first? : List String → Option Group
  | "--start" :: text :: _ => some (start text)
  | "--end" :: text :: _ => some (stop text)
  | "--cycles" :: text :: _ => some (cycles text)
  | "--seed" :: text :: _ => some (seed text)
  | "--policy" :: text :: _ => some (policy text)
  | "--pulse" :: _ => some pulse
  | "--unwired" :: _ => some unwired
  | "--fallback" :: _ => some fallback
  | "-o" :: text :: _ => some (shortOutput text)
  | "--output" :: text :: _ => some (longOutput text)
  | _ => none

theorem first?_arguments (group : Group) (rest : List String) :
    first? (group.arguments ++ rest) = some group := by
  cases group <;> rfl

theorem arguments_append_inj {other : Group} {rest more : List String}
    (h : group.arguments ++ rest = other.arguments ++ more) : group = other ∧ rest = more := by
  have hfirst := congrArg first? h
  rw [first?_arguments, first?_arguments] at hfirst
  obtain rfl := Option.some.inj hfirst
  exact ⟨rfl, List.append_cancel_left h⟩

/-- No acceptable group comes next. -/
def Stops (rest : List String) : Prop :=
  ∀ (group : Group) (tail : List String), rest = group.arguments ++ tail → ¬ group.Acceptable

/-- Arguments are divided into acceptable groups in one way only. -/
theorem eq_of_flatMap_append_eq (hgroups : ∀ group ∈ groups, group.Acceptable)
    (hothers : ∀ group ∈ others, group.Acceptable) {rest more : List String} (hrest : Stops rest)
    (hmore : Stops more)
    (h : groups.flatMap arguments ++ rest = others.flatMap arguments ++ more) :
    groups = others ∧ rest = more := by
  induction groups generalizing others with
  | nil =>
      cases others with
      | nil => exact ⟨rfl, h⟩
      | cons other others =>
          rw [List.flatMap_cons, List.append_assoc] at h
          exact absurd (hothers other List.mem_cons_self) (hrest other _ h)
  | cons group groups ih =>
      have hlater := fun other hmem => hgroups other (List.mem_cons_of_mem group hmem)
      rw [List.flatMap_cons, List.append_assoc] at h
      cases others with
      | nil => exact absurd (hgroups group List.mem_cons_self) (hmore group _ h.symm)
      | cons other others =>
          rw [List.flatMap_cons, List.append_assoc] at h
          obtain ⟨rfl, hsame⟩ := arguments_append_inj h
          obtain ⟨rfl, hends⟩ :=
            ih hlater (fun other hmem => hothers other (List.mem_cons_of_mem _ hmem)) hsame
          exact ⟨rfl, hends⟩

/-- The error for a value that its flag does not accept. -/
def complaint : Group → String
  | start text => s!"invalid value for --start: {text}"
  | stop text => s!"invalid value for --end: {text}"
  | cycles text => s!"invalid value for --cycles: {text}"
  | seed text => s!"invalid value for --seed: {text}"
  | policy text => (Fault.unknownPolicy text).message
  | pulse | unwired | fallback | shortOutput _ | longOutput _ => ""

end Group

/-! ## Errors -/

/-- The flags that take a value. -/
def valueFlags : List String :=
  ["--start", "--end", "--cycles", "--seed", "--policy", "-o", "--output"]

/-- All other flags. -/
def plainFlags : List String := ["--pulse", "--unwired", "--fallback", "--help", "-h"]

/-- Arguments begin with an offending position, which calls for an error with this text. -/
inductive Offends : List String → String → Prop
  | help {flag : String} {rest : List String} (h : flag = "--help" ∨ flag = "-h") :
      Offends (flag :: rest) usage
  | missing {flag : String} (h : flag ∈ valueFlags) : Offends [flag] s!"missing value for {flag}"
  | value {group : Group} {rest : List String} (h : ¬ group.Acceptable) :
      Offends (group.arguments ++ rest) group.complaint
  | unknown {text : String} {rest : List String} (h : text ∉ valueFlags ++ plainFlags) :
      Offends (text :: rest) s!"unknown option: {text}"

theorem Flag.ofText?_eq_none_iff {text : String} :
    Flag.ofText? text = none ↔ text ∉ valueFlags ++ plainFlags := by
  have hperm : (Flag.spellings.map Prod.fst).Perm (valueFlags ++ plainFlags) := by decide
  rw [Flag.ofText?, List.lookup_eq_none_iff, ← hperm.mem_iff, List.mem_map]
  constructor
  · rintro h ⟨spelling, hmem, rfl⟩
    exact absurd (h spelling hmem) (by simp)
  · intro h spelling hmem
    have hne : text ≠ spelling.1 := fun heq => h ⟨spelling, hmem, heq.symm⟩
    simpa using hne

/-- A value that is not accepted is refused. -/
theorem Group.settingsFrom_of_not_acceptable {group : Group} (h : ¬ group.Acceptable)
    (found : List Setting) (rest : List String) :
    ∃ refusal, settingsFrom found (group.arguments ++ rest) = .error refusal ∧
      refusal.message = group.complaint := by
  cases group with
  | pulse | unwired | fallback | shortOutput path | longOutput path => exact absurd rfl h
  | start text =>
      have hvalue : tick? text = none := by simpa [Acceptable, setting?] using h
      refine ⟨.invalidValue "--start" text, ?_, rfl⟩
      exact settingsFrom_of_read_error found rest rfl (by simp [Field.read, hvalue])
  | stop text =>
      have hvalue : tick? text = none := by simpa [Acceptable, setting?] using h
      refine ⟨.invalidValue "--end" text, ?_, rfl⟩
      exact settingsFrom_of_read_error found rest rfl (by simp [Field.read, hvalue])
  | cycles text =>
      have hvalue : tick? text = none := by simpa [Acceptable, setting?] using h
      refine ⟨.invalidValue "--cycles" text, ?_, rfl⟩
      exact settingsFrom_of_read_error found rest rfl (by simp [Field.read, hvalue])
  | seed text =>
      have hvalue : CommandLine.seed? text = none := by simpa [Acceptable, setting?] using h
      refine ⟨.invalidValue "--seed" text, ?_, rfl⟩
      exact settingsFrom_of_read_error found rest rfl (by simp [Field.read, hvalue])
  | policy text =>
      cases hparse : Policy.parse text with
      | ok value => exact absurd (by simp [Acceptable, setting?, hparse, Except.toOption]) h
      | error fault =>
          obtain rfl := Policy.parse_error hparse
          refine ⟨.invalidPolicy (.unknownPolicy text), ?_, rfl⟩
          exact settingsFrom_of_read_error found rest rfl (by simp [Field.read, hparse])

/-- The error at an offending position is reported, whatever was read before. -/
theorem Offends.settingsFrom {arguments : List String} {message : String}
    (h : Offends arguments message) (found : List Setting) :
    ∃ refusal, CommandLine.settingsFrom found arguments = .error refusal ∧
      refusal.message = message := by
  cases h with
  | help hflag =>
      refine ⟨.help, ?_, rfl⟩
      rw [CommandLine.settingsFrom, Flag.ofText?_eq_help_iff.2 hflag]
  | @missing flag hflag =>
      refine ⟨.missingValue flag, ?_, rfl⟩
      simp only [valueFlags, List.mem_cons, List.not_mem_nil, or_false] at hflag
      rcases hflag with rfl | rfl | rfl | rfl | rfl | rfl | rfl <;> rfl
  | value hgroup => exact Group.settingsFrom_of_not_acceptable hgroup found _
  | @unknown text rest hflag =>
      refine ⟨.unknownOption text, ?_, rfl⟩
      rw [CommandLine.settingsFrom, Flag.ofText?_eq_none_iff.2 hflag]

/-- A group is written with one of the flags, and only help is not asked for by a group. -/
theorem Group.exists_flag (group : Group) :
    ∃ flag tail, group.arguments = flag :: tail ∧ flag ∈ valueFlags ++ plainFlags ∧
      flag ≠ "--help" ∧ flag ≠ "-h" ∧ (flag ∈ valueFlags → tail ≠ []) := by
  cases group <;> simp [arguments, valueFlags, plainFlags]

theorem Offends.stops {arguments : List String} {message : String}
    (h : Offends arguments message) : Group.Stops arguments := by
  intro group tail heq
  obtain ⟨first, others, hfirst, hflag, hlong, hshort, hvalue⟩ := group.exists_flag
  cases h with
  | help hhelp =>
      rw [hfirst] at heq
      obtain rfl := (List.cons.inj heq).1
      exact absurd hhelp (by simp [hlong, hshort])
  | missing hmissing =>
      rw [hfirst] at heq
      obtain ⟨rfl, hnil⟩ := List.cons.inj heq
      exact absurd (List.append_eq_nil_iff.1 hnil.symm).1 (hvalue hmissing)
  | value hgroup =>
      obtain ⟨rfl, -⟩ := Group.arguments_append_inj heq
      exact hgroup
  | unknown hunknown =>
      rw [hfirst] at heq
      obtain rfl := (List.cons.inj heq).1
      exact absurd hflag hunknown

theorem Offends.ne_nil {arguments : List String} {message : String}
    (h : Offends arguments message) : arguments ≠ [] := by
  cases h with
  | help | missing | unknown => exact List.cons_ne_nil _ _
  | @value group rest hgroup =>
      obtain ⟨first, others, hfirst, -⟩ := group.exists_flag
      rw [hfirst]
      exact List.cons_ne_nil _ _

theorem Group.stops_nil : Stops [] := by
  intro group tail heq
  obtain ⟨first, others, hfirst, -⟩ := group.exists_flag
  rw [hfirst] at heq
  exact nomatch heq

/-! ## Every argument list -/

/-- A value flag with any argument after it is a group. -/
theorem exists_group_of_mem_valueFlags {flag : String} (h : flag ∈ valueFlags) (text : String) :
    ∃ group : Group, group.arguments = [flag, text] := by
  simp only [valueFlags, List.mem_cons, List.not_mem_nil, or_false] at h
  rcases h with rfl | rfl | rfl | rfl | rfl | rfl | rfl
  · exact ⟨.start text, rfl⟩
  · exact ⟨.stop text, rfl⟩
  · exact ⟨.cycles text, rfl⟩
  · exact ⟨.seed text, rfl⟩
  · exact ⟨.policy text, rfl⟩
  · exact ⟨.shortOutput text, rfl⟩
  · exact ⟨.longOutput text, rfl⟩

/-- What arguments begin with, if they are not empty: a group or an offending position. -/
theorem exists_group_or_offends (flag : String) (rest : List String) :
    (∃ (group : Group) (tail : List String), group.Acceptable ∧
      flag :: rest = group.arguments ++ tail) ∨
    ∃ message, Offends (flag :: rest) message := by
  by_cases hvalue : flag ∈ valueFlags
  · cases rest with
    | nil => exact .inr ⟨_, .missing hvalue⟩
    | cons text tail =>
        obtain ⟨group, hgroup⟩ := exists_group_of_mem_valueFlags hvalue text
        have hsplit : flag :: text :: tail = group.arguments ++ tail := by rw [hgroup]; rfl
        by_cases haccept : group.Acceptable
        · exact .inl ⟨group, tail, haccept, hsplit⟩
        · rw [hsplit]
          exact .inr ⟨_, .value haccept⟩
  · by_cases hplain : flag ∈ plainFlags
    · simp only [plainFlags, List.mem_cons, List.not_mem_nil, or_false] at hplain
      rcases hplain with rfl | rfl | rfl | rfl | rfl
      · exact .inl ⟨.pulse, rest, rfl, rfl⟩
      · exact .inl ⟨.unwired, rest, rfl, rfl⟩
      · exact .inl ⟨.fallback, rest, rfl, rfl⟩
      · exact .inr ⟨_, .help (.inl rfl)⟩
      · exact .inr ⟨_, .help (.inr rfl)⟩
    · exact .inr ⟨_, .unknown (by simp [hvalue, hplain])⟩

/-- Arguments are acceptable groups, and then nothing or an offending position. -/
theorem exists_groups (arguments : List String) :
    ∃ (groups : List Group) (rest : List String), (∀ group ∈ groups, group.Acceptable) ∧
      arguments = groups.flatMap Group.arguments ++ rest ∧
      (rest = [] ∨ ∃ message, Offends rest message) := by
  induction hlength : arguments.length using Nat.strongRecOn generalizing arguments with
  | _ length ih =>
      cases arguments with
      | nil => exact ⟨[], [], nofun, rfl, .inl rfl⟩
      | cons flag rest =>
          rcases exists_group_or_offends flag rest with ⟨group, tail, haccept, hsplit⟩ | hoffends
          · obtain ⟨first, others, hfirst, -⟩ := group.exists_flag
            have hshorter : tail.length < length := by
              rw [← hlength, hsplit, hfirst, List.length_append, List.length_cons]
              omega
            obtain ⟨groups, rest, hgroups, htail, hrest⟩ := ih tail.length hshorter tail rfl
            refine ⟨group :: groups, rest, ?_, ?_, hrest⟩
            · exact List.forall_mem_cons.2 ⟨haccept, hgroups⟩
            · rw [hsplit, htail, List.flatMap_cons, List.append_assoc]
          · exact ⟨[], flag :: rest, nofun, rfl, .inr hoffends⟩

namespace Settings

variable (build : Build)

theorem parse_flatMap {groups : List Group} (h : ∀ group ∈ groups, group.Acceptable) :
    parse build (groups.flatMap Group.arguments) =
      let settings := Group.resulting build groups
      let window := settings.scenario.window
      if window.high < window.low then .error (.invertedWindow window.high window.low)
      else .ok settings := by
  have hread := Group.settingsFrom_flatMap h [] []
  rw [List.append_nil, List.append_nil, settingsFrom, List.reverse_reverse] at hread
  rw [parse, hread]
  simp only [Group.foldl_set_eq_resulting h, isOrdered, decide_eq_true_eq]
  by_cases hinverted : (Group.resulting build groups).scenario.window.high <
      (Group.resulting build groups).scenario.window.low
  · rw [if_pos hinverted, if_neg (UInt64.not_le.2 hinverted)]
  · rw [if_neg hinverted, if_pos (UInt64.not_lt.1 hinverted)]

theorem parse_of_offends {groups : List Group} (h : ∀ group ∈ groups, group.Acceptable)
    {rest : List String} {message : String} (hrest : Offends rest message) :
    ∃ refusal, parse build (groups.flatMap Group.arguments ++ rest) = .error refusal ∧
      refusal.message = message := by
  obtain ⟨refusal, hread, htext⟩ :=
    hrest.settingsFrom ((groups.filterMap Group.setting?).reverse ++ [])
  refine ⟨refusal, ?_, htext⟩
  rw [parse, Group.settingsFrom_flatMap h, hread]

/-- Acceptable groups amount to the last group for each field, in whatever order the fields come,
and are refused only if the window ends before it starts.  All other arguments are such groups up to
an offending position, in one way only; it decides the error, whatever follows it.  What follows a
value flag is its value, whatever it looks like. -/
theorem options_follow_grammar (build : Build) :
    (∀ groups : List Group, (∀ group ∈ groups, group.Acceptable) →
      let settings := Group.resulting build groups
      let window := settings.scenario.window
      parse build (groups.flatMap Group.arguments) =
        (if window.high < window.low then .error (.invertedWindow window.high window.low)
          else .ok settings) ∧
      ∀ others : List Group,
        (∀ target, others.filter (·.target = target) = groups.filter (·.target = target)) →
        parse build (others.flatMap Group.arguments) =
          parse build (groups.flatMap Group.arguments)) ∧
    (∀ options : List String,
      (∀ groups : List Group, (∀ group ∈ groups, group.Acceptable) →
        options ≠ groups.flatMap Group.arguments) ↔
      ∃ (groups : List Group) (rest : List String) (message : String),
        (∀ group ∈ groups, group.Acceptable) ∧
        options = groups.flatMap Group.arguments ++ rest ∧ Offends rest message) ∧
    (∀ (groups : List Group) (rest : List String) (message : String),
      (∀ group ∈ groups, group.Acceptable) → Offends rest message →
      (∃ refusal, parse build (groups.flatMap Group.arguments ++ rest) = .error refusal ∧
        refusal.message = message) ∧
      ∀ (others : List Group) (more : List String) (error : String),
        (∀ group ∈ others, group.Acceptable) → Offends more error →
        others.flatMap Group.arguments ++ more = groups.flatMap Group.arguments ++ rest →
        others = groups ∧ more = rest ∧ error = message) ∧
    ∀ flag ∈ valueFlags, ∀ text, ∃ group : Group, group.arguments = [flag, text] ∧
      ∀ rest, ¬ group.Acceptable → Offends (flag :: text :: rest) group.complaint := by
  refine ⟨fun groups hgroups => ⟨parse_flatMap build hgroups, fun others horders => ?_⟩,
    fun options => ⟨fun hnone => ?_, ?_⟩, fun groups rest message hgroups hrest =>
      ⟨parse_of_offends build hgroups hrest, fun others more error hothers hmore hsame => ?_⟩,
    fun flag hflag text => ?_⟩
  · have hsame : Group.SameOrders others groups := horders
    have hothers : ∀ group ∈ others, group.Acceptable :=
      fun group hmem => hgroups group (hsame.mem_iff.1 hmem)
    rw [parse_flatMap build hothers, parse_flatMap build hgroups, hsame.resulting_eq]
  · obtain ⟨groups, rest, hgroups, hsplit, rfl | ⟨message, hrest⟩⟩ := exists_groups options
    · rw [List.append_nil] at hsplit
      exact absurd hsplit (hnone groups hgroups)
    · exact ⟨groups, rest, message, hgroups, hsplit, hrest⟩
  · rintro ⟨groups, rest, message, hgroups, hsplit, hrest⟩ others hothers hall
    rw [← List.append_nil (others.flatMap _), hsplit] at hall
    obtain ⟨-, rfl⟩ :=
      Group.eq_of_flatMap_append_eq hgroups hothers hrest.stops Group.stops_nil hall
    exact hrest.ne_nil rfl
  · obtain ⟨rfl, rfl⟩ :=
      Group.eq_of_flatMap_append_eq hothers hgroups hmore.stops hrest.stops hsame
    obtain ⟨refusal, hparse, rfl⟩ := parse_of_offends build hothers hmore
    obtain ⟨other, hother, rfl⟩ := parse_of_offends build hothers hrest
    rw [hparse] at hother
    exact ⟨rfl, rfl, congrArg Refusal.message (Except.error.inj hother)⟩
  · obtain ⟨group, hgroup⟩ := exists_group_of_mem_valueFlags hflag text
    refine ⟨group, hgroup, fun rest hvalue => ?_⟩
    have hoffends : Offends (group.arguments ++ rest) group.complaint := .value hvalue
    rwa [hgroup] at hoffends

/-- Values that look like flags, two orders of the same groups, and an error before others. -/
theorem options_follow_grammar_of_flaglike_values :
    let groups : List Group :=
      [.longOutput "--help", .start "7", .shortOutput "-h", .pulse, .start "5"]
    let others : List Group :=
      [.pulse, .start "7", .longOutput "--help", .start "5", .shortOutput "-h"]
    parse .release ["--output", "--help", "--start", "7", "-o", "-h", "--pulse", "--start", "5"] =
        .ok { scenario :=
                { window := ⟨5, 1000⟩
                  options := { edgeMode := true, duplicateRule := .lastWriteWins } },
              output := some "-h" } ∧
      parse .release (others.flatMap Group.arguments) =
        parse .release (groups.flatMap Group.arguments) ∧
      ∃ refusal,
        parse .release ["--pulse", "--start", "--help", "--nonsense", "--end"] = .error refusal ∧
        refusal.message = "invalid value for --start: --help" := by
  intro groups others
  obtain ⟨hread, -, herror, -⟩ := options_follow_grammar .release
  have hgroups : ∀ group ∈ groups, group.Acceptable := by decide +kernel
  have hpulse : ∀ group ∈ [Group.pulse], group.Acceptable := by decide +kernel
  have hhelp : ¬ (Group.start "--help").Acceptable := by decide +kernel
  obtain ⟨hparse, horders⟩ := hread groups hgroups
  refine ⟨hparse.trans (by decide +kernel), horders others fun target => ?_, ?_⟩
  · cases target <;> decide +kernel
  · exact (herror [.pulse] _ _ hpulse (.value hhelp)).1

end Settings

end CommandLine
end TickGate
