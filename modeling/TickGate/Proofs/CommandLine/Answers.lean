import TickGate.CommandLine.Response
import TickGate.Proofs.CommandLine.Groups
import TickGate.Proofs.CommandLine.Refusals
import TickGate.Proofs.Record.Printing
import TickGate.Proofs.Scenario.Log

/-!
# What the program answers to every command line

A run prints one line for each of its records, on the standard output or into the file that it
created, and its summary beside; nothing but the last output path decides between the two.  All
other command lines are answered by the usage text alone, or by an error with the usage text.  Main
statement: `answers_every_command_line`.
-/

namespace TickGate

namespace CommandLine

/-! ## Runs -/

namespace Response

/-- A run does not fail, and the log shows nothing of it. -/
theorem drive_eq (settings : Settings) (device : Device) :
    drive settings device =
      let register := ShiftRegister.ofSeed settings.seed
      let writer := Recorder.recordAll ({ device } : LineWriter)
        (settings.scenario.recordsBelow register settings.scenario.cycles.toNat)
      let lines := writer.device.accepted
      match writer.finish with
      | .error failure => { lines, text := unwritten failure.message, exit := 1, log := #[] }
      | .ok _ =>
        let text := summary (settings.scenario.reportOf register)
        { lines, text, exit := 0, log := #[] } := by
  have hlog := Scenario.shown_run (fun _ _ => rfl) settings.scenario
    (ShiftRegister.ofSeed settings.seed) ({ device } : LineWriter)
  cases hfinish : (Recorder.recordAll ({ device } : LineWriter) (settings.scenario.recordsBelow
      (ShiftRegister.ofSeed settings.seed) settings.scenario.cycles.toNat)).finish with
  | error failure => simp only [drive, Scenario.run_value, hlog, hfinish]
  | ok _ => simp only [drive, Scenario.run_value, hlog, hfinish]

/-- What a run answers, by what a journal keeps of it: the lines, and the summary. -/
theorem drive_of_journal {settings : Settings} {report : Scenario.Report} {after : ShiftRegister}
    {journal : Journal}
    (hrun : (settings.scenario.run (.ofSeed settings.seed) ({} : Journal)).value =
      (.ok report, after, journal)) :
    drive settings {} =
      { lines := (LineWriter.text journal.records.toList).toUTF8
        text := summary report
        exit := 0
        log := #[] } := by
  let records := settings.scenario.recordsBelow (ShiftRegister.ofSeed settings.seed)
    settings.scenario.cycles.toNat
  let writer : LineWriter := {}
  rw [Scenario.run_value] at hrun
  obtain ⟨hreport, hrest⟩ := Prod.mk.inj hrun
  obtain ⟨-, hjournal⟩ := Prod.mk.inj hrest
  have hrecords : journal.records.toList = records := by
    rw [← hjournal, Journal.toList_recordAll]
    rfl
  have hprinted : LineWriter.Printed {} records (Recorder.recordAll writer records) :=
    LineWriter.printed_recordAll rfl records
  have hfits : ({} : Device).Fits (LineWriter.bytes records).size :=
    Device.fits_of_capacity_eq_none rfl _
  have hfinish : (Recorder.recordAll writer records).finish =
      .ok { accepted := LineWriter.bytes records } := by
    rw [hprinted.finish, if_neg (not_not.2 hfits)]
    rfl
  have hlines : (Recorder.recordAll writer records).device.accepted =
      (LineWriter.text records).toUTF8 := by
    rw [hprinted.device]
    rfl
  rw [drive_eq, hrecords, ← hlines, ← Except.ok.inj hreport]
  simp only
  rw [hfinish]

end Response

/-! ## All other arguments -/

/-- A flag for help is reached. -/
inductive HelpReached : List String → Prop
  /-- It stands first. -/
  | first {flag : String} {rest : List String} (help : flag = "--help" ∨ flag = "-h") :
      HelpReached (flag :: rest)
  /-- It follows the command `run` and option groups that are all read. -/
  | afterGroups {front : List String} {found : List Setting} {flag : String} {rest : List String}
      (groups : settingsFrom [] front = .ok found) (help : flag = "--help" ∨ flag = "-h") :
      HelpReached ("run" :: (front ++ flag :: rest))

namespace Request

variable {build : Build} {command : String} {options : List String}

theorem parse_of_help (h : command = "--help" ∨ command = "-h") :
    parse build (command :: options) = .ok .help := if_pos h

theorem parse_of_run :
    parse build ("run" :: options) = (Settings.parse build options).map .run := rfl

theorem parse_of_unknown (hhelp : ¬ (command = "--help" ∨ command = "-h"))
    (hrun : command ≠ "run") :
    parse build (command :: options) = .error (.unknownCommand command) := by
  rw [parse, if_neg hhelp, if_neg hrun]

theorem parse_eq_ok_help_iff {arguments : List String} :
    parse build arguments = .ok .help ↔
      arguments.head? = some "--help" ∨ arguments.head? = some "-h" := by
  cases arguments with
  | nil => simp [parse]
  | cons command options =>
      rw [List.head?_cons, Option.some.injEq, Option.some.injEq]
      constructor
      · intro h
        by_contra hhelp
        by_cases hrun : command = "run"
        · rw [hrun, parse_of_run] at h
          cases hparse : Settings.parse build options <;> simp [hparse, Except.map] at h
        · rw [parse_of_unknown hhelp hrun] at h
          exact nomatch h
      · exact parse_of_help

/-- Only the command `run` asks for a run. -/
theorem exists_of_parse_eq_run {arguments : List String} {settings : Settings}
    (h : parse build arguments = .ok (.run settings)) :
    ∃ options, arguments = "run" :: options ∧ Settings.parse build options = .ok settings := by
  cases arguments with
  | nil => exact nomatch h
  | cons command options =>
      by_cases hhelp : command = "--help" ∨ command = "-h"
      · rw [parse_of_help hhelp] at h
        exact nomatch h
      · by_cases hrun : command = "run"
        · rw [hrun, parse_of_run] at h
          refine ⟨options, by rw [hrun], ?_⟩
          cases hparse : Settings.parse build options with
          | error refusal => simp [hparse, Except.map] at h
          | ok parsed =>
              rw [hparse] at h
              rw [(run.inj (Except.ok.inj h))]
        · rw [parse_of_unknown hhelp hrun] at h
          exact nomatch h

theorem helpReached_iff {arguments : List String} :
    HelpReached arguments ↔
      parse build arguments = .ok .help ∨ parse build arguments = .error .help := by
  constructor
  · intro h
    cases h with
    | first help => exact .inl (parse_of_help help)
    | @afterGroups front found flag rest groups help =>
        right
        have hread : settingsFrom [] (front ++ flag :: rest) = .error .help :=
          settingsFrom_eq_help_iff.mpr ⟨front, found, flag, rest, rfl, groups, help⟩
        rw [parse_of_run, Settings.parse_eq_help_iff.mpr hread]
        rfl
  · intro h
    cases arguments with
    | nil => exact h.elim nofun nofun
    | cons command options =>
        by_cases hhelp : command = "--help" ∨ command = "-h"
        · exact .first hhelp
        · by_cases hrun : command = "run"
          · rw [hrun, parse_of_run] at h
            have hparse : Settings.parse build options = .error .help := by
              cases hparse : Settings.parse build options <;> simp [hparse, Except.map] at h
              rw [h]
            obtain ⟨front, found, flag, rest, hsplit, hgroups, hflag⟩ :=
              settingsFrom_eq_help_iff.mp (Settings.parse_eq_help_iff.mp hparse)
            rw [hrun, hsplit]
            exact .afterGroups hgroups hflag
          · rw [parse_of_unknown hhelp hrun] at h
            exact h.elim nofun nofun

end Request

namespace Response

section Run

variable {build : Build} {outlet : String → Except String Device} {options : List String}
  {settings : Settings} {ending : Ending}

theorem ofArguments_of_run (hparse : Settings.parse build options = .ok settings) :
    ofArguments build outlet ("run" :: options) =
      match settings.output with
      | none => ofPrinted settings
      | some path =>
        match outlet path with
        | .error reason => { exit := 1, stderr := (unopened path reason).toUTF8 }
        | .ok device => ofFiled settings path device := by
  rw [ofArguments, Request.parse_of_run, hparse]
  rfl

/-- Without an output path, the lines are printed. -/
theorem ofArguments_of_printed (hparse : Settings.parse build options = .ok settings)
    (houtput : settings.output = none) (hdrive : drive settings {} = ending) :
    ofArguments build outlet ("run" :: options) =
      { exit := ending.exit, stdout := ending.lines, stderr := ending.text.toUTF8,
        log := ending.log } := by
  rw [ofArguments_of_run hparse, houtput]
  simp only [ofPrinted, hdrive]

/-- An output path that leads to a file does not change the lines, which are in the file. -/
theorem ofArguments_of_filed {path : String}
    (hparse : Settings.parse build options = .ok { settings with output := some path })
    (hfile : outlet path = .ok {}) (hdrive : drive settings {} = ending) :
    ofArguments build outlet ("run" :: options) =
      { exit := ending.exit, stderr := ending.text.toUTF8, log := ending.log,
        file := some (path, ending.lines) } := by
  have hother : drive { settings with output := some path } {} = ending := hdrive
  rw [ofArguments_of_run hparse]
  simp only [hfile, ofFiled, hother]

theorem ofArguments_of_unopened {path reason : String}
    (hparse : Settings.parse build options = .ok settings) (houtput : settings.output = some path)
    (hreason : outlet path = .error reason) :
    ofArguments build outlet ("run" :: options) =
      { exit := 1, stderr := (unopened path reason).toUTF8 } := by
  rw [ofArguments_of_run hparse, houtput]
  simp only [hreason]

end Run

section Refused

variable {build : Build} {outlet : String → Except String Device} {arguments : List String}
  {refusal : Refusal}

theorem ofArguments_of_ok_help (h : Request.parse build arguments = .ok .help) :
    ofArguments build outlet arguments = { stdout := (usage ++ "\n").toUTF8 } := by
  simp only [ofArguments, h]

theorem ofArguments_of_error (h : Request.parse build arguments = .error refusal) :
    ofArguments build outlet arguments = ofRefusal refusal := by
  simp only [ofArguments, h]

theorem ofRefusal_help : ofRefusal .help = { exit := 1, stdout := (usage ++ "\n").toUTF8 } :=
  if_pos (Refusal.startsWith_usage_iff.mpr rfl)

theorem ofRefusal_of_ne_help (h : refusal ≠ .help) :
    ofRefusal refusal =
      { exit := 1, stderr := (s!"error: {refusal.message}\n" ++ usage ++ "\n").toUTF8 } :=
  if_neg (mt Refusal.startsWith_usage_iff.mp h)

end Refused

/-! ## The log, and the build -/

section Build

variable (build other : Build) (outlet : String → Except String Device) (arguments : List String)

theorem log_drive (settings : Settings) (device : Device) : (drive settings device).log = #[] := by
  rw [drive_eq]
  simp only
  split
  · rfl
  · rfl

/-- The log shows nothing, whatever the arguments. -/
theorem log_ofArguments : (ofArguments build outlet arguments).log = #[] := by
  rw [ofArguments]
  split
  · rw [ofRefusal]
    split
    · rfl
    · rfl
  · rfl
  · split
    · exact log_drive _ _
    · split
      · rfl
      · exact log_drive _ _

/-- No rule for repeated publishes makes a difference to a run, for nothing is published twice. -/
theorem drive_withRule (settings : Settings) (rule : DuplicateRule) (device : Device) :
    drive (settings.withRule rule) device = drive settings device := by
  rw [drive_eq, drive_eq]
  rfl

/-- The program answers alike in all builds. -/
theorem ofArguments_eq_of_build :
    ofArguments build outlet arguments = ofArguments other outlet arguments := by
  cases arguments with
  | nil => rfl
  | cons command options =>
      by_cases hhelp : command = "--help" ∨ command = "-h"
      · rw [ofArguments_of_ok_help (Request.parse_of_help hhelp),
          ofArguments_of_ok_help (Request.parse_of_help hhelp)]
      by_cases hrun : command = "run"
      · subst hrun
        have hother := Settings.parse_of_build build other options
        cases hread : Settings.parse build options with
        | error refusal =>
            rw [hread] at hother
            rw [ofArguments_of_error (Request.parse_of_run.trans (congrArg _ hread)),
              ofArguments_of_error (Request.parse_of_run.trans (congrArg _ hother))]
        | ok settings =>
            rw [hread] at hother
            rw [ofArguments_of_run hread, ofArguments_of_run hother]
            have hdrive := drive_withRule settings (.default other)
            simp only [ofPrinted, ofFiled, hdrive]
            rfl
      · rw [ofArguments_of_error (Request.parse_of_unknown hhelp hrun),
          ofArguments_of_error (Request.parse_of_unknown hhelp hrun)]

end Build

theorem usage_line_ne_empty : (usage ++ "\n").toUTF8 ≠ .empty := by
  intro h
  have hsize := congrArg ByteArray.size h
  rw [String.toUTF8_eq_toByteArray, String.toByteArray_append, ByteArray.size_append] at hsize
  exact absurd (Nat.eq_zero_of_add_eq_zero_left hsize) (by decide)

/-- Whatever opening a path leads to.  A run is accepted if its options are read and name no
inverted window; then it does not fail, and what a journal keeps of it is what it answers: the lines
of its records go to the standard output, or to the file of the last output path if it can be
created, and else nowhere.  All other arguments are answered with the usage text, on the standard
output where help was reached and below an error elsewhere. -/
theorem answers_every_command_line (build : Build) (outlet : String → Except String Device) :
    (∀ options settings, Settings.parse build options = .ok settings →
      ∃ found report after journal, settingsFrom [] options = .ok found ∧
        (settings.scenario.run (ShiftRegister.ofSeed settings.seed) ({} : Journal)).value =
          (.ok report, after, journal) ∧
        let lines :=
          (String.join (journal.records.toList.map fun record => record.line ++ "\n")).toUTF8
        let summary :=
          (s!"Simulated {settings.scenario.cycles} ticks, emitted {report.records} records " ++
            s!"({report.parent.fired} parent, {report.child.fired} child)\n").toUTF8
        ((∀ setting ∈ found, setting.output? = none) →
          ofArguments build outlet ("run" :: options) =
            { exit := 0, stdout := lines, stderr := summary, log := #[], file := none }) ∧
        (∀ front back first second flag path, options = front ++ back →
          found = first ++ second → settingsFrom [] front = .ok first →
          (∀ setting ∈ second, setting.output? = none) → (flag = "-o" ∨ flag = "--output") →
          outlet path = .ok {} →
          ofArguments build outlet ("run" :: (front ++ flag :: path :: back)) =
            { exit := 0, stdout := .empty, stderr := summary, log := #[],
              file := some (path, lines) }) ∧
        ∀ path reason, (found.filterMap Setting.output?).getLast? = some path →
          outlet path = .error reason →
          ofArguments build outlet ("run" :: options) =
            { exit := 1
              stdout := .empty
              stderr := s!"error: failed to create {path}: {reason}\n".toUTF8
              log := #[]
              file := none }) ∧
    ∀ arguments,
      (∀ options settings, arguments = "run" :: options →
        Settings.parse build options ≠ .ok settings) →
      let response := ofArguments build outlet arguments
      (response.exit = 0 ↔ arguments.head? = some "--help" ∨ arguments.head? = some "-h") ∧
      response.file = none ∧ response.log = #[] ∧
      (response.stdout = (usage ++ "\n").toUTF8 ↔ HelpReached arguments) ∧
      (HelpReached arguments → response.stderr = .empty) ∧
      (¬ HelpReached arguments → response.stdout = .empty ∧
        ∃ refusal, Request.parse build arguments = .error refusal ∧
          response.stderr = (s!"error: {refusal.message}\n" ++ usage ++ "\n").toUTF8) := by
  constructor
  · intro options settings hparse
    obtain ⟨found, hfound, hfold, hordered⟩ := Settings.parse_eq_ok_iff.mp hparse
    have houtput := Settings.output_of_parse hfound hparse
    have hrun := settings.scenario.run_value (ShiftRegister.ofSeed settings.seed) ({} : Journal)
    refine ⟨found, _, _, _, hfound, hrun, ?_⟩
    intro lines summary
    have hdrive := drive_of_journal hrun
    refine ⟨?_, ?_, ?_⟩
    · intro hnone
      have hempty : found.filterMap Setting.output? = [] := by
        rw [List.filterMap_eq_nil_iff]
        exact hnone
      rw [hempty] at houtput
      exact ofArguments_of_printed hparse houtput hdrive
    · intro front back first second flag path hsplit hgroups hfront hlast hflag hfile
      rw [hsplit] at hparse hfound
      obtain ⟨others, hback, hothers⟩ := exists_settingsFrom_of_append hfront hfound
      obtain rfl : others = second := List.append_cancel_left (hothers.symm.trans hgroups)
      have hinserted := Settings.parse_append_output hfront hback hlast hparse hflag path
      exact ofArguments_of_filed hinserted hfile hdrive
    · intro path reason hlast hreason
      exact ofArguments_of_unopened hparse (houtput.trans hlast) hreason
  · intro arguments hrefused response
    cases hparse : Request.parse build arguments with
    | error refusal =>
        have hhead : ¬ (arguments.head? = some "--help" ∨ arguments.head? = some "-h") := by
          rw [← Request.parse_eq_ok_help_iff, hparse]
          exact nofun
        have hresponse : response = ofRefusal refusal := ofArguments_of_error hparse
        by_cases hhelp : refusal = .help
        · rw [hhelp] at hparse hresponse
          have hreached : HelpReached arguments := Request.helpReached_iff.mpr (.inr hparse)
          rw [hresponse, ofRefusal_help]
          exact ⟨iff_of_false nofun hhead, rfl, rfl, iff_of_true rfl hreached, fun _ => rfl,
            fun h => absurd hreached h⟩
        · have hnot : ¬ HelpReached arguments := by
            rw [Request.helpReached_iff, hparse]
            exact fun h => h.elim nofun fun heq => hhelp (Except.error.inj heq)
          rw [hresponse, ofRefusal_of_ne_help hhelp]
          exact ⟨iff_of_false nofun hhead, rfl, rfl, iff_of_false usage_line_ne_empty.symm hnot,
            fun h => absurd h hnot, fun _ => ⟨rfl, refusal, rfl, rfl⟩⟩
    | ok request =>
        cases request with
        | run settings =>
            obtain ⟨options, hrun, hsettings⟩ := Request.exists_of_parse_eq_run hparse
            exact absurd hsettings (hrefused options settings hrun)
        | help =>
            have hresponse : response = _ := ofArguments_of_ok_help hparse
            have hreached : HelpReached arguments := Request.helpReached_iff.mpr (.inl hparse)
            rw [hresponse]
            exact ⟨iff_of_true rfl (Request.parse_eq_ok_help_iff.mp hparse), rfl, rfl,
              iff_of_true rfl hreached, fun _ => rfl, fun h => absurd hreached h⟩

/-- Two ticks with one pair of records, printed, written to a file between the groups, and lost;
and help after a group. -/
theorem answers_every_command_line_of_two_ticks :
    let outlet : String → Except String Device :=
      fun path => if path = "records" then .ok {} else .error "it is a folder"
    let front := ["--start", "1", "--end", "1"]
    let back := ["--cycles", "2"]
    let lines := "[       1] top: lfsr = 0xab38\n[       1] top.child: parity = 0\n".toUTF8
    let summary := "Simulated 2 ticks, emitted 2 records (1 parent, 1 child)\n".toUTF8
    ofArguments .release outlet ("run" :: (front ++ back)) =
      { exit := 0, stdout := lines, stderr := summary, log := #[], file := none } ∧
    ofArguments .release outlet ("run" :: (front ++ "-o" :: "records" :: back)) =
      { exit := 0, stdout := .empty, stderr := summary, log := #[],
        file := some ("records", lines) } ∧
    (ofArguments .release outlet ["run", "-o", "records", "--output", "."]).file = none ∧
    (ofArguments .release outlet ["run", "--pulse", "-h"]).stdout = (usage ++ "\n").toUTF8 := by
  intro outlet front back lines summary
  obtain ⟨haccepted, hother⟩ := answers_every_command_line .release outlet
  let settings : Settings :=
    { scenario := { Scenario.default .release with window := ⟨1, 1⟩, cycles := 2 } }
  obtain ⟨found, report, after, journal, hfound, hrun, hstdout, hfile, -⟩ :=
    haccepted (front ++ back) settings rfl
  have hcomputed :
      let out := (settings.scenario.run (ShiftRegister.ofSeed settings.seed) ({} : Journal)).value
      (out.1.toOption.map fun report => (report.records, report.parent.fired, report.child.fired),
        out.2.2.records.toList.map Record.line) =
      (some (2, 1, 1),
        ["[       1] top: lfsr = 0xab38", "[       1] top.child: parity = 0"]) := by
    decide +kernel
  simp only [hrun, Except.toOption, Option.map_some, Prod.mk.injEq, Option.some.injEq] at hcomputed
  obtain ⟨⟨htotal, hparent, hchild⟩, hlines⟩ := hcomputed
  have hprinted :
      (String.join (journal.records.toList.map fun record => record.line ++ "\n")).toUTF8 =
        lines := by
    have hmap : journal.records.toList.map (fun record => record.line ++ "\n") =
        (journal.records.toList.map Record.line).map (· ++ "\n") := by
      rw [List.map_map]
      rfl
    rw [hmap, hlines]
    exact congrArg String.toUTF8 (by decide +kernel)
  have hsummed :
      (s!"Simulated {settings.scenario.cycles} ticks, emitted {report.records} records " ++
        s!"({report.parent.fired} parent, {report.child.fired} child)\n").toUTF8 = summary := by
    rw [htotal, hparent, hchild]
    exact congrArg String.toUTF8 (by decide +kernel)
  rw [hprinted, hsummed] at hstdout hfile
  refine ⟨hstdout ?_, ?_, ?_, ?_⟩
  · obtain rfl := Except.ok.inj hfound
    decide
  · obtain rfl := Except.ok.inj hfound
    exact hfile front back [.start 1, .stop 1] [.cycles 2] "-o" "records" rfl rfl rfl
      (by decide) (.inl rfl) rfl
  · obtain ⟨read, -, -, -, hread, -, -, -, hlost⟩ :=
      haccepted ["-o", "records", "--output", "."]
        { Settings.default .release with output := some "." } rfl
    obtain rfl := Except.ok.inj hread
    rw [hlost "." "it is a folder" rfl rfl]
  · obtain ⟨-, -, -, husage, -⟩ := hother ["run", "--pulse", "-h"] nofun
    have hreached : HelpReached ("run" :: (["--pulse"] ++ "-h" :: [])) :=
      .afterGroups rfl (.inr rfl)
    exact husage.mpr hreached

end Response

end CommandLine
end TickGate
