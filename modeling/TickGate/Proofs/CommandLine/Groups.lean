import TickGate.CommandLine.Arguments

/-!
# Option groups

The arguments after the command are read group by group, and what was read before has no bearing on
how the rest is read.  So arguments that are read in full end between two groups, and anything may
follow them: `settingsFrom_append`.  A request for help is met exactly where it stands between
groups, `settingsFrom_eq_help_iff`, and of several output paths the last one counts,
`foldl_set_output`.  The build shows in the rule for repeated publishes alone, `parse_of_build`.
-/

namespace TickGate
namespace CommandLine

/-! ## Flags -/

theorem Flag.ofText?_eq_help_iff {text : String} :
    Flag.ofText? text = some .help ↔ text = "--help" ∨ text = "-h" := by
  constructor
  · intro h
    obtain ⟨front, back, hspellings, -⟩ := List.lookup_eq_some_iff.mp h
    have hmem : (text, Flag.help) ∈ Flag.spellings := by simp [hspellings]
    simpa [Flag.spellings] using hmem
  · rintro (rfl | rfl) <;> rfl

/-- No value of a field is a request for help. -/
theorem Field.read_ne_help (field : Field) (flag text : String) :
    field.read flag text ≠ .error .help := by
  cases field with
  | output => exact nofun
  | policy =>
      cases hparse : Policy.parse text <;> simp [Field.read, hparse]
  | start | stop | cycles =>
      cases hvalue : tick? text <;> simp [Field.read, hvalue]
  | seed =>
      cases hvalue : seed? text <;> simp [Field.read, hvalue]

/-! ## Reading group by group -/

/-- What follows arguments that are read in full is read as if it stood alone. -/
theorem settingsFrom_append {earlier found : List Setting} {front : List String}
    (h : settingsFrom earlier front = .ok found) (back : List String) :
    settingsFrom earlier (front ++ back) = settingsFrom found.reverse back := by
  fun_induction settingsFrom earlier front with
  | case1 earlier =>
      obtain rfl := Except.ok.inj h
      rw [List.reverse_reverse, List.nil_append]
  | case2 earlier flag rest hflag => exact nomatch h
  | case3 earlier flag rest hflag => exact nomatch h
  | case4 earlier flag rest setting hflag ih =>
      rw [List.cons_append, settingsFrom, hflag]
      exact ih h
  | case5 earlier flag field hflag => exact nomatch h
  | case6 earlier flag field hflag text rest refusal hread => exact nomatch h
  | case7 earlier flag field hflag text rest setting hread ih =>
      simp only [List.cons_append, settingsFrom, hflag, hread]
      exact ih h

/-- The groups read before come first. -/
theorem settingsFrom_append_earlier (found earlier : List Setting) (options : List String) :
    settingsFrom (found ++ earlier) options =
      (settingsFrom found options).map (earlier.reverse ++ ·) := by
  fun_induction settingsFrom found options with
  | case1 found => simp [settingsFrom, Except.map]
  | case2 found flag rest hflag => simp [settingsFrom, hflag, Except.map]
  | case3 found flag rest hflag => simp [settingsFrom, hflag, Except.map]
  | case4 found flag rest setting hflag ih => simpa [settingsFrom, hflag] using ih
  | case5 found flag field hflag => simp [settingsFrom, hflag, Except.map]
  | case6 found flag field hflag text rest refusal hread =>
      simp [settingsFrom, hflag, hread, Except.map]
  | case7 found flag field hflag text rest setting hread ih =>
      simpa [settingsFrom, hflag, hread] using ih

/-- Arguments that are read in full, followed by others that are. -/
theorem settingsFrom_append_of_ok {front back : List String} {first second : List Setting}
    (hfront : settingsFrom [] front = .ok first) (hback : settingsFrom [] back = .ok second) :
    settingsFrom [] (front ++ back) = .ok (first ++ second) := by
  have hearlier := settingsFrom_append_earlier [] first.reverse back
  rw [List.nil_append] at hearlier
  rw [settingsFrom_append hfront, hearlier, hback, List.reverse_reverse]
  rfl

/-- Where arguments are read in full and the first of them are, the others are. -/
theorem exists_settingsFrom_of_append {front back : List String} {first found : List Setting}
    (hfront : settingsFrom [] front = .ok first) (h : settingsFrom [] (front ++ back) = .ok found) :
    ∃ second, settingsFrom [] back = .ok second ∧ found = first ++ second := by
  have hearlier := settingsFrom_append_earlier [] first.reverse back
  rw [List.nil_append, List.reverse_reverse] at hearlier
  rw [settingsFrom_append hfront, hearlier] at h
  cases hback : settingsFrom [] back with
  | error refusal =>
      rw [hback] at h
      exact nomatch h
  | ok second =>
      rw [hback] at h
      exact ⟨second, rfl, (Except.ok.inj h).symm⟩

/-- Reading ends in a request for help where a flag for it follows arguments that are read in
full. -/
theorem settingsFrom_eq_help_iff {earlier : List Setting} {options : List String} :
    settingsFrom earlier options = .error .help ↔
      ∃ front found flag rest, options = front ++ flag :: rest ∧
        settingsFrom earlier front = .ok found ∧ (flag = "--help" ∨ flag = "-h") := by
  constructor
  · intro h
    fun_induction settingsFrom earlier options with
    | case1 earlier => exact nomatch h
    | case2 earlier flag rest hflag => exact nomatch h
    | case3 earlier flag rest hflag =>
        exact ⟨[], earlier.reverse, flag, rest, rfl, rfl, Flag.ofText?_eq_help_iff.mp hflag⟩
    | case4 earlier flag rest setting hflag ih =>
        obtain ⟨front, found, help, back, hsplit, hfront, hhelp⟩ := ih h
        refine ⟨flag :: front, found, help, back, by rw [hsplit]; rfl, ?_, hhelp⟩
        rw [settingsFrom, hflag]
        exact hfront
    | case5 earlier flag field hflag => exact nomatch h
    | case6 earlier flag field hflag text rest refusal hread =>
        obtain rfl := Except.error.inj h
        exact absurd hread (field.read_ne_help flag text)
    | case7 earlier flag field hflag text rest setting hread ih =>
        obtain ⟨front, found, help, back, hsplit, hfront, hhelp⟩ := ih h
        refine ⟨flag :: text :: front, found, help, back, by rw [hsplit]; rfl, ?_, hhelp⟩
        simp only [settingsFrom, hflag, hread]
        exact hfront
  · rintro ⟨front, found, flag, rest, rfl, hfront, hhelp⟩
    rw [settingsFrom_append hfront, settingsFrom, Flag.ofText?_eq_help_iff.mpr hhelp]

/-! ## Output paths -/

/-- The output path that a group gives. -/
def Setting.output? : Setting → Option String
  | output path => some path
  | _ => none

namespace Settings

theorem set_output (settings : Settings) (setting : Setting) :
    (settings.set setting).output = setting.output?.or settings.output := by
  cases setting <;> rfl

/-- The last output path counts. -/
theorem foldl_set_output (found : List Setting) (settings : Settings) :
    (found.foldl set settings).output =
      (found.filterMap Setting.output?).getLast?.or settings.output := by
  induction found generalizing settings with
  | nil => rfl
  | cons setting found ih =>
      rw [List.foldl_cons, ih, set_output]
      cases houtput : setting.output? with
      | none => rw [List.filterMap_cons_none houtput, Option.none_or]
      | some path =>
          rw [List.filterMap_cons_some houtput, List.getLast?_cons]
          cases (found.filterMap Setting.output?).getLast? <;> rfl

/-- Groups that give no output path leave it, and do not look at it. -/
theorem foldl_set_of_output?_eq_none {found : List Setting}
    (h : ∀ setting ∈ found, setting.output? = none) (settings : Settings) (path : Option String) :
    found.foldl set { settings with output := path } =
      { found.foldl set settings with output := path } := by
  induction found generalizing settings with
  | nil => rfl
  | cons setting found ih =>
      have hset : ({ settings with output := path } : Settings).set setting =
          { settings.set setting with output := path } := by
        have hnone := h setting List.mem_cons_self
        cases setting with
        | output other => exact nomatch hnone
        | _ => rfl
      rw [List.foldl_cons, List.foldl_cons, hset]
      exact ih (fun later hlater => h later (List.mem_cons_of_mem _ hlater)) (settings.set setting)

variable {build : Build}

theorem parse_eq_ok_iff {options : List String} {settings : Settings} :
    parse build options = .ok settings ↔
      ∃ found, settingsFrom [] options = .ok found ∧ found.foldl set (.default build) = settings ∧
        settings.isOrdered = true := by
  rw [parse]
  cases hread : settingsFrom [] options with
  | error refusal => simp
  | ok found =>
      by_cases hordered : (found.foldl set (.default build)).isOrdered = true
      · simp only [if_pos hordered, Except.ok.injEq, exists_eq_left']
        constructor
        · rintro rfl
          exact ⟨rfl, hordered⟩
        · exact And.left
      · simp only [if_neg hordered, Except.ok.injEq, exists_eq_left', reduceCtorEq, false_iff]
        rintro ⟨rfl, hsettings⟩
        exact hordered hsettings

theorem output_of_parse {options : List String} {found : List Setting} {settings : Settings}
    (hread : settingsFrom [] options = .ok found) (hparse : parse build options = .ok settings) :
    settings.output = (found.filterMap Setting.output?).getLast? := by
  obtain ⟨groups, hgroups, rfl, -⟩ := parse_eq_ok_iff.mp hparse
  rw [hread] at hgroups
  obtain rfl := Except.ok.inj hgroups
  rw [foldl_set_output]
  exact Option.or_none

/-- A flag for the output, with its path, between two groups: what the other groups amount to is
the same, and the path is the output if no later group gives another. -/
theorem parse_append_output {front back : List String} {first second : List Setting}
    {settings : Settings} (hfront : settingsFrom [] front = .ok first)
    (hback : settingsFrom [] back = .ok second)
    (hlast : ∀ setting ∈ second, setting.output? = none)
    (hparse : parse build (front ++ back) = .ok settings) {flag : String}
    (hflag : flag = "-o" ∨ flag = "--output") (path : String) :
    parse build (front ++ flag :: path :: back) = .ok { settings with output := some path } := by
  obtain ⟨found, hfound, hfold, hordered⟩ := parse_eq_ok_iff.mp hparse
  have hread : settingsFrom [] (flag :: path :: back) = .ok (.output path :: second) := by
    have hearlier := settingsFrom_append_earlier [] [.output path] back
    rw [hback] at hearlier
    rcases hflag with rfl | rfl
    · exact hearlier
    · exact hearlier
  rw [settingsFrom_append_of_ok hfront hback] at hfound
  obtain rfl := Except.ok.inj hfound
  refine parse_eq_ok_iff.mpr ⟨_, settingsFrom_append_of_ok hfront hread, ?_, hordered⟩
  rw [← hfold, List.foldl_append, List.foldl_append, List.foldl_cons]
  exact foldl_set_of_output?_eq_none hlast (first.foldl set (.default build)) (some path)

theorem parse_eq_help_iff {options : List String} :
    parse build options = .error .help ↔ settingsFrom [] options = .error .help := by
  rw [parse]
  cases hread : settingsFrom [] options with
  | error refusal => simp
  | ok found =>
      by_cases hordered : (found.foldl set (.default build)).isOrdered = true
      · simp [hordered]
      · simp [hordered]

/-! ## Builds -/

/-- The settings with another rule for repeated publishes.  No option chooses one. -/
def withRule (settings : Settings) (rule : DuplicateRule) : Settings :=
  { settings with scenario.options.duplicateRule := rule }

theorem set_withRule (settings : Settings) (rule : DuplicateRule) (setting : Setting) :
    (settings.withRule rule).set setting = (settings.set setting).withRule rule := by
  cases setting <;> rfl

theorem foldl_set_withRule (settings : Settings) (rule : DuplicateRule) (found : List Setting) :
    found.foldl set (settings.withRule rule) = (found.foldl set settings).withRule rule := by
  induction found generalizing settings with
  | nil => rfl
  | cons setting found ih => rw [List.foldl_cons, List.foldl_cons, set_withRule, ih]

/-- The settings that are read in two builds differ in the rule for repeated publishes alone. -/
theorem parse_of_build (build other : Build) (options : List String) :
    parse other options = (parse build options).map (·.withRule (.default other)) := by
  rw [parse, parse]
  cases settingsFrom [] options with
  | error refusal => rfl
  | ok found =>
      have hfold : found.foldl set (.default other) =
          (found.foldl set (.default build)).withRule (.default other) :=
        foldl_set_withRule (.default build) (.default other) found
      have hordered : ((found.foldl set (.default build)).withRule (.default other)).isOrdered =
          (found.foldl set (.default build)).isOrdered := rfl
      simp only [hfold, hordered]
      by_cases h : (found.foldl set (.default build)).isOrdered = true
      · rw [if_pos h, if_pos h]
        rfl
      · rw [if_neg h, if_neg h]
        rfl

end Settings

end CommandLine
end TickGate
