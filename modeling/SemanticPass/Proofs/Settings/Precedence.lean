import SemanticPass.Proofs.Program.Outcome

/-!
# Precedence of the places

Each setting is decided by the raw value that wins, which is the one in the first place that has
one. What the other places hold for the setting is not read: it may be malformed or say that there
is no value. The demands that the program itself has come after the reading of all settings.

## Implementation notes

Nothing is said here of how values are written. The statements are about any library that looks a
setting up in the places that are declared for it.
-/

namespace SemanticPass

namespace Values

variable {ε : Type} {reading : (setting : Setting) → Except ε setting.Value}

/-- What goes wrong when a setting is read. -/
def failure? (reading : (setting : Setting) → Except ε setting.Value) (setting : Setting) :
    Option ε :=
  match reading setting with
  | .error error => some error
  | .ok _ => none

theorem failure?_eq_some_iff {setting : Setting} {error : ε} :
    failure? reading setting = some error ↔ reading setting = .error error := by
  unfold failure?
  cases reading setting <;> simp

theorem failure?_eq_none_iff {setting : Setting} :
    failure? reading setting = none ↔ ∃ value, reading setting = .ok value := by
  unfold failure?
  cases reading setting <;> simp

/-- The first setting that cannot be read decides, since they are read one after the other. -/
theorem read_eq_error_iff {error : ε} :
    Values.read reading = .error error ↔ Setting.all.findSome? (failure? reading) = some error := by
  simp only [Values.read, Setting.all, List.findSome?_cons, List.findSome?_nil, failure?, bind,
    Except.bind]
  rcases reading .trace with _ | trace
  · simp
  rcases reading .sourceName with _ | sourceName
  · simp
  rcases reading .outputDir with _ | outputDir
  · simp
  rcases reading .logLevel with _ | logLevel
  · simp
  rcases reading .noTables with _ | noTables
  · simp
  · simp [pure, Except.pure]

/-- All settings can be read if there are values, and they are the values. -/
theorem read_eq_ok_iff {values : Values} :
    Values.read reading = .ok values ↔ ∀ setting, reading setting = .ok (values.get setting) := by
  constructor
  · intro h setting
    have hnone : Setting.all.findSome? (failure? reading) = none := by
      refine Option.eq_none_iff_forall_ne_some.mpr fun error hsome => ?_
      cases h.symm.trans (read_eq_error_iff.mpr hsome)
    have hread (setting : Setting) : ∃ value, reading setting = .ok value := by
      have hmem : setting ∈ Setting.all := by cases setting <;> decide
      exact failure?_eq_none_iff.mp (List.findSome?_eq_none_iff.mp hnone setting hmem)
    obtain ⟨trace, htrace⟩ := hread .trace
    obtain ⟨sourceName, hsource⟩ := hread .sourceName
    obtain ⟨outputDir, hdirectory⟩ := hread .outputDir
    obtain ⟨logLevel, hlevel⟩ := hread .logLevel
    obtain ⟨noTables, htables⟩ := hread .noTables
    simp only [Values.read, htrace, hsource, hdirectory, hlevel, htables, bind, Except.bind, pure,
      Except.pure, Except.ok.injEq] at h
    subst h
    cases setting <;> assumption
  · intro h
    simp only [Values.read, h, bind, Except.bind]
    rfl

end Values

/-! ## Invocations -/

/-- A command line that parses, an environment and a file tree. If a key file is named, it can be
read and is well formed, and no two variables are those of one setting. -/
structure Settings.Invocation (lookup : Lookup) where
  /-- The arguments. -/
  arguments : List String
  /-- The environment. -/
  environment : Environment
  /-- The files. -/
  tree : FileTree
  /-- The raw values on the command line. -/
  given : Setting → Option String
  /-- The raw values in the key file; there are none if no key file is named. -/
  inFile : Setting → Option String
  /-- The command line parses. -/
  parsed : lookup.commandLine? arguments = some given
  /-- The key file is readable. -/
  readable : lookup.keyFile? arguments environment tree = some inFile
  /-- The environment is unambiguous. -/
  unambiguous : environment.Unambiguous

namespace Settings.Invocation

variable {lookup : Lookup} (invocation : Invocation lookup) {setting : Setting}

/-- The environment has a raw value for a setting. -/
def InEnvironment (setting : Setting) (raw : String) : Prop :=
  ∃ entry ∈ invocation.environment,
    Environment.isNamed setting.variableName entry = true ∧ entry.2 = raw

/-- The raw value that wins for a setting, or that no place has one: the command line comes before
the environment, and the environment before the key file. -/
inductive Wins (setting : Setting) : Option String → Prop
  | commandLine {raw : String} (h : invocation.given setting = some raw) : Wins setting (some raw)
  | environment {raw : String} (hcommand : invocation.given setting = none)
      (h : invocation.InEnvironment setting raw) : Wins setting (some raw)
  | keyFile {raw : String} (hcommand : invocation.given setting = none)
      (henvironment : ∀ other, ¬ invocation.InEnvironment setting other)
      (h : invocation.inFile setting = some raw) : Wins setting (some raw)
  | absent (hcommand : invocation.given setting = none)
      (henvironment : ∀ other, ¬ invocation.InEnvironment setting other)
      (hfile : invocation.inFile setting = none) : Wins setting none

/-- A setting has a value: the one that the winning raw value reads as, or else its default. -/
inductive Reads (setting : Setting) : setting.Value → Prop
  | raw {raw : String} {value : setting.Value} (h : invocation.Wins setting (some raw))
      (hread : lookup.read setting raw = .ok value) : Reads setting value
  | default (h : invocation.Wins setting none) : Reads setting setting.default

/-- The winning raw value of a setting cannot be read. -/
def Fails (setting : Setting) (message : String) : Prop :=
  ∃ raw, invocation.Wins setting (some raw) ∧ lookup.read setting raw = .error message

/-- The raw value of a setting in the first place that has one. -/
def raw? (setting : Setting) : Option String :=
  setting.places.findSome?
    (Lookup.held invocation.given invocation.environment invocation.inFile setting)

theorem raw?_eq (setting : Setting) : invocation.raw? setting =
    (invocation.given setting).or
      ((invocation.environment.held? setting.variableName).or (invocation.inFile setting)) := by
  have hplaces : setting.places = [.commandLine, .environment, .keyFile] := by
    cases setting <;> rfl
  rw [raw?, hplaces]
  simp only [List.findSome?_cons, List.findSome?_nil, Lookup.held]
  cases invocation.given setting with
  | some raw => rfl
  | none =>
      cases invocation.environment.held? setting.variableName with
      | some raw => rfl
      | none => cases invocation.inFile setting <;> rfl

theorem held?_eq_none_iff_not_inEnvironment :
    invocation.environment.held? setting.variableName = none ↔
      ∀ raw, ¬ invocation.InEnvironment setting raw := by
  rw [Environment.held?_eq_none_iff]
  constructor
  · rintro h raw ⟨entry, hmem, hnamed, -⟩
    exact Bool.false_ne_true ((h entry hmem).symm.trans hnamed)
  · intro h entry hmem
    rw [← Bool.not_eq_true]
    exact fun hnamed => h entry.2 ⟨entry, hmem, hnamed, rfl⟩

theorem held?_eq_some_iff_inEnvironment {raw : String} :
    invocation.environment.held? setting.variableName = some raw ↔
      invocation.InEnvironment setting raw :=
  Environment.held?_eq_some_iff (invocation.unambiguous setting)

/-- The raw value in the first place that has one is the one that wins. -/
theorem wins_iff {raw : Option String} :
    invocation.Wins setting raw ↔ raw = invocation.raw? setting := by
  rw [raw?_eq]
  constructor
  · intro h
    cases h with
    | commandLine h => rw [h, Option.some_or]
    | environment hcommand h =>
        rw [hcommand, Option.none_or, invocation.held?_eq_some_iff_inEnvironment.mpr h,
          Option.some_or]
    | keyFile hcommand henvironment h | absent hcommand henvironment h =>
        rw [hcommand, Option.none_or,
          invocation.held?_eq_none_iff_not_inEnvironment.mpr henvironment, Option.none_or, h]
  · rintro rfl
    cases hcommand : invocation.given setting with
    | some raw => exact .commandLine hcommand
    | none =>
        cases henvironment : invocation.environment.held? setting.variableName with
        | some raw =>
            exact .environment hcommand
              (invocation.held?_eq_some_iff_inEnvironment.mp henvironment)
        | none =>
            rw [held?_eq_none_iff_not_inEnvironment] at henvironment
            cases hfile : invocation.inFile setting with
            | some raw => exact .keyFile hcommand henvironment hfile
            | none => exact .absent hcommand henvironment hfile

/-- No two raw values win. -/
theorem wins_iff_of_wins {found raw : Option String} (h : invocation.Wins setting found) :
    invocation.Wins setting raw ↔ raw = found := by
  rw [wins_iff, ← invocation.wins_iff.mp h]

theorem reads_iff {value : setting.Value} : invocation.Reads setting value ↔
    lookup.value setting (invocation.raw? setting) = .ok value := by
  constructor
  · intro h
    cases h with
    | raw h hread => rw [← invocation.wins_iff.mp h, Lookup.value, hread]
    | default h => rw [← invocation.wins_iff.mp h, Lookup.value]
  · intro h
    cases hraw : invocation.raw? setting with
    | some raw =>
        rw [hraw] at h
        exact .raw (invocation.wins_iff.mpr hraw.symm) h
    | none =>
        rw [hraw] at h
        obtain rfl := Except.ok.inj h
        exact .default (invocation.wins_iff.mpr hraw.symm)

theorem fails_iff {message : String} : invocation.Fails setting message ↔
    lookup.value setting (invocation.raw? setting) = .error message := by
  constructor
  · rintro ⟨raw, h, hread⟩
    rw [← invocation.wins_iff.mp h, Lookup.value, hread]
  · intro h
    cases hraw : invocation.raw? setting with
    | some raw =>
        rw [hraw] at h
        exact ⟨raw, invocation.wins_iff.mpr hraw.symm, h⟩
    | none =>
        rw [hraw] at h
        cases h

/-! ## What the program makes of the values -/

/-- The demands of the program on the values of the settings: a trace has to be named, and then a
log level that is named has to be one. The rest has defaults. -/
inductive Judged (values : Values) : Except SettingsError Settings → Prop
  | noTrace (h : values.trace = none) : Judged values (.error .noTrace)
  | unknownLogLevel {trace name : String} (htrace : values.trace = some trace)
      (hname : values.logLevel = some name) (h : LogLevel.ofName? name = none) :
      Judged values (.error (.unknownLogLevel name))
  | settings {trace : String} {level : LogLevel} (htrace : values.trace = some trace)
      (h : values.logLevel = none ∧ level = .warn ∨
        ∃ name, values.logLevel = some name ∧ LogLevel.ofName? name = some level) :
      Judged values (.ok {
        trace
        sourceName := values.sourceName.getD ((Path.fileStem? trace).getD "input" ++ ".c")
        outputDir := values.outputDir
        logLevel := level
        noTables := values.noTables })

theorem judged_ofValues (values : Values) : Judged values (ofValues values) := by
  unfold ofValues
  cases htrace : values.trace with
  | none => exact .noTrace htrace
  | some trace =>
      cases hname : values.logLevel with
      | none => exact .settings htrace (.inl ⟨hname, rfl⟩)
      | some name =>
          cases hlevel : LogLevel.ofName? name with
          | none =>
              simp only [levelOf, hlevel, bind, Except.bind]
              exact .unknownLogLevel htrace hname hlevel
          | some level =>
              simp only [levelOf, hlevel, bind, Except.bind]
              exact .settings htrace (.inr ⟨name, hname, hlevel⟩)

section

variable (libraries : Libraries (StateM FileTree))

/-- The settings, or why there are none. -/
def outcome : Option (Except SettingsError Settings) :=
  Program.configured? libraries invocation.arguments invocation.environment invocation.tree

variable {libraries} (hlookup : libraries.LooksUp lookup)
include hlookup

theorem outcome_eq : invocation.outcome libraries =
    some (((Values.read fun setting => lookup.value setting (invocation.raw? setting)).mapError
      SettingsError.uncollected).bind ofValues) := by
  have hcollect : (libraries.collect invocation.arguments invocation.environment
      invocation.tree).1 = .ofReading (Values.read fun setting =>
        lookup.value setting (invocation.raw? setting)) :=
    hlookup invocation.parsed invocation.readable invocation.unambiguous
  rw [outcome, Program.configured?, hcollect]
  cases Values.read fun setting => lookup.value setting (invocation.raw? setting) <;> rfl

/-- The error is that of the first setting that fails. -/
theorem outcome_of_first {before after : List Setting} {message : String}
    (hall : Setting.all = before ++ setting :: after)
    (hbefore : ∀ earlier ∈ before, ∃ value, invocation.Reads earlier value)
    (h : invocation.Fails setting message) :
    invocation.outcome libraries = some (.error (.uncollected message)) := by
  have hread : (Values.read fun setting => lookup.value setting (invocation.raw? setting)) =
      .error message := by
    refine Values.read_eq_error_iff.mpr <|
      List.findSome?_eq_some_iff.mpr ⟨before, setting, after, hall, ?_, ?_⟩
    · exact Values.failure?_eq_some_iff.mpr (invocation.fails_iff.mp h)
    · intro earlier hmem
      obtain ⟨value, hvalue⟩ := hbefore earlier hmem
      exact Values.failure?_eq_none_iff.mpr ⟨value, invocation.reads_iff.mp hvalue⟩
  rw [invocation.outcome_eq hlookup, hread]
  rfl

/-- If no setting fails, the program judges the values. -/
theorem outcome_of_reads {values : Values}
    (h : ∀ setting, invocation.Reads setting (values.get setting)) :
    invocation.outcome libraries = some (ofValues values) := by
  have hread : (Values.read fun setting => lookup.value setting (invocation.raw? setting)) =
      .ok values :=
    Values.read_eq_ok_iff.mpr fun setting => invocation.reads_iff.mp (h setting)
  rw [invocation.outcome_eq hlookup, hread]
  rfl

/-- The program judges the values only if all of them were read. -/
theorem exists_reads_of_outcome {error : SettingsError}
    (h : invocation.outcome libraries = some (.error error))
    (herror : ∀ message, error ≠ .uncollected message) :
    ∃ values : Values, ∀ setting, invocation.Reads setting (values.get setting) := by
  rw [invocation.outcome_eq hlookup, Option.some.injEq] at h
  cases hread : Values.read fun setting => lookup.value setting (invocation.raw? setting) with
  | error message =>
      rw [hread] at h
      exact absurd (Except.error.inj h).symm (herror message)
  | ok values =>
      refine ⟨values, fun setting => invocation.reads_iff.mpr ?_⟩
      exact Values.read_eq_ok_iff.mp hread setting

end

/-! ### Three invocations -/

/-- The command line gives a trace, and `null` as the name of the source. -/
def plain : Invocation standardLookup where
  arguments := ["-tcli", "-snull"]
  environment := []
  tree := {}
  given setting :=
    [(CommandOption.forSetting .trace, "cli"), (.forSetting .sourceName, "null")].lookup
      (.forSetting setting)
  inFile _ := none
  parsed := rfl
  readable := rfl
  unambiguous _ := Nat.zero_le 1

/-- The environment gives the trace no value, and a key file one that cannot be read. -/
def crowded : Invocation standardLookup where
  arguments := ["-tcli", "-snull", "-cf"]
  environment := [("C_SEMA_TRACE", "null")]
  tree := { entries := [(["f"], .file "trace = []\nsource_name = 'x'\n".toUTF8)] }
  given setting :=
    [(CommandOption.forSetting .trace, "cli"), (.forSetting .sourceName, "null"),
      (.config, "f")].lookup (.forSetting setting)
  inFile := (standardLookup.keyFile? ["-tcli", "-snull", "-cf"] [("C_SEMA_TRACE", "null")]
    { entries := [(["f"], .file "trace = []\nsource_name = 'x'\n".toUTF8)] }).get (by decide +kernel)
  parsed := rfl
  readable := (Option.some_get _).symm
  unambiguous _ := List.length_filter_le _ _

/-- The name of the source and the truth value are both malformed. -/
def broken : Invocation standardLookup where
  arguments := ["--no_tables=maybe", "-s["]
  environment := []
  tree := {}
  given setting :=
    [(CommandOption.forSetting .noTables, "maybe"), (.forSetting .sourceName, "[")].lookup
      (.forSetting setting)
  inFile _ := none
  parsed := rfl
  readable := rfl
  unambiguous _ := Nat.zero_le 1

theorem wins_plain (setting : Setting) : plain.Wins setting (plain.given setting) := by
  have henvironment (setting : Setting) (raw : String) : ¬ plain.InEnvironment setting raw :=
    fun ⟨_, hmem, _⟩ => nomatch hmem
  cases setting with
  | trace | sourceName => exact .commandLine rfl
  | outputDir | logLevel | noTables => exact .absent rfl (henvironment _) rfl

theorem wins_crowded (setting : Setting) : crowded.Wins setting (plain.given setting) := by
  have henvironment {setting : Setting} (hs : setting ≠ .trace) (raw : String) :
      ¬ crowded.InEnvironment setting raw := by
    rintro ⟨entry, hmem, hnamed, -⟩
    obtain rfl : entry = ("C_SEMA_TRACE", "null") := List.mem_singleton.mp hmem
    rw [Environment.isNamed_iff] at hnamed
    revert hnamed
    cases setting <;> first | exact absurd rfl hs | decide +kernel
  have hfile : ∀ setting ∈ [Setting.outputDir, .logLevel, .noTables],
      crowded.inFile setting = none := by
    decide +kernel
  cases setting with
  | trace | sourceName => exact .commandLine rfl
  | outputDir | logLevel | noTables =>
      exact .absent rfl (henvironment (by decide)) (hfile _ (by decide))

end Settings.Invocation

end SemanticPass
