import SemanticPass.Libraries.Standard
import SemanticPass.Proofs.Libraries.Assumptions

/-!
# The libraries that the program is run with

They do what statements on the program rely on. A key file counts as well formed here only if what
it gives the settings has a JSON text, since a number in it that is not finite is refused even if no
one asks for the value.
-/

namespace SemanticPass

/-! ## Files -/

namespace Sources

theorem within_findKeyFile (path : String) : FileTree.Within Eq (findKeyFile path) := by
  have hfile (path : String) : FileTree.Within Eq (FileAccess.isFile path) := fun _ => rfl
  unfold findKeyFile
  refine FileTree.within_bind (fun first => first.trans) (hfile path) fun found => ?_
  split
  · exact FileTree.within_pure (fun _ => rfl) _
  · refine FileTree.within_bind (fun first => first.trans) (hfile _) fun found => ?_
    split <;> exact FileTree.within_pure (fun _ => rfl) _

theorem within_readKeyFile (path : String) : FileTree.Within Eq (readKeyFile path) := by
  unfold readKeyFile
  refine FileTree.within_bind (fun first => first.trans) (within_findKeyFile path) fun found => ?_
  split
  · exact FileTree.within_pure (fun _ => rfl) _
  · refine FileTree.within_bind (fun first => first.trans) (FileTree.within_readText _)
      fun text => ?_
    split <;> exact FileTree.within_pure (fun _ => rfl) _

theorem within_find? (given : CommandLine.Given) (environment : Environment) :
    FileTree.Within Eq (find? given environment) := by
  unfold find?
  dsimp only
  split
  · exact FileTree.within_pure (fun _ => rfl) _
  · exact FileTree.within_bind (fun first => first.trans) (within_readKeyFile _)
      fun members => FileTree.within_pure (fun _ => rfl) _

/-- Finding the places keeps what is known of them. -/
theorem commandLine_of_find? {given : CommandLine.Given} {environment : Environment}
    {tree : FileTree} {sources : Sources}
    (h : ((find? given environment : StateM FileTree _) tree).1 = some sources) :
    sources.commandLine = given ∧ sources.environment = environment := by
  cases hpath : keyFilePath? { commandLine := given, environment } with
  | none =>
      simp only [find?, hpath] at h
      cases h
      exact ⟨rfl, rfl⟩
  | some path =>
      simp only [find?, hpath] at h
      obtain ⟨keyFile, -, rfl⟩ := Option.map_eq_some_iff.mp h
      exact ⟨rfl, rfl⟩

end Sources

/-- Collecting values reads files only. -/
theorem Libraries.keepsFiles_standard : standard.KeepsFiles := by
  intro arguments environment
  show FileTree.Within Eq (Sources.collect arguments environment)
  unfold Sources.collect
  split
  on_goal 4 =>
    refine FileTree.within_bind (fun first => first.trans) (Sources.within_find? _ _)
      fun sources => ?_
    split
  all_goals exact FileTree.within_pure (fun _ => rfl) _

/-! ## Places -/

/-- A variable that is alone of its name is found whichever of them counts. -/
theorem Environment.variable?_eq_held? {environment : Environment} {name : String}
    (h : (environment.filter (isNamed name)).length ≤ 1) :
    environment.variable? name = environment.held? name := by
  have hlast : environment.variable? name =
      (environment.filter (isNamed name)).getLast?.map Prod.snd := by
    unfold Environment.variable?
    rw [List.findRev?_eq_find?_reverse, ← List.head?_filter, List.filter_reverse,
      List.head?_reverse]
    rfl
  rw [hlast, held?, ← List.head?_filter]
  rcases hnamed : environment.filter (isNamed name) with _ | ⟨entry, _ | ⟨next, more⟩⟩
  · rfl
  · rfl
  · simp [hnamed] at h

namespace Sources

/-- The JSON texts of what the key file gives the settings, if all of it has one. -/
def inFile? (sources : Sources) : Option (Setting → Option String) :=
  if Setting.all.all fun setting => (sources.fromKeyFile? setting).isOk then
    some fun setting => (sources.fromKeyFile? setting).toOption.join
  else none

theorem fromKeyFile?_of_inFile? {sources : Sources} {inFile : Setting → Option String}
    (h : sources.inFile? = some inFile) (setting : Setting) :
    sources.fromKeyFile? setting = .ok (inFile setting) := by
  unfold inFile? at h
  split at h
  · rename_i hall
    have hmem : setting ∈ Setting.all := by cases setting <;> decide
    have hok := List.all_eq_true.mp hall setting hmem
    rw [← Option.some.inj h]
    dsimp only
    cases hfile : sources.fromKeyFile? setting with
    | error error => simp [hfile, Except.isOk, Except.toBool] at hok
    | ok found => cases found <;> rfl
  · cases h

end Sources

/-- What the library finds in the places. -/
def standardLookup : Lookup where
  commandLine? arguments :=
    match CommandLine.parse arguments with
    | .ok (.run given) => some fun setting => given.lookup (.forSetting setting)
    | _ => none
  keyFile? arguments environment tree :=
    match CommandLine.parse arguments with
    | .ok (.run given) =>
      ((Sources.find? given environment : StateM FileTree _) tree).1.bind Sources.inFile?
    | _ => none
  read setting raw :=
    match setting.read? raw with
    | some value => .ok value
    | none => .error (CollectError.unreadable setting raw).message

/-- The value of a setting is read from the raw value that is found. -/
theorem Sources.mapError_value {sources : Sources} {inFile : Setting → Option String}
    (hfile : sources.inFile? = some inFile) (henvironment : sources.environment.Unambiguous)
    (setting : Setting) :
    (sources.value setting).mapError CollectError.message =
      standardLookup.value setting (setting.places.findSome? (Lookup.held
        (fun setting => sources.commandLine.lookup (.forSetting setting)) sources.environment inFile
        setting)) := by
  have hheld : sources.held (inFile setting) setting = Lookup.held
      (fun setting => sources.commandLine.lookup (.forSetting setting)) sources.environment inFile
      setting := by
    funext place
    cases place with
    | commandLine | keyFile => rfl
    | environment => exact Environment.variable?_eq_held? (henvironment setting)
  have hraw : sources.raw? setting = .ok (setting.places.findSome? (Lookup.held
      (fun setting => sources.commandLine.lookup (.forSetting setting)) sources.environment inFile
      setting)) := by
    rw [Sources.raw?, Sources.fromKeyFile?_of_inFile? hfile, ← hheld]
    rfl
  rw [Sources.value, hraw]
  cases setting.places.findSome? _ with
  | none => rfl
  | some raw =>
      dsimp only [Lookup.value, standardLookup, bind, Except.bind]
      cases setting.read? raw <;> rfl

/-- Reading stops at the same setting whatever is made of an error. -/
theorem Values.mapError_read {ε δ : Type} (words : ε → δ)
    (reading : (setting : Setting) → Except ε setting.Value) :
    (Values.read reading).mapError words =
      Values.read fun setting => (reading setting).mapError words := by
  simp only [Values.read, bind, Except.bind]
  rcases reading .trace with _ | trace
  · rfl
  rcases reading .sourceName with _ | sourceName
  · rfl
  rcases reading .outputDir with _ | outputDir
  · rfl
  rcases reading .logLevel with _ | logLevel
  · rfl
  rcases reading .noTables with _ | noTables <;> rfl

/-- Settings are read one after the other, from their first place that has them. -/
theorem Libraries.looksUp_standard : standard.LooksUp standardLookup := by
  intro arguments environment tree given inFile hgiven hfile henvironment
  dsimp only [standardLookup] at hgiven hfile
  split at hgiven
  · rename_i found hparse
    obtain rfl := Option.some.inj hgiven
    rw [hparse] at hfile
    dsimp only at hfile
    obtain ⟨sources, hfind, hjson⟩ := Option.bind_eq_some_iff.mp hfile
    obtain ⟨rfl, rfl⟩ := Sources.commandLine_of_find? hfind
    have hcollect : ((Sources.collect arguments sources.environment : StateM FileTree _) tree).1 =
        .ofReading (sources.values.mapError CollectError.message) := by
      rw [Sources.collect, hparse]
      simp only [bind, StateT.bind]
      rcases hfound : (Sources.find? sources.commandLine sources.environment :
        StateM FileTree _) tree with ⟨found, after⟩
      obtain rfl : found = some sources := by rw [← hfind, hfound]
      rfl
    refine hcollect.trans ?_
    rw [Sources.values, Values.mapError_read]
    refine congrArg (Collected.ofReading <| Values.read ·) (funext fun setting => ?_)
    exact Sources.mapError_value hjson henvironment setting
  · cases hgiven

/-- A number that is not finite is refused in the key file, whatever the command line gives. -/
example :
    ((Sources.collect ["-tcli", "-cf"] [] : StateM FileTree _)
      { entries := [(["f"], .file "trace = inf\n".toUTF8)] }).1 =
        .refused "failed to convert to serde_json Number from from f64 inf" := by
  decide +kernel

end SemanticPass
