import SemanticPass.Proofs.Files.Alike
import SemanticPass.Proofs.Program.Outcome
import SemanticPass.Proofs.Run.Journal

/-!
# Settings that change what is shown

The log level decides which log records are seen among the rest of the output, and nothing else: two
runs whose settings differ in the level say the same, write the same, and end with the same code.
Where the listings go, if anywhere, has no influence on the diagnostics and the code. The warnings
in the log are the diagnostics.

## Implementation notes

The settings may stand in a file, so two runs with different settings may have different trees. They
are related by what they read, which is the text of the trace, and by `FileTree.Alike`.
-/

namespace SemanticPass.Program

open Text

/-- Whether a piece of the output is a warning. -/
def Item.isWarning : Item → Bool
  | .logged entry => entry.severity = .warn
  | .printed _ => false

/-- All warnings are seen at a level that shows warnings. -/
theorem Report.filter_isWarning_shown (report : Report) {level : LogLevel}
    (h : level.admits .warn = true) :
    (report.shown level).filter Item.isWarning = report.items.filter Item.isWarning := by
  rw [shown, List.filter_filter]
  refine List.filter_congr fun item _ => ?_
  cases item with
  | printed text => rfl
  | logged entry =>
      by_cases hw : entry.severity = .warn
      · simp [Item.isShown, Item.isWarning, hw, h]
      · simp [Item.isWarning, hw]

/-! ## Warnings -/

section

variable (settings : Settings) (session : Session) (tree : FileTree)

/-- The warnings among the records of a journal are its diagnostics. -/
theorem filter_isWarning_logged (entries : List LogRecord) :
    (entries.map Item.logged).filter Item.isWarning =
      (entries.filter fun entry => entry.severity = .warn).map Item.logged := by
  rw [List.filter_map]
  rfl

theorem filter_isWarning_printed {α : Type} (text : α → String) (values : List α) :
    (values.map fun value => Item.printed (text value)).filter Item.isWarning = [] := by
  rw [List.filter_map, List.map_eq_nil_iff, List.filter_eq_nil_iff]
  exact fun value _ => Bool.false_ne_true

theorem filter_isWarning_wrote {items : List Item} (h : ∀ item ∈ items, ∃ path, item = wrote path) :
    items.filter Item.isWarning = [] := by
  rw [List.filter_eq_nil_iff]
  intro item hmem
  obtain ⟨path, rfl⟩ := h item hmem
  exact Bool.false_ne_true

theorem filter_isWarning_conclude (items : List Item) :
    (conclude session items).items.filter Item.isWarning = items.filter Item.isWarning := by
  unfold conclude
  split
  · rw [List.filter_append]
    exact List.append_nil _
  · rfl

/-- Telling what a session found makes no warnings. -/
theorem filter_isWarning_tell (items : List Item) :
    ((tell settings session items : StateM FileTree Report) tree).1.items.filter Item.isWarning =
      items.filter Item.isWarning := by
  have hdiagnostics : (items ++ session.diagnostics.toList.map printedDiagnostic).filter
      Item.isWarning = items.filter Item.isWarning := by
    rw [List.filter_append]
    exact (congrArg _ (filter_isWarning_printed _ _)).trans (List.append_nil _)
  cases htables : settings.noTables with
  | true => rw [tell_of_noTables htables, filter_isWarning_conclude, hdiagnostics]
  | false =>
      cases hdirectory : settings.outputDir with
      | none =>
          rw [tell_of_printed htables hdirectory, filter_isWarning_conclude, List.filter_append,
            hdiagnostics]
          exact (congrArg _ (filter_isWarning_printed _ _)).trans (List.append_nil _)
      | some directory =>
          have hwrote := filter_isWarning_wrote (writeListings_wrote session directory tree)
          rw [tell_of_written htables hdirectory]
          rcases hwritten : (writeListings session directory : StateM FileTree _) tree with
            ⟨⟨written, failure⟩, after⟩
          rw [hwritten] at hwrote
          cases failure with
          | none =>
              dsimp only
              rw [filter_isWarning_conclude, List.filter_append, hdiagnostics, hwrote,
                List.append_nil]
          | some error =>
              dsimp only [abort]
              rw [List.filter_append, hdiagnostics, hwrote, List.append_nil]

/-- The diagnostics that are made of a trace, as far as its replay gets. -/
def diagnosed (sourceName : String) : Except FileError String → List Diagnostic
  | .error _ => []
  | .ok text => ((Replay.start sourceName).run text).2.session.diagnostics.toList

/-- The warnings of a run are the diagnostics, once each and in order. -/
theorem filter_isWarning_analyse :
    ((analyse settings : StateM FileTree Report) tree).1.items.filter Item.isWarning =
      (diagnosed settings.sourceName (tree.readText settings.trace)).map fun diagnostic =>
        .logged diagnostic.warning := by
  rw [analyse_eq]
  cases hread : tree.readText settings.trace with
  | error error => rfl
  | ok text =>
      have hjournal := Replay.warnings_journal_run settings.sourceName text
      dsimp only [diagnosed]
      rw [analyseText]
      rcases hrun : (Replay.start settings.sourceName).run text with ⟨outcome, replay⟩
      rw [hrun] at hjournal
      have hrecords : (replay.session.journal.toList.map fun entry =>
          Item.logged entry.toRecord).filter Item.isWarning =
            replay.session.diagnostics.toList.map fun diagnostic => .logged diagnostic.warning := by
        rw [← Function.comp_def, ← List.map_map, filter_isWarning_logged, hjournal, List.map_map]
        rfl
      cases outcome with
      | error error =>
          dsimp only [pure, StateT.pure, abort]
          rw [List.filter_append, List.filter_cons, hrecords]
          exact List.append_nil _
      | ok events =>
          dsimp only
          rw [filter_isWarning_tell, List.filter_append, List.filter_cons, hrecords]
          exact List.append_nil _

end

/-! ## Alike trees -/

theorem blind_writeFiles (directory : String) (files : List (String × String)) :
    FileTree.Blind (writeFiles directory files) := by
  induction files with
  | nil => exact FileTree.blind_pure _
  | cons file files ih =>
      obtain ⟨name, text⟩ := file
      unfold writeFiles
      refine FileTree.blind_bind (FileTree.blind_writeText _ _) fun answer => ?_
      split
      · exact FileTree.blind_pure _
      · exact FileTree.blind_bind ih fun answer => FileTree.blind_pure _

theorem blind_writeListings (session : Session) (directory : String) :
    FileTree.Blind (writeListings session directory) := by
  unfold writeListings
  refine FileTree.blind_bind (FileTree.blind_makeAncestors _) fun answer => ?_
  split
  · exact FileTree.blind_pure _
  · exact blind_writeFiles directory _

/-- Telling what a session found does not see what files hold. -/
theorem blind_tell (settings : Settings) (session : Session) (items : List Item) :
    FileTree.Blind (tell settings session items) := by
  unfold tell
  dsimp only
  split
  · exact FileTree.blind_pure _
  · split
    · exact FileTree.blind_pure _
    · refine FileTree.blind_bind (blind_writeListings _ _) fun answer => ?_
      split <;> exact FileTree.blind_pure _

theorem blind_analyseText (settings : Settings) (text : String) :
    FileTree.Blind (analyseText settings text) := by
  unfold analyseText
  dsimp only
  split
  · exact FileTree.blind_pure _
  · exact blind_tell settings _ _

/-- Without listings to write the work on a text sees no file and changes none. -/
theorem exists_analyseText_eq_pure {settings : Settings}
    (h : settings.noTables = true ∨ settings.outputDir = none) (text : String) :
    ∃ report, (analyseText settings text : StateM FileTree Report) = pure report := by
  rw [analyseText]
  rcases (Replay.start settings.sourceName).run text with ⟨_ | events, replay⟩
  · exact ⟨_, rfl⟩
  · cases htables : settings.noTables with
    | true => exact ⟨_, funext (tell_of_noTables htables _ _)⟩
    | false =>
        have hdirectory : settings.outputDir = none := h.resolve_left (by simp [htables])
        exact ⟨_, funext (tell_of_printed htables hdirectory _ _)⟩

/-- Two runs that read the same, on trees that are alike if listings are written, say the same and
write the same. -/
theorem analyse_parallel {settings : Settings} {tree other : FileTree}
    (h : settings.noTables = false → settings.outputDir ≠ none → tree.Alike other)
    (hread : other.readText settings.trace = tree.readText settings.trace) :
    let done := (analyse settings : StateM FileTree Report) tree
    let done' := (analyse settings : StateM FileTree Report) other
    done'.1 = done.1 ∧ ∀ location, done'.2.held? location = done.2.held? location ∨
      done.2.held? location = tree.held? location ∧
        done'.2.held? location = other.held? location := by
  rw [analyse_eq, analyse_eq, hread]
  cases tree.readText settings.trace with
  | error error => exact ⟨rfl, fun _ => .inr ⟨rfl, rfl⟩⟩
  | ok text =>
      by_cases hwrites : settings.noTables = true ∨ settings.outputDir = none
      · obtain ⟨report, hpure⟩ := exists_analyseText_eq_pure hwrites text
        dsimp only
        rw [hpure]
        exact ⟨rfl, fun _ => .inr ⟨rfl, rfl⟩⟩
      · rw [not_or, Bool.not_eq_true] at hwrites
        obtain ⟨hreport, hparallel⟩ :=
          blind_analyseText settings text tree other (h hwrites.1 hwrites.2)
        exact ⟨hreport, hparallel.held?_cases⟩

/-! ## Runs that write what they have to -/

/-- The session of a replay that got to its end. -/
def completed? (sourceName : String) : Except FileError String → Option Session
  | .error _ => none
  | .ok text =>
    match (Replay.start sourceName).run text with
    | (.error _, _) => none
    | (.ok _, replay) => some replay.session

/-- The code of a run that writes what it has to. -/
def codeOf : Option Session → UInt32
  | none => 2
  | some session => if session.diagnostics.isEmpty then 0 else 1

/-- The diagnostics as they are printed, each after an empty line. -/
def blocksOf : Option Session → List String
  | none => []
  | some session => session.diagnostics.toList.map fun diagnostic => "\n" ++ diagnostic.text ++ "\n"

/-- The listings as they are printed, unless they are left out or written into a directory. -/
def listingsOf (settings : Settings) : Option Session → List String
  | none => []
  | some session =>
    if settings.noTables = false ∧ settings.outputDir = none then
      ["\n" ++ Listing.tokens session.tokens, "\n" ++ Listing.symbols session.symbols,
        "\n" ++ Listing.constants session.constants]
    else []

/-- The code and the output of a run that writes what it has to. -/
theorem analyse_of_written (line : LogRecord → String) {settings : Settings} {tree : FileTree}
    (h : ∀ error, ¬ Stops tree (.ok settings) (.listings error)) :
    let response := ((analyse settings : StateM FileTree Report) tree).1.at line settings.logLevel
    let session? := completed? settings.sourceName (tree.readText settings.trace)
    response.exitCode = codeOf session? ∧
      Prints line settings.logLevel response.output
        (blocksOf session? ++ listingsOf settings session?) := by
  intro response session?
  have hearly {obstacle : Obstacle} (hstops : Stops tree (.ok settings) obstacle)
      (he : obstacle.isEarly = true) (hnone : session? = none) :
      response.exitCode = codeOf session? ∧
        Prints line settings.logLevel response.output
          (blocksOf session? ++ listingsOf settings session?) := by
    have hstopped := stopped_of_stops line settings.logLevel hstops
    rw [hnone]
    exact ⟨hstopped.exitCode_eq, hstopped.prints he⟩
  cases hread : tree.readText settings.trace with
  | error error =>
      refine hearly (.trace hread) rfl ?_
      simp only [session?, hread, completed?]
  | ok text =>
      rcases hrun : (Replay.start settings.sourceName).run text with ⟨_ | events, replay⟩
      · refine hearly (.replay hread (congrArg Prod.fst hrun)) rfl ?_
        simp only [session?, hread, completed?, hrun]
      · have hsession : session? = some replay.session := by
          simp only [session?, hread, completed?, hrun]
        rcases stops_or_finished line (.ok settings) tree with ⟨obstacle, hstops⟩ |
          ⟨found, text', hfound, hread', hfinished⟩
        · cases hstops with
          | trace hfails => rw [hread] at hfails; cases hfails
          | replay hread' hfails =>
              obtain rfl := Except.ok.inj (hread.symm.trans hread')
              rw [hrun] at hfails
              cases hfails
          | listings hread' hrun' htables hdirectory hfails =>
              exact absurd (.listings hread' hrun' htables hdirectory hfails) (h _)
        · obtain rfl := Except.ok.inj hfound
          obtain rfl := Except.ok.inj (hread.symm.trans hread')
          rw [hrun] at hfinished
          rw [hsession]
          exact ⟨hfinished.exitCode_eq, hfinished.prints⟩

/-! ## Two runs -/

/-- A command line, an environment and a tree that give settings. -/
structure Invocation (libraries : Libraries (StateM FileTree)) where
  /-- The arguments. -/
  arguments : List String
  /-- The environment. -/
  environment : Environment
  /-- The files before the run. -/
  tree : FileTree
  /-- The settings. -/
  settings : Settings
  /-- The command line, the environment and the tree give the settings. -/
  configured : configured? libraries arguments environment tree = some (.ok settings)

namespace Invocation

variable {libraries : Libraries (StateM FileTree)}

/-- What a run leaves for whoever called it. -/
def response (invocation : Invocation libraries) : Response :=
  ((run libraries invocation.arguments invocation.environment : StateM FileTree Response)
    invocation.tree).1

/-- The files after a run. -/
def after (invocation : Invocation libraries) : FileTree :=
  ((run libraries invocation.arguments invocation.environment : StateM FileTree Response)
    invocation.tree).2

/-- The report of a run. -/
def report (invocation : Invocation libraries) : Report :=
  ((analyse invocation.settings : StateM FileTree Report) invocation.tree).1

/-- The text of the trace, as it is read. -/
def trace (invocation : Invocation libraries) : Except FileError String :=
  invocation.tree.readText invocation.settings.trace

/-- A run shows its report at the level of its settings. -/
theorem response_eq (hkeeps : libraries.KeepsFiles) (invocation : Invocation libraries) :
    invocation.response =
      invocation.report.at libraries.logLine invocation.settings.logLevel ∧
    invocation.after =
      ((analyse invocation.settings : StateM FileTree Report) invocation.tree).2 := by
  have hrun := run_eq hkeeps invocation.configured
  exact ⟨congrArg Prod.fst hrun, congrArg Prod.snd hrun⟩

/-- What the settings for the output change. Both outputs are made of pieces, which are texts and
lines of the log. At a level that shows warnings, the warnings are the diagnostics in the order in
which the replay produced them, whether or not it got to its end. Two runs that read the same and
differ in the level only, on trees that are alike if listings are written, end with the same code
and the same error output, print the same texts and write the same files, and the less verbose one
leaves lines of the log of the other one out. Two runs that read the same under one source name, and
write the listings they have to, end with the same code and print the same diagnostics. -/
theorem presentation (hkeeps : libraries.KeepsFiles) (first second : Invocation libraries) :
    ∃ pieces pieces' : List Item,
    MadeOf libraries.logLine first.settings.logLevel first.response.output pieces ∧
    MadeOf libraries.logLine second.settings.logLevel second.response.output pieces' ∧
    (first.settings.logLevel.admits .warn = true →
      pieces.filter Item.isWarning =
        (diagnosed first.settings.sourceName first.trace).map fun diagnostic =>
          .logged { severity := .warn, target := "c_sema::session", message := diagnostic.text }) ∧
    (∀ text, first.trace = .ok text → ∃ lines events, IsLines lines text.toList ∧
      events.map .ok <+: (Replay.significant 1 lines).map (fun line => Event.read line.1) ∧
      ((Replay.start first.settings.sourceName).run text).2 =
        (Replay.start first.settings.sourceName).after events ∧
      diagnosed first.settings.sourceName first.trace =
        ((Replay.start first.settings.sourceName).turns events).flatMap Turn.produced) ∧
    (second.trace = first.trace →
      second.settings = { first.settings with logLevel := second.settings.logLevel } →
      (first.settings.noTables = false → first.settings.outputDir ≠ none →
        first.tree.Alike second.tree) →
        second.response.exitCode = first.response.exitCode ∧
        second.response.complaint = first.response.complaint ∧
        pieces'.filterMap Item.text? = pieces.filterMap Item.text? ∧
        (first.settings.logLevel.rank ≤ second.settings.logLevel.rank →
          pieces'.filter (Item.isShown first.settings.logLevel) = pieces) ∧
        ∀ location, second.after.held? location = first.after.held? location ∨
          first.after.held? location = first.tree.held? location ∧
            second.after.held? location = second.tree.held? location) ∧
    (second.trace = first.trace → second.settings.sourceName = first.settings.sourceName →
      (∀ error, ¬ Stops first.tree (.ok first.settings) (.listings error)) →
      (∀ error, ¬ Stops second.tree (.ok second.settings) (.listings error)) →
        let session? := completed? first.settings.sourceName first.trace
        second.response.exitCode = first.response.exitCode ∧
        Prints libraries.logLine first.settings.logLevel first.response.output
          (blocksOf session? ++ listingsOf first.settings session?) ∧
        Prints libraries.logLine second.settings.logLevel second.response.output
          (blocksOf session? ++ listingsOf second.settings session?)) := by
  obtain ⟨hfirst, hafter⟩ := first.response_eq hkeeps
  obtain ⟨hsecond, hafter'⟩ := second.response_eq hkeeps
  refine ⟨first.report.shown first.settings.logLevel, second.report.shown second.settings.logLevel,
    ?output, ?output', ?warnings, ?order, ?level, ?listings⟩
  case output =>
    rw [hfirst]
    exact Report.madeOf_output ..
  case output' =>
    rw [hsecond]
    exact Report.madeOf_output ..
  case warnings =>
    intro h
    rw [Report.filter_isWarning_shown _ h]
    exact filter_isWarning_analyse ..
  case order =>
    intro text htext
    obtain ⟨lines, hlines⟩ := exists_isLines text.toList
    obtain ⟨events, hread, hrun, -⟩ :=
      Replay.exists_run_eq_after hlines (Replay.start first.settings.sourceName)
    refine ⟨lines, events, hlines, hread, hrun, ?_⟩
    rw [htext, diagnosed, hrun, Replay.diagnostics_after]
  case level =>
    intro htrace hsettings halike
    have hanalyse : (analyse second.settings : StateM FileTree Report) =
        analyse first.settings := by
      rw [hsettings]
      rfl
    have hread : second.tree.readText first.settings.trace =
        first.tree.readText first.settings.trace := by
      rw [trace, trace, hsettings] at htrace
      exact htrace
    obtain ⟨hreport, hheld⟩ := analyse_parallel halike hread
    rw [← hanalyse] at hreport hheld
    have hsame : second.report = first.report := by
      rw [report, hreport, hanalyse, report]
    refine ⟨?_, ?_, ?_, fun hrank => ?_, ?_⟩
    · rw [hfirst, hsecond, hsame]
      rfl
    · rw [hfirst, hsecond, hsame]
      rfl
    · rw [Report.filterMap_text?_shown, Report.filterMap_text?_shown, hsame]
    · rw [Report.filter_shown _ hrank, hsame]
    · rw [hafter, hafter', ← hanalyse]
      exact hheld
  case listings =>
    intro htrace hsource hwrites hwrites' session?
    obtain ⟨hcode, hprints⟩ := analyse_of_written libraries.logLine hwrites
    obtain ⟨hcode', hprints'⟩ := analyse_of_written libraries.logLine hwrites'
    have hsession : completed? second.settings.sourceName second.trace = session? := by
      rw [htrace, hsource]
    rw [← trace, hsession] at hcode' hprints'
    refine ⟨?_, ?_, ?_⟩
    · rw [hfirst, hsecond]
      exact hcode'.trans hcode.symm
    · rw [hfirst]
      exact hprints
    · rw [hsecond]
      exact hprints'

/-- A run with a diagnostic and without a log, and the same run with a log. The line of the log
about the diagnostic is all that is added. -/
theorem presentation_quiet_and_loud :
    ∃ quiet loud : Invocation .standard,
      quiet.settings.logLevel = .off ∧ loud.settings.logLevel = .warn ∧
      quiet.response.output = "\na.c : 4 :Array Index error\n" ++ "\nNo token table entries\n" ++
        "\nNo symbol table entries\n" ++ "\nNo constant table entries\n" ∧
      loud.response.output =
        "WARN  [c_sema::session] a.c : 4 :Array Index error\n" ++ quiet.response.output ∧
      loud.response.exitCode = quiet.response.exitCode ∧
      (∃ pieces pieces' : List Item,
        MadeOf Libraries.logLineText .off quiet.response.output pieces ∧
        MadeOf Libraries.logLineText .warn loud.response.output pieces' ∧
        pieces'.filter (Item.isShown .off) = pieces) ∧
      ∃ pieces : List Item, MadeOf Libraries.logLineText .warn loud.response.output pieces ∧
        pieces.filter Item.isWarning = [.logged {
          severity := .warn
          target := "c_sema::session"
          message := "a.c : 4 :Array Index error" }] := by
  let tree : FileTree := { entries := [(["a"], .file "index -1 5\n".toUTF8)] }
  let settings : Settings :=
    { trace := "a", sourceName := "a.c", outputDir := none, logLevel := .warn, noTables := false }
  let quiet : Invocation .standard := {
    arguments := ["-ta", "-loff"]
    environment := []
    tree
    settings := { settings with logLevel := .off }
    configured := by decide +kernel }
  let loud : Invocation .standard := {
    arguments := ["-ta"]
    environment := []
    tree
    settings
    configured := by decide +kernel }
  have htrace : loud.trace = .ok "index -1 5\n" := by decide +kernel
  obtain ⟨pieces, pieces', hquiet, hloud, -, -, hlevel, -⟩ :=
    presentation Libraries.keepsFiles_standard quiet loud
  obtain ⟨hcode, -, -, hfilter, -⟩ := hlevel rfl rfl fun _ _ => .refl tree
  obtain ⟨seen, -, hseen, -, hwarnings, -⟩ := presentation Libraries.keepsFiles_standard loud quiet
  refine ⟨quiet, loud, rfl, rfl, by decide +kernel, by decide +kernel, hcode,
    ⟨pieces, pieces', hquiet, hloud, hfilter (by decide)⟩, seen, hseen, ?_⟩
  rw [hwarnings (by decide), htrace]
  decide +kernel

end Invocation

end SemanticPass.Program
