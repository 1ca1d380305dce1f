import SemanticPass.Proofs.Libraries.Standard
import SemanticPass.Proofs.Program.Listings
import SemanticPass.Proofs.Program.Output
import SemanticPass.Proofs.Run.Redeclaration
import SemanticPass.Proofs.Run.Texts
import SemanticPass.Proofs.Table.LinearScan

/-!
# How a run of the program ends

A run of the program stops at the first obstacle: it has no settings, it cannot read the trace, the
replay ends early, or a listing cannot be written. A run without an obstacle finishes, and its code
tells whether there are diagnostics. An obstacle before the listings leaves the files alone and the
output empty but for lines of the log.
-/

namespace SemanticPass

/-- The text of the file at a path. -/
def FileTree.readText (tree : FileTree) (path : String) : Except FileError String :=
  ((FileAccess.readText path : StateM FileTree _) tree).1

/-- A session has an error exactly if it has diagnostics, throughout a run. -/
theorem Replay.hasError_after (sourceName : String) (events : List Event) :
    ((start sourceName).after events).session.hasError =
      !((start sourceName).after events).session.diagnostics.isEmpty := by
  refine after_induction
    (P := fun replay => replay.session.hasError = !replay.session.diagnostics.isEmpty)
    (fun turn h => ?_) rfl events
  rw [Turn.hasError_next, Turn.diagnostics_next, h]
  cases turn.diagnostic? <;> simp

/-- A session has an error exactly if it has diagnostics, after a replay of a text. -/
theorem Replay.hasError_run (sourceName trace : String) :
    ((start sourceName).run trace).2.session.hasError =
      !((start sourceName).run trace).2.session.diagnostics.isEmpty := by
  obtain ⟨events, hrun, -⟩ := exists_events_of_run (start sourceName) trace
  rw [hrun]
  exact hasError_after sourceName events

namespace Program

/-! ## What is seen of a run -/

/-- The settings that a command line, an environment and the files give, or why there are none,
unless the command line asks for a text such as the help text. -/
def configured? (libraries : Libraries (StateM FileTree)) (arguments : List String)
    (environment : Environment) (tree : FileTree) : Option (Except SettingsError Settings) :=
  match (libraries.collect arguments environment tree).1 with
  | .shown _ => none
  | .refused message => some (.error (.uncollected message))
  | .values values => some (Settings.ofValues values)

/-- Does the work that settings ask for, or refuses to work without settings. -/
def work : Except SettingsError Settings → StateM FileTree Report
  | .error error => pure { exitCode := 2, items := [], complaint := (refuse error).complaint }
  | .ok settings => analyse settings

/-- The level that log records are shown at. -/
def shownLevel : Except SettingsError Settings → LogLevel
  | .error _ => .off
  | .ok settings => settings.logLevel

/-! ## Obstacles -/

/-- What keeps a run from its work. -/
inductive Obstacle where
  /-- There are no settings. -/
  | settings (error : SettingsError)
  /-- The trace cannot be read. -/
  | trace (error : FileError)
  /-- The replay ends early. -/
  | replay (error : TraceError)
  /-- A listing cannot be written. -/
  | listings (error : WriteError)
  deriving DecidableEq, Repr

/-- The words about an obstacle. -/
def Obstacle.complaint : Obstacle → String
  | .settings error =>
    "Something went wrong parsing the configuration: " ++ error.message ++ "\n"
  | .trace error => "Something went wrong reading the trace file: " ++ error.message ++ "\n"
  | .replay error => "Semantic analysis aborted: " ++ error.message ++ "\n"
  | .listings error => "Something went wrong writing the tables: " ++ error.message ++ "\n"

/-- Whether an obstacle stands before everything that is printed or written. -/
def Obstacle.isEarly : Obstacle → Bool
  | .listings _ => false
  | _ => true

/-- When an obstacle stops a run with some settings, or none, on a tree. -/
inductive Stops (tree : FileTree) : Except SettingsError Settings → Obstacle → Prop
  | settings (error : SettingsError) : Stops tree (.error error) (.settings error)
  | trace {settings : Settings} {error : FileError}
      (h : tree.readText settings.trace = .error error) : Stops tree (.ok settings) (.trace error)
  | replay {settings : Settings} {text : String} {error : TraceError}
      (hread : tree.readText settings.trace = .ok text)
      (h : ((Replay.start settings.sourceName).run text).1 = .error error) :
      Stops tree (.ok settings) (.replay error)
  | listings {settings : Settings} {text directory : String} {events : Nat} {error : WriteError}
      (hread : tree.readText settings.trace = .ok text)
      (hrun : ((Replay.start settings.sourceName).run text).1 = .ok events)
      (htables : settings.noTables = false) (hdirectory : settings.outputDir = some directory)
      (h : ((writeListings ((Replay.start settings.sourceName).run text).2.session directory :
        StateM FileTree _) tree).1.2 = some error) :
      Stops tree (.ok settings) (.listings error)

/-- What is seen of a run that an obstacle stopped. -/
structure Stopped (line : LogRecord → String) (level : LogLevel) (obstacle : Obstacle)
    (before : FileTree) (response : Response) (after : FileTree) : Prop where
  /-- The code is two. -/
  exitCode_eq : response.exitCode = 2
  /-- The error output tells of the obstacle. -/
  complaint_eq : response.complaint = obstacle.complaint
  /-- An early obstacle leaves no output but lines of the log. -/
  prints : obstacle.isEarly = true → Prints line level response.output []
  /-- An early obstacle leaves the files alone. -/
  tree_eq : obstacle.isEarly = true → after = before

/-- What is seen of a run that finished. -/
structure Finished (line : LogRecord → String) (settings : Settings) (session : Session)
    (before : FileTree) (response : Response) (after : FileTree) : Prop where
  /-- The code is zero without diagnostics, and one with them. -/
  exitCode_eq : response.exitCode = if session.diagnostics.isEmpty then 0 else 1
  /-- The error output is empty. -/
  complaint_eq : response.complaint = ""
  /-- The output has the diagnostics in order, and after them the listings, unless these are left
  out or written into a directory. Each of them comes after an empty line. -/
  prints : Prints line settings.logLevel response.output
    ((session.diagnostics.toList.map fun diagnostic => "\n" ++ diagnostic.text ++ "\n") ++
      if settings.noTables = false ∧ settings.outputDir = none then
        ["\n" ++ Listing.tokens session.tokens, "\n" ++ Listing.symbols session.symbols,
          "\n" ++ Listing.constants session.constants]
      else [])
  /-- The listings are written into the directory for them, if they are not left out. -/
  lists : ∀ directory, settings.noTables = false → settings.outputDir = some directory →
    before.Lists session directory after
  /-- Otherwise the files are left alone. -/
  tree_eq : settings.noTables = true ∨ settings.outputDir = none → after = before

/-- There are words about every obstacle. -/
theorem complaint_ne_empty (obstacle : Obstacle) : obstacle.complaint ≠ "" := by
  intro h
  cases obstacle <;> exact absurd (String.append_eq_empty_iff.mp h).2 (by decide)

/-! ## The ends of a run -/

/-- Pieces of the output that are log records only. -/
def Logged (items : List Item) : Prop := ∀ item ∈ items, ∃ entry, item = .logged entry

theorem Logged.of_wrote {items : List Item} (h : ∀ item ∈ items, ∃ path, item = wrote path) :
    Logged items := by
  intro item hmem
  obtain ⟨path, rfl⟩ := h item hmem
  exact ⟨_, rfl⟩

theorem Logged.filterMap_text? {items : List Item} (h : Logged items) :
    items.filterMap Item.text? = [] := by
  rw [List.filterMap_eq_nil_iff]
  intro item hmem
  obtain ⟨entry, rfl⟩ := h item hmem
  rfl

theorem filterMap_text?_printed {α : Type} (text : α → String) (values : List α) :
    (values.map fun value => Item.printed (text value)).filterMap Item.text? = values.map text := by
  rw [List.filterMap_map]
  exact congrFun List.filterMap_eq_map' values

theorem conclude_eq (session : Session) (items : List Item) :
    (conclude session items).exitCode = (if session.hasError then 1 else 0) ∧
      (conclude session items).complaint = "" ∧
      (conclude session items).texts = items.filterMap Item.text? := by
  unfold conclude
  split
  · exact ⟨by simp_all, rfl, by simp [Report.texts, note, Item.text?]⟩
  · exact ⟨by simp_all, rfl, rfl⟩

variable {settings : Settings} {session : Session} {items : List Item} {tree : FileTree}

theorem tell_of_noTables (h : settings.noTables = true) (session : Session) (items : List Item)
    (tree : FileTree) :
    (tell settings session items : StateM FileTree Report) tree =
      (conclude session (items ++ session.diagnostics.toList.map printedDiagnostic), tree) := by
  rw [tell, if_pos h]
  rfl

theorem tell_of_printed (h : settings.noTables = false) (hdirectory : settings.outputDir = none)
    (session : Session) (items : List Item) (tree : FileTree) :
    (tell settings session items : StateM FileTree Report) tree =
      (conclude session (items ++ session.diagnostics.toList.map printedDiagnostic ++
        printedListings session), tree) := by
  rw [tell, if_neg (by simp [h]), hdirectory]
  rfl

theorem tell_of_written {directory : String} (h : settings.noTables = false)
    (hdirectory : settings.outputDir = some directory) (session : Session) (items : List Item)
    (tree : FileTree) :
    (tell settings session items : StateM FileTree Report) tree =
      let items := items ++ session.diagnostics.toList.map printedDiagnostic
      match (writeListings session directory : StateM FileTree _) tree with
      | ((written, none), after) => (conclude session (items ++ written), after)
      | ((written, some error), after) =>
        (abort (items ++ written)
          s!"Something went wrong writing the tables: {error.message}", after) := by
  rw [tell, if_neg (by simp [h]), hdirectory]
  simp only [bind, StateT.bind]
  rcases (writeListings session directory : StateM FileTree _) tree with ⟨⟨written, _ | error⟩, after⟩
    <;> rfl

theorem analyse_eq (settings : Settings) (tree : FileTree) :
    (analyse settings : StateM FileTree Report) tree =
      match tree.readText settings.trace with
      | .error error =>
        (abort [note .error s!"cannot read {settings.trace}: {error.message}"]
          s!"Something went wrong reading the trace file: {error.message}", tree)
      | .ok text => (analyseText settings text : StateM FileTree Report) tree := by
  have hsame := FileTree.within_readText settings.trace tree
  rw [analyse, FileTree.readText]
  simp only [bind, StateT.bind]
  rcases hread : (FileAccess.readText settings.trace : StateM FileTree _) tree with ⟨answer, after⟩
  obtain rfl : tree = after := by rw [hsame, hread]
  cases answer <;> rfl

/-- The log records of a replay. -/
theorem logged_journal (entry : LogRecord) (session : Session) :
    Logged (.logged entry :: session.journal.toList.map fun entry => .logged entry.toRecord) := by
  intro item hmem
  rcases List.mem_cons.mp hmem with rfl | hmem
  · exact ⟨entry, rfl⟩
  · obtain ⟨note, -, rfl⟩ := List.mem_map.mp hmem
    exact ⟨note.toRecord, rfl⟩

theorem Logged.concat {items : List Item} (h : Logged items) (entry : LogRecord) :
    Logged (items ++ [.logged entry]) := by
  intro item hmem
  rcases List.mem_append.mp hmem with hmem | hmem
  · exact h item hmem
  · exact ⟨entry, List.mem_singleton.mp hmem⟩

/-- A replay that ended early is told of after its log records. -/
theorem analyseText_of_fault {text : String} {error : TraceError}
    (h : ((Replay.start settings.sourceName).run text).1 = .error error) (tree : FileTree) :
    ∃ items, Logged items ∧ (analyseText settings text : StateM FileTree Report) tree =
      (abort items s!"Semantic analysis aborted: {error.message}", tree) := by
  rcases hrun : (Replay.start settings.sourceName).run text with ⟨outcome, replay⟩
  obtain rfl : outcome = .error error := by simpa [hrun] using h
  refine ⟨?items, ?logged, ?told⟩
  case told =>
    rw [analyseText, hrun]
    rfl
  case logged => exact (logged_journal _ replay.session).concat _

/-- A replay that got to its end is told of after its log records. -/
theorem analyseText_of_replayed {text : String} {events : Nat}
    (h : ((Replay.start settings.sourceName).run text).1 = .ok events) (tree : FileTree) :
    ∃ items, Logged items ∧ (analyseText settings text : StateM FileTree Report) tree =
      (tell settings ((Replay.start settings.sourceName).run text).2.session items :
        StateM FileTree Report) tree := by
  rcases hrun : (Replay.start settings.sourceName).run text with ⟨outcome, replay⟩
  obtain rfl : outcome = .ok events := by simpa [hrun] using h
  refine ⟨?items, ?logged, ?told⟩
  case told => rw [analyseText, hrun]
  case logged => exact (logged_journal _ replay.session).concat _

section

variable (line : LogRecord → String)

/-- A run with an obstacle is stopped by it. -/
theorem stopped_of_stops (level : LogLevel) {configured : Except SettingsError Settings}
    {obstacle : Obstacle} (h : Stops tree configured obstacle) :
    Stopped line level obstacle tree ((work configured tree).1.at line level)
      (work configured tree).2 := by
  have hprints (report : Report) (htexts : report.texts = []) :
      Prints line level (report.at line level).output [] :=
    htexts ▸ report.prints_output line level
  cases h with
  | settings error => exact ⟨rfl, rfl, fun _ => hprints _ rfl, fun _ => rfl⟩
  | @trace settings error hread =>
      rw [work, analyse_eq, hread]
      exact ⟨rfl, rfl, fun _ => hprints _ rfl, fun _ => rfl⟩
  | @replay settings text error hread hrun =>
      obtain ⟨items, hlogged, htext⟩ := analyseText_of_fault hrun tree
      rw [work, analyse_eq, hread]
      dsimp only
      rw [htext]
      exact ⟨rfl, rfl, fun _ => hprints _ hlogged.filterMap_text?, fun _ => rfl⟩
  | @listings settings text directory events error hread hrun htables hdirectory hwrite =>
      obtain ⟨items, -, htext⟩ := analyseText_of_replayed hrun tree
      rw [work, analyse_eq, hread]
      dsimp only
      rw [htext, tell_of_written htables hdirectory]
      rcases hwritten : (writeListings ((Replay.start settings.sourceName).run text).2.session
        directory : StateM FileTree _) tree with ⟨⟨written, failure⟩, after⟩
      obtain rfl : failure = some error := by simpa [hwritten] using hwrite
      exact ⟨rfl, rfl, nofun, nofun⟩

/-- The texts of a session that was told of finish the output with those that follow them. -/
theorem prints_conclude (level : LogLevel) (hitems : Logged items) (more : List Item) :
    Prints line level
      ((conclude session (items ++ session.diagnostics.toList.map printedDiagnostic ++ more)).at
        line level).output
      ((session.diagnostics.toList.map fun diagnostic => "\n" ++ diagnostic.text ++ "\n") ++
        more.filterMap Item.text?) := by
  have htexts : (conclude session (items ++ session.diagnostics.toList.map printedDiagnostic ++
      more)).texts =
        (session.diagnostics.toList.map fun diagnostic => "\n" ++ diagnostic.text ++ "\n") ++
          more.filterMap Item.text? := by
    rw [(conclude_eq ..).2.2, List.filterMap_append, List.filterMap_append, hitems.filterMap_text?,
      List.nil_append]
    exact congrArg (· ++ _) (filterMap_text?_printed _ _)
  exact htexts ▸ Report.prints_output _ line level

/-- A run that tells what a session found, and can write what it has to, finishes. -/
theorem finished_of_tell (hitems : Logged items)
    (herror : session.hasError = !session.diagnostics.isEmpty)
    (hwrite : ∀ directory, settings.noTables = false → settings.outputDir = some directory →
      ((writeListings session directory : StateM FileTree _) tree).1.2 = none) :
    let told := (tell settings session items : StateM FileTree Report) tree
    Finished line settings session tree (told.1.at line settings.logLevel) told.2 := by
  have hcode (pieces : List Item) : (conclude session pieces).exitCode =
      if session.diagnostics.isEmpty then 0 else 1 := by
    rw [(conclude_eq session pieces).1, herror]
    cases session.diagnostics.isEmpty <;> rfl
  intro told
  cases htables : settings.noTables with
  | true =>
      have htold : told = _ := tell_of_noTables htables session items tree
      rw [htold]
      refine ⟨hcode _, (conclude_eq ..).2.1, ?_, by simp [htables], fun _ => rfl⟩
      simpa [htables] using prints_conclude line settings.logLevel hitems []
  | false =>
      cases hdirectory : settings.outputDir with
      | none =>
          have htold : told = _ := tell_of_printed htables hdirectory session items tree
          rw [htold]
          refine ⟨hcode _, (conclude_eq ..).2.1, ?_, by simp [hdirectory], fun _ => rfl⟩
          rw [if_pos ⟨htables, hdirectory⟩]
          exact prints_conclude line settings.logLevel hitems (printedListings session)
      | some directory =>
          have hnone := hwrite directory htables hdirectory
          have hlists := lists_of_writeListings hnone
          have hlogged := Logged.of_wrote (writeListings_wrote session directory tree)
          have htold : told = _ := tell_of_written htables hdirectory session items tree
          rcases hwritten : (writeListings session directory : StateM FileTree _) tree with
            ⟨⟨written, failure⟩, after⟩
          rw [hwritten] at hnone hlists hlogged
          obtain rfl : failure = none := hnone
          rw [htold, hwritten]
          refine ⟨hcode _, (conclude_eq ..).2.1, ?_, ?_, by simp [htables, hdirectory]⟩
          · rw [if_neg (by simp [hdirectory]), ← hlogged.filterMap_text?]
            exact prints_conclude line settings.logLevel hitems written
          · intro other _ hother
            obtain rfl : directory = other := Option.some.inj (hdirectory.symm.trans hother)
            exact hlists

/-- A run without an obstacle finishes. -/
theorem stops_or_finished (configured : Except SettingsError Settings) (tree : FileTree) :
    (∃ obstacle, Stops tree configured obstacle) ∨
      ∃ settings text, configured = .ok settings ∧ tree.readText settings.trace = .ok text ∧
        Finished line settings ((Replay.start settings.sourceName).run text).2.session tree
          ((work configured tree).1.at line settings.logLevel) (work configured tree).2 := by
  cases configured with
  | error error => exact .inl ⟨_, .settings error⟩
  | ok settings =>
      cases hread : tree.readText settings.trace with
      | error error => exact .inl ⟨_, .trace hread⟩
      | ok text =>
          cases hrun : ((Replay.start settings.sourceName).run text).1 with
          | error error => exact .inl ⟨_, .replay hread hrun⟩
          | ok events =>
              by_cases hstops : ∃ obstacle, Stops tree (.ok settings) obstacle
              · exact .inl hstops
              · refine .inr ⟨settings, text, rfl, hread, ?_⟩
                obtain ⟨items, hlogged, htext⟩ := analyseText_of_replayed hrun tree
                rw [work, analyse_eq, hread]
                dsimp only
                rw [htext]
                refine finished_of_tell line hlogged
                  (Replay.hasError_run settings.sourceName text) ?_
                intro directory htables hdirectory
                rw [← Option.not_isSome_iff_eq_none, Option.isSome_iff_exists]
                rintro ⟨error, hwrite⟩
                exact hstops ⟨_, .listings hread hrun htables hdirectory hwrite⟩

end

/-! ## The command line -/

section

variable {libraries : Libraries (StateM FileTree)} {arguments : List String}
  {environment : Environment} {configured : Except SettingsError Settings}

/-- A run does the work for its settings, and shows it at the level that they set. -/
theorem run_eq (hkeeps : libraries.KeepsFiles)
    (h : configured? libraries arguments environment tree = some configured) :
    (run libraries arguments environment : StateM FileTree Response) tree =
      ((work configured tree).1.at libraries.logLine (shownLevel configured),
        (work configured tree).2) := by
  have hsame := hkeeps arguments environment tree
  unfold configured? at h
  unfold run
  simp only [bind, StateT.bind]
  rcases hcollect : libraries.collect arguments environment tree with ⟨collected, after⟩
  obtain rfl : tree = after := by rw [hsame, hcollect]
  rw [hcollect] at h
  cases collected with
  | shown text => cases h
  | refused message =>
      obtain rfl := Option.some.inj h
      rfl
  | values values =>
      obtain rfl := Option.some.inj h
      dsimp only
      cases Settings.ofValues values <;> rfl

end

open Replay in
/-- What a declaration and a negative index leave behind. -/
theorem run_row_and_diagnostic :
    let session := ((start "a.c").run "type i\ndeclare 1 x\nindex -1 3\n").2.session
    ((start "a.c").run "type i\ndeclare 1 x\nindex -1 3\n").1 = .ok 3 ∧
      session.diagnostics = #[{ sourceName := "a.c", line := 2, kind := .arrayIndex }] ∧
      Listing.tokens session.tokens = "No token table entries\n" ∧
      Listing.symbols session.symbols =
        "Lexeme | Type | Line No | Scope | Func No\nx | INT | 1 | GLOBAL | 0\n" ∧
      Listing.constants session.constants = "No constant table entries\n" := by
  let events : List Event := [.beginType 'i', .declare 1 "x", .index (-1) 3]
  let first : Turn := { replay := (start "a.c").after [.beginType 'i'], event := .declare 1 "x" }
  let last : Turn := { replay := first.next, event := .index (-1) 3 }
  have hrun : (start "a.c").run "type i\ndeclare 1 x\nindex -1 3\n" = (.ok 3, last.next) := by
    refine runLines_eq_ok_iff.mpr ⟨replays_iff_exists_events.mpr ⟨events, by decide +kernel, rfl, ?_⟩,
      by decide +kernel⟩
    have hfirst : first.succeeds = true := by
      rw [Turn.succeeds_eq]
      rfl
    exact List.forall_mem_cons.mpr ⟨rfl, List.forall_mem_cons.mpr ⟨hfirst,
      List.forall_mem_cons.mpr ⟨rfl, List.forall_mem_nil _⟩⟩⟩
  have hcoherent : first.replay.session.symbols.Coherent := coherent_after "a.c" _
  have hfree : first.replay.session.symbols.declaredType? (first.key "x") = none :=
    SymbolTable.declaredType?_empty _
  have hpending : first.pendingType = some .int := rfl
  obtain ⟨hnone, hdiagnostics, hgains⟩ :=
    Turn.next_declare_of_new hcoherent (rfl : first.event = _) hpending hfree
  intro session
  have hsession : session = last.next.session := congrArg (fun done => done.2.session) hrun
  have hlast : last.diagnostic? = some (.report "a.c" .arrayIndex 3) := by
    show some (Diagnostic.report first.next.session.sourceName .arrayIndex 3) = _
    rw [first.sourceName_next]
    rfl
  refine ⟨congrArg Prod.fst hrun, ?_, ?_, ?_, ?_⟩
  · have hbefore : last.replay.session.diagnostics = #[] := hdiagnostics
    rw [hsession, last.diagnostics_next, hlast, hbefore]
    rfl
  · rw [hsession, last.tokens_next, show last.nextTokens = .empty from first.tokens_next]
    rfl
  · have hentries : last.next.session.symbols.entries = [{
        key := { name := "x", scope := 0, function := 0 }, declaredType := .int, lines := [1] }] := by
      rw [last.symbols_next]
      exact hgains.entries.trans (by rw [hnone]; rfl)
    have hempty : last.next.session.symbols.isEmpty = false := by
      have hcoherent' : last.next.session.symbols.Coherent := coherent_after "a.c" events
      rw [hcoherent'.isEmpty_eq, hentries]
      rfl
    rw [hsession, Listing.symbols, hempty, hentries]
    decide +kernel
  · rw [hsession, last.constants_next, show last.nextConstants = .empty from first.constants_next]
    rfl

end Program

end SemanticPass
