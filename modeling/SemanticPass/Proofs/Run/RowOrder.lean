import Mathlib.Data.List.Infix
import Mathlib.Order.Bounds.Defs
import SemanticPass.Proofs.Run.GlobalScope
import SemanticPass.Proofs.Run.Resolution
import SemanticPass.Proofs.Run.ScopeCounts

/-!
# The order of the symbol rows

A row of the symbol table is made by one turn, in the scope and the function of that turn, and the
rows stand in the order of the turns that made them. Functions are only counted up, so the rows of
one function stand together: no row stands after a row of a later function. Scopes are counted up
and down, and no row belongs to a scope deeper than the deepest one that was reached.
-/

namespace SemanticPass

namespace SymbolTable.Coherent

variable {table : SymbolTable}

/-- A row of the table has the type of its key. -/
theorem declaredType?_of_mem_entries (h : table.Coherent) {row : SymbolEntry}
    (hmem : row ∈ table.entries) : table.declaredType? row.key = some row.declaredType := by
  rw [entries_eq_filterMap, List.mem_filterMap] at hmem
  obtain ⟨key, -, hrow⟩ := hmem
  rw [← h.map_declaredType_get?, key_of_get? hrow, hrow, Option.map_some]

/-- The first row of a name stands for the first key of the name. -/
theorem map_key_firstNamed? (h : table.Coherent) (name : String) :
    (LinearScan.firstNamed? table.entries name).map SymbolEntry.key =
      table.occurrences.order.toList.find? fun key => key.name == name := by
  rw [LinearScan.firstNamed?, ← h.map_key_entries, List.find?_map]
  rfl

/-- The oldest type of a name is the type of its first row. -/
theorem oldestType?_eq_linearScan (h : table.Coherent) (ho : table.OldestFirst) (name : String) :
    table.oldestType? name =
      (LinearScan.firstNamed? table.entries name).map SymbolEntry.declaredType := by
  rw [oldestType?, h.firstNamed?_eq_linearScan ho]

end SymbolTable.Coherent

/-! ## One turn -/

namespace Turn

variable {turn : Turn} {key : SymbolKey}

/-- The key whose row a turn makes. -/
def made? (turn : Turn) : Option SymbolKey :=
  (turn.sighting?.map Sighting.key).filter turn.creates

theorem made?_eq_some_iff (hc : turn.replay.session.symbols.Coherent) :
    turn.made? = some key ↔ turn.creates key = true := by
  rw [made?, Option.filter_eq_some_iff, and_iff_right_iff_imp]
  intro h
  obtain ⟨seen, hs, rfl⟩ := sighting?_of_creates hc h
  rw [hs, Option.map_some]

/-- The row that a turn makes stands at the end of the table. -/
theorem map_key_entries_next (hc : turn.replay.session.symbols.Coherent) :
    turn.next.session.symbols.entries.map SymbolEntry.key =
      turn.replay.session.symbols.entries.map SymbolEntry.key ++ turn.made?.toList := by
  rw [made?, symbols_next]
  cases hs : turn.sighting? with
  | none => simp [SymbolTable.sight]
  | some seen =>
      have hgains := hc.gains seen
      have hafter : (turn.next.session.symbols.get? seen.key).isSome = true := by
        rw [symbols_next, hs, hgains.row]
        rfl
      rw [hgains.entries, Option.map_some, Option.filter_some, creates, hafter]
      cases hrow : turn.replay.session.symbols.get? seen.key with
      | none => simp
      | some row =>
          have hkeys : ∀ other : SymbolEntry,
              (if other.key = seen.key then other.see seen.line else other).key = other.key := by
            intro other
            split <;> rfl
          simp [Function.comp_def, hkeys]

end Turn

/-! ## Runs -/

namespace Replay

variable {replay : Replay} {events : List Event}

/-- The rows of the table stand in the order of the turns that made them. -/
theorem map_key_entries_after (sourceName : String) (events : List Event) :
    ((start sourceName).after events).session.symbols.entries.map SymbolEntry.key =
      ((start sourceName).turns events).filterMap Turn.made? := by
  induction events using List.reverseRecOn with
  | nil => rfl
  | append_singleton events event ih =>
      rw [after_concat, Turn.map_key_entries_next (coherent_after sourceName events), ih, turns_concat,
        List.filterMap_append]
      cases hmade : Turn.made? { replay := (start sourceName).after events, event } with
      | none => simp [hmade]
      | some key => simp [hmade]

/-- The turns of a run do not go back to earlier functions, and neither does its end. -/
theorem pairwise_function_turns (replay : Replay) (events : List Event)
    (h : replay.session.function.toNat + events.count .enterFunction < UInt32.size) :
    ((replay.turns events).Pairwise fun earlier later =>
      earlier.replay.session.function ≤ later.replay.session.function) ∧
    ∀ turn ∈ replay.turns events,
      turn.replay.session.function ≤ (replay.after events).session.function := by
  induction events using List.reverseRecOn with
  | nil => exact ⟨.nil, by simp⟩
  | append_singleton events event ih =>
      rw [List.count_append] at h
      obtain ⟨hsorted, hle⟩ := ih (by omega)
      have hreached := toNat_function_after replay events (by omega)
      have hstep := Turn.toNat_function_next { replay := replay.after events, event } (by
        show (replay.after events).session.function.toNat + [event].count .enterFunction < UInt32.size
        omega)
      dsimp only at hstep
      have hup : (replay.after events).session.function ≤
          (replay.after (events ++ [event])).session.function := by
        rw [after_concat, UInt32.le_iff_toNat_le]
        omega
      rw [turns_concat]
      constructor
      · refine List.pairwise_append.mpr ⟨hsorted, List.pairwise_singleton .., ?_⟩
        intro earlier hmem last hlast
        obtain rfl := List.mem_singleton.mp hlast
        exact hle earlier hmem
      · intro turn hmem
        obtain hmem | hlast := List.mem_append.mp hmem
        · exact UInt32.le_trans (hle turn hmem) hup
        · obtain rfl := List.mem_singleton.mp hlast
          exact hup

/-- The functions of the rows do not decrease. -/
theorem pairwise_function_entries (sourceName : String) {events : List Event}
    (h : events.count .enterFunction < UInt32.size) :
    (((start sourceName).after events).session.symbols.entries.map
      fun row => row.key.function).Pairwise (· ≤ ·) := by
  have hturns := (pairwise_function_turns (start sourceName) events (by
    show 0 + events.count .enterFunction < UInt32.size
    omega)).1
  -- The function of a row is the one of the turn that made it.
  have hplace : ∀ {turn}, turn ∈ (start sourceName).turns events → ∀ key ∈ turn.made?,
      turn.replay.session.function = key.function := by
    intro turn hmem key hmade
    have hc := coherent_of_mem_turns hmem
    exact (Turn.key_eq_of_creates hc ((Turn.made?_eq_some_iff hc).mp hmade)).2
  have hkeys : (((start sourceName).turns events).filterMap Turn.made?).Pairwise
      fun key other => key.function ≤ other.function := by
    rw [List.pairwise_filterMap]
    apply hturns.imp_of_mem
    intro earlier later hearlier hlater hle key hkey other hother
    rwa [← hplace hearlier key hkey, ← hplace hlater other hother]
  rw [← map_key_entries_after, List.pairwise_map] at hkeys
  exact List.pairwise_map.mpr hkeys

/-- The scopes in which a run has been. -/
def scopesReached (replay : Replay) (events : List Event) : Set ScopeId :=
  {scope | ∃ earlier, earlier <+: events ∧ (replay.after earlier).session.scope = scope}

theorem mem_scopesReached_of_mem_turns {turn : Turn} (h : turn ∈ replay.turns events) :
    turn.replay.session.scope ∈ replay.scopesReached events := by
  obtain ⟨earlier, later, hevents, hreplay⟩ := exists_after_of_mem_turns h
  exact ⟨earlier, ⟨turn.event :: later, hevents.symm⟩, by rw [hreplay]⟩

/-- A run has been in a deepest scope. -/
theorem exists_greatest_scopesReached (replay : Replay) (events : List Event) :
    ∃ greatest, IsGreatest (replay.scopesReached events) greatest := by
  induction events using List.reverseRecOn with
  | nil =>
      refine ⟨replay.session.scope, ⟨[], List.prefix_rfl, rfl⟩, ?_⟩
      rintro _ ⟨earlier, hp, rfl⟩
      rw [List.prefix_nil.mp hp]
      exact UInt32.le_refl _
  | append_singleton events event ih =>
      obtain ⟨greatest, ⟨early, hearly, hscope⟩, hupper⟩ := ih
      have hbefore : ∀ earlier, earlier <+: events ++ [event] →
          earlier = events ++ [event] ∨ (replay.after earlier).session.scope ≤ greatest := by
        intro earlier hp
        exact (List.prefix_concat_iff.mp hp).imp id fun hp => hupper ⟨earlier, hp, rfl⟩
      -- The deepest scope so far is left behind or stays the deepest.
      obtain hle | hle := UInt32.le_total (replay.after (events ++ [event])).session.scope greatest
      · refine ⟨greatest, ⟨early, hearly.trans (List.prefix_append ..), hscope⟩, ?_⟩
        rintro _ ⟨earlier, hp, rfl⟩
        obtain rfl | hle' := hbefore earlier hp
        · exact hle
        · exact hle'
      · refine ⟨(replay.after (events ++ [event])).session.scope, ⟨_, List.prefix_rfl, rfl⟩, ?_⟩
        rintro _ ⟨earlier, hp, rfl⟩
        obtain rfl | hle' := hbefore earlier hp
        · exact UInt32.le_refl _
        · exact UInt32.le_trans hle' hle

/-! ## Where a type comes from -/

/-- The oldest key of a name is the first one throughout a run. -/
theorem oldestFirst_after (sourceName : String) (events : List Event) :
    ((start sourceName).after events).session.symbols.OldestFirst := by
  induction events using List.reverseRecOn with
  | nil => exact fun name => by simp [start, Session.start, SymbolTable.empty]
  | append_singleton events event ih =>
      rw [after_concat, Turn.symbols_next]
      cases Turn.sighting? { replay := (start sourceName).after events, event } with
      | none => exact ih
      | some seen => exact ih.record (coherent_after sourceName events) seen.key seen.type seen.line

/-- The first row of a name keeps its key and its type for the rest of a run. -/
theorem firstNamed?_after_append {sourceName : String} {events : List Event} {name : String}
    {oldest : SymbolEntry}
    (h : LinearScan.firstNamed? ((start sourceName).after events).session.symbols.entries name =
      some oldest) (more : List Event) :
    ∃ row, LinearScan.firstNamed?
        ((start sourceName).after (events ++ more)).session.symbols.entries name = some row ∧
      row.key = oldest.key ∧ row.declaredType = oldest.declaredType := by
  have hc := coherent_after sourceName
  have ho := oldestFirst_after sourceName
  have hkeys := map_key_entries_after sourceName (events ++ more)
  rw [turns_append, List.filterMap_append, ← map_key_entries_after] at hkeys
  have hkey := (hc (events ++ more)).map_key_firstNamed? name
  rw [← (hc _).map_key_entries, hkeys, List.find?_append, (hc events).map_key_entries,
    ← (hc events).map_key_firstNamed?, h, Option.map_some, Option.some_or] at hkey
  have htype : ((start sourceName).after events).session.symbols.oldestType? name =
      some oldest.declaredType := by
    rw [(hc events).oldestType?_eq_linearScan (ho events), h, Option.map_some]
  have hstays := oldestType?_after_append htype more
  rw [(hc _).oldestType?_eq_linearScan (ho _)] at hstays
  obtain ⟨row, hrow, hsame⟩ := Option.map_eq_some_iff.mp hkey
  rw [hrow, Option.map_some, Option.some_inj] at hstays
  exact ⟨row, hrow, hsame, hstays⟩

/-- A row has the type that was pending when it was declared or recorded, or the type of the first
row of its name if a use made it. -/
theorem exists_origin {sourceName : String} {events : List Event} {row : SymbolEntry}
    (h : row ∈ ((start sourceName).after events).session.symbols.entries) :
    ∃ origin ∈ (start sourceName).turns events,
      origin.made? = some row.key ∧ origin.key row.key.name = row.key ∧
      (origin.introduces row.key.name = true ∧ origin.pendingType = some row.declaredType ∨
        origin.refers row.key.name = true ∧ ∃ oldest,
          LinearScan.firstNamed? origin.replay.session.symbols.entries row.key.name = some oldest ∧
          oldest.declaredType = row.declaredType) := by
  have htype := (coherent_after sourceName events).declaredType?_of_mem_entries h
  rw [declaredType?_after] at htype
  obtain ⟨origin, horigin, hnext⟩ := Option.bind_eq_some_iff.mp htype
  have hc := coherent_of_origin? horigin
  have hcreates := creates_of_origin? horigin
  have hmem := List.mem_of_find?_eq_some horigin
  obtain ⟨earlier, -, -, hreplay⟩ := exists_after_of_mem_turns hmem
  have hnone := ((Turn.creates_iff hc).mp hcreates).1
  obtain ⟨seen, hs, hkey⟩ := Turn.sighting?_of_creates hc hcreates
  obtain ⟨hplace, hcase⟩ := Turn.sighting?_cases hs
  -- The type of the row is the one that its first sighting brings with it.
  have hseen : seen.type = row.declaredType := by
    rw [Turn.symbols_next, hs, SymbolTable.sight, SymbolTable.declaredType?_record, hkey, hnone]
      at hnext
    simpa using hnext
  rw [hkey, hseen] at hcase
  rw [hkey] at hplace
  refine ⟨origin, hmem, (Turn.made?_eq_some_iff hc).mpr hcreates, hplace, hcase.imp id ?_⟩
  rintro ⟨hrefers, holdest⟩
  refine ⟨hrefers, ?_⟩
  have ho : origin.replay.session.symbols.OldestFirst := by
    rw [hreplay]
    exact oldestFirst_after sourceName earlier
  rw [hc.oldestType?_eq_linearScan ho] at holdest
  exact Option.map_eq_some_iff.mp holdest

/-- The rows of the symbol table after any history with fewer functions than there are numbers for
them. They stand in the order of the turns that made them, and of the functions of those turns; no
key has two of them, and each has the type that its first sighting gave it. -/
theorem rows_grouped_by_function (sourceName : String) (events : List Event)
    (h : events.count .enterFunction < UInt32.size) :
    let session := ((start sourceName).after events).session
    let rows := session.symbols.entries
    rows.map SymbolEntry.key = ((start sourceName).turns events).filterMap Turn.made? ∧
    (rows.map fun row => row.key.function).Pairwise (· ≤ ·) ∧
    (∀ row ∈ rows, row.key.function ≤ session.function) ∧
    (∃ greatest, IsGreatest ((start sourceName).scopesReached events) greatest ∧
      ∀ row ∈ rows, row.key.scope ≤ greatest) ∧
    (∀ row ∈ rows, row.scopeKind = .global ↔ row.key.scope = 0) ∧
    (rows.map SymbolEntry.key).Nodup ∧
    ∀ row ∈ rows, ∃ origin ∈ (start sourceName).turns events,
      origin.made? = some row.key ∧ origin.key row.key.name = row.key ∧
      (origin.introduces row.key.name = true ∧ origin.pendingType = some row.declaredType ∨
        origin.refers row.key.name = true ∧ ∃ oldest first,
          LinearScan.firstNamed? origin.replay.session.symbols.entries row.key.name = some oldest ∧
          oldest.declaredType = row.declaredType ∧
          LinearScan.firstNamed? rows row.key.name = some first ∧
          first.key = oldest.key ∧ first.declaredType = row.declaredType) := by
  intro session rows
  obtain ⟨-, hle⟩ := pairwise_function_turns (start sourceName) events (by
    show 0 + events.count .enterFunction < UInt32.size
    omega)
  obtain ⟨greatest, hgreatest⟩ := exists_greatest_scopesReached (start sourceName) events
  refine ⟨map_key_entries_after sourceName events, pairwise_function_entries sourceName h, ?current,
    ⟨greatest, hgreatest, ?scopes⟩, ?kinds, ?keys, ?types⟩
  case current =>
    intro row hrow
    obtain ⟨origin, hmem, -, hkey, -⟩ := exists_origin hrow
    rw [← hkey]
    exact hle origin hmem
  case scopes =>
    intro row hrow
    obtain ⟨origin, hmem, -, hkey, -⟩ := exists_origin hrow
    rw [← hkey]
    exact hgreatest.2 (mem_scopesReached_of_mem_turns hmem)
  case kinds => exact fun row _ => ScopeKind.ofScope_eq_global_iff _
  case keys => exact (coherent_after sourceName events).nodup_map_key_entries
  case types =>
    intro row hrow
    obtain ⟨origin, hmem, hmade, hkey, hcase⟩ := exists_origin hrow
    refine ⟨origin, hmem, hmade, hkey, hcase.imp id ?_⟩
    rintro ⟨hrefers, oldest, holdest, htype⟩
    obtain ⟨earlier, later, hevents, hreplay⟩ := exists_after_of_mem_turns hmem
    rw [hreplay] at holdest
    obtain ⟨first, hfirst, hsamekey, hsametype⟩ :=
      firstNamed?_after_append holdest (origin.event :: later)
    rw [← hevents] at hfirst
    refine ⟨hrefers, oldest, first, ?_, htype, hfirst, hsamekey, hsametype.trans htype⟩
    rw [hreplay]
    exact holdest

/-- A name is declared outside of all functions and used inside of one. The use makes a row of its
own, with the type of the declaration. -/
theorem rows_of_declaration_and_use :
    let events : List Event :=
      [.beginType 'i', .declare 1 "x", .enterFunction, .enterScope, .use 2 "x"]
    let session := ((start "input.c").after events).session
    events.count .enterFunction < UInt32.size ∧
    session.symbols.entries =
      [{ key := { name := "x", scope := 0, function := 0 }, declaredType := .int, lines := [1] },
       { key := { name := "x", scope := 1, function := 1 }, declaredType := .int,
         lines := [2] }] ∧
    (session.symbols.entries.map fun row => row.key.function).Pairwise (· ≤ ·) ∧
    ∀ row ∈ session.symbols.entries, row.key.function ≤ session.function := by
  intro events session
  have hcount : events.count .enterFunction < UInt32.size := by decide
  obtain ⟨-, hsorted, hle, -⟩ := rows_grouped_by_function "input.c" events hcount
  refine ⟨hcount, ?_, hsorted, hle⟩
  let earlier : List Event := [.beginType 'i', .declare 1 "x", .enterFunction, .enterScope]
  let first : Turn := { replay := (start "input.c").after [.beginType 'i'], event := .declare 1 "x" }
  let last : Turn := { replay := (start "input.c").after earlier, event := .use 2 "x" }
  have hcf : first.replay.session.symbols.Coherent := coherent_after "input.c" _
  have hcl : last.replay.session.symbols.Coherent := coherent_after "input.c" earlier
  have hscope : last.replay.session.scope = 1 := scope_after "input.c" earlier
  have hfunction : last.replay.session.function = 1 := function_after "input.c" earlier
  have hkey : last.key "x" = { name := "x", scope := 1, function := 1 } := by
    rw [Turn.key, Session.keyIn, hscope, hfunction]
  -- The declaration makes the only row that there is at the use.
  have hempty : first.replay.session.symbols = .empty := rfl
  have hpf : first.pendingType = some .int := pendingType_after _ _
  have hfree : first.replay.session.symbols.declaredType? (first.key "x") = none := by
    rw [hempty, SymbolTable.declaredType?_empty]
  obtain ⟨hnone, -, hgains⟩ := Turn.next_declare_of_new hcf (rfl : first.event = _) hpf hfree
  have hrows : last.replay.session.symbols.entries =
      [{ key := { name := "x", scope := 0, function := 0 }, declaredType := .int, lines := [1] }] := by
    have hsymbols : last.replay.session.symbols = first.next.session.symbols :=
      ((Turn.mk (Turn.mk first.next .enterFunction).next .enterScope).symbols_next).trans
        (Turn.mk first.next .enterFunction).symbols_next
    rw [hsymbols, hgains.entries, hnone]
    rfl
  have hnew : last.replay.session.symbols.get? (last.key "x") = none := by
    rw [hcl.get?_eq_linearScan, hrows, hkey]
    rfl
  have holdest : last.replay.session.symbols.oldestType? "x" = some .int := by
    rw [hcl.oldestType?_eq_linearScan (oldestFirst_after "input.c" earlier), hrows]
    rfl
  obtain ⟨-, -, hgains'⟩ := Turn.next_use_of_known hcl (rfl : last.event = _) (by decide) holdest
  show last.next.session.symbols.entries = _
  rw [hgains'.entries, hnew, hrows, hkey]
  rfl

end Replay

end SemanticPass
