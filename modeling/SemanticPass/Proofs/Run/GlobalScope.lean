import SemanticPass.Proofs.Run.Blocks
import SemanticPass.Proofs.Run.FirstRecording
import SemanticPass.Proofs.Table.LinearScan

/-!
# Declarations in the global scope

The global scope belongs to the function that was entered last, as every other scope does. A global
name is therefore known until the next function is entered, whatever scopes are entered and left in
between, and from then on it can be declared anew. The rows of the global scope differ in their
names or in their functions.
-/

namespace SemanticPass

namespace Turn

variable {turn : Turn}

/-- The row of a key is made in the scope and the function of the key. -/
theorem key_eq_of_creates {key : SymbolKey} (hc : turn.replay.session.symbols.Coherent)
    (h : turn.creates key = true) :
    turn.replay.session.scope = key.scope ∧ turn.replay.session.function = key.function := by
  obtain ⟨seen, hs, rfl⟩ := sighting?_of_creates hc h
  have hkey := (sighting?_cases hs).1
  exact ⟨congrArg SymbolKey.scope hkey, congrArg SymbolKey.function hkey⟩

/-- A turn takes a key of the global scope if it introduces the name there, or uses it and finds a
declaration. -/
theorem takes_global_iff {name : String} {function : FunctionId} :
    turn.takes { name, scope := 0, function } ↔
      (turn.introduces name = true ∨ turn.refers name = true) ∧
        turn.replay.session.scope = 0 ∧ turn.replay.session.function = function := by
  simp only [takes, introducesAt, refersAt, Bool.and_eq_true, beq_iff_eq, key, Session.keyIn,
    SymbolKey.mk.injEq, true_and, or_and_right]

end Turn

/-- The rows of the global scope differ in their names or in their functions. -/
theorem SymbolTable.Coherent.nodup_global {table : SymbolTable} (h : table.Coherent) :
    ((table.entries.filter fun row => row.scopeKind = .global).map fun row =>
      (row.key.name, row.key.function)).Nodup := by
  have hkeys := h.nodup_map_key_entries
  rw [List.Nodup, List.pairwise_map] at hkeys ⊢
  refine (hkeys.filter _).imp_of_mem fun {row other} hrow hother hne hsame => hne ?_
  have hglobal : ∀ {entry : SymbolEntry},
      entry ∈ table.entries.filter (fun row => row.scopeKind = .global) → entry.key.scope = 0 := by
    intro entry hmem
    have hkind := (List.mem_filter.mp hmem).2
    exact (ScopeKind.ofScope_eq_global_iff _).mp (of_decide_eq_true hkind)
  obtain ⟨hname, hfunction⟩ := Prod.mk.inj hsame
  have hscope := (hglobal hrow).trans (hglobal hother).symm
  cases hr : row.key
  cases ho : other.key
  simp_all

namespace Replay

/-! ## Functions -/

/-- The function stays until the next one is entered, and changes then in a run of fewer events than
there are functions. -/
theorem function_after_append (sourceName : String) (earlier later : List Event) :
    (.enterFunction ∉ later →
      ((start sourceName).after (earlier ++ later)).session.function =
        ((start sourceName).after earlier).session.function) ∧
    ((earlier ++ later).length < UInt32.size → .enterFunction ∈ later →
      ((start sourceName).after (earlier ++ later)).session.function ≠
        ((start sourceName).after earlier).session.function) := by
  rw [function_after, function_after, List.count_append]
  refine ⟨fun hnot => by rw [List.count_eq_zero.mpr hnot, Nat.add_zero], fun hshort hmem heq => ?_⟩
  have hpos : 0 < later.count .enterFunction := List.count_pos_iff.mpr hmem
  have hcount : (earlier ++ later).count .enterFunction < UInt32.size :=
    Nat.lt_of_le_of_lt List.count_le_length hshort
  rw [List.count_append] at hcount
  have hnat := congrArg UInt32.toNat heq
  rw [UInt32.toNat_ofNat_of_lt' hcount, UInt32.toNat_ofNat_of_lt' (by omega)] at hnat
  omega

/-! ## Rows -/

/-- A row stays for the rest of a run. -/
theorem isSome_declaredType?_after_append {sourceName : String} {events : List Event}
    {key : SymbolKey}
    (h : (((start sourceName).after events).session.symbols.declaredType? key).isSome = true)
    (more : List Event) :
    (((start sourceName).after (events ++ more)).session.symbols.declaredType? key).isSome =
      true := by
  rw [isSome_declaredType?_after] at h ⊢
  obtain ⟨turn, hmem, htakes⟩ := h
  rw [turns_append]
  exact ⟨turn, List.mem_append_left _ hmem, htakes⟩

/-- A function is entered between two turns that make global rows of one name. -/
theorem enterFunction_mem_between {sourceName : String} {earlier between : List Event}
    {first second : Event} {key other : SymbolKey}
    (hfirst : Turn.creates { replay := (start sourceName).after earlier, event := first } key = true)
    (hsecond : Turn.creates
      { replay := (start sourceName).after (earlier ++ first :: between), event := second } other =
        true)
    (hglobal : key.scope = 0 ∧ other.scope = 0) (hname : key.name = other.name) :
    .enterFunction ∈ between := by
  have hc := coherent_after sourceName
  obtain ⟨-, hfunction⟩ := Turn.key_eq_of_creates (hc earlier) hfirst
  obtain ⟨-, hother⟩ := Turn.key_eq_of_creates (hc _) hsecond
  have hmade := ((Turn.creates_iff (hc earlier)).mp hfirst).2
  have hnew := ((Turn.creates_iff (hc _)).mp hsecond).1
  by_contra hnot
  have hstays : .enterFunction ∉ first :: between := by
    rw [List.mem_cons, not_or]
    refine ⟨fun heq => ?_, hnot⟩
    -- The turn that makes a row enters no function.
    obtain ⟨seen, hs, -⟩ := Turn.sighting?_of_creates (hc earlier) hfirst
    simp [Turn.sighting?, ← heq] at hs
  have hsame := (function_after_append sourceName earlier (first :: between)).1 hstays
  have hkey : key = other := by
    have hscopes := hglobal.1.trans hglobal.2.symm
    have hfunctions := hfunction.symm.trans (hsame.symm.trans hother)
    cases key
    cases other
    simp_all
  rw [← after_concat] at hmade
  have hknown := isSome_declaredType?_after_append hmade between
  rw [List.append_assoc, List.singleton_append, hkey, hnew] at hknown
  cases hknown

/-! ## Declarations -/

/-- A declaration is complained about exactly if its key was taken before. -/
theorem complained_iff_taken {sourceName : String} {events : List Event} {type : DeclaredType}
    (h : ((start sourceName).after events).session.pendingType = some type) (line : LineNumber)
    (name : String) :
    let turn : Turn := { replay := (start sourceName).after events, event := .declare line name }
    (∃ sameType, turn.next.session.diagnostics = turn.replay.session.diagnostics.push
      { sourceName, line, kind := .multipleDeclaration sameType }) ↔
        ∃ earlier ∈ (start sourceName).turns events, earlier.takes (turn.key name) := by
  intro turn
  have hp : turn.pendingType = some type := h
  have hc : turn.replay.session.symbols.Coherent := coherent_after sourceName events
  have hsource : turn.replay.session.sourceName = sourceName := sourceName_after sourceName events
  have htaken := isSome_declaredType?_after sourceName events (turn.key name)
  refine Iff.trans ⟨?_, fun hknown => ?_⟩ htaken
  · rintro ⟨sameType, hpush⟩
    by_contra hnew
    have hnone := Option.not_isSome_iff_eq_none.mp hnew
    have hsame := (Turn.next_declare_of_new hc (rfl : turn.event = _) hp hnone).2.1
    have hsize := congrArg Array.size (hsame.symm.trans hpush)
    simp at hsize
  · obtain ⟨row, -, hpush, -⟩ :=
      Turn.next_declare_of_known hc (rfl : turn.event = _) hp hknown
    rw [hsource] at hpush
    exact ⟨_, hpush⟩

/-- What a declaration in the global scope does after any history. It is complained about exactly if
the name was declared or recorded, or its use resolved, in the global scope of the same function, as
it was if that happened after the last function was entered. So the rows of the global scope differ
in their names or in their functions, and a function is entered between two turns that make global
rows of one name. -/
theorem declare_global (sourceName : String) (events : List Event) :
    let session := ((start sourceName).after events).session
    (∀ type line name, session.scope = 0 → session.pendingType = some type →
      let turn : Turn := { replay := (start sourceName).after events, event := .declare line name }
      let complained := ∃ sameType, turn.next.session.diagnostics = session.diagnostics.push
        { sourceName, line, kind := .multipleDeclaration sameType }
      turn.succeeds = true ∧
      (complained ↔ ∃ earlier ∈ (start sourceName).turns events,
        (earlier.introduces name = true ∨ earlier.refers name = true) ∧
          earlier.replay.session.scope = 0 ∧ earlier.replay.session.function = session.function) ∧
      ∀ earlier first later, events = earlier ++ first :: later → .enterFunction ∉ later →
        Turn.introduces { replay := (start sourceName).after earlier, event := first } name = true →
        ((start sourceName).after earlier).session.scope = 0 → complained) ∧
    (∀ earlier later, events = earlier ++ later →
      (.enterFunction ∉ later →
        session.function = ((start sourceName).after earlier).session.function) ∧
      (events.length < UInt32.size → .enterFunction ∈ later →
        session.function ≠ ((start sourceName).after earlier).session.function)) ∧
    ((session.symbols.entries.filter fun row => row.scopeKind = .global).map fun row =>
      (row.key.name, row.key.function)).Nodup ∧
    ∀ earlier first between second later, events = earlier ++ first :: (between ++ second :: later) →
      ∀ name function other,
        Turn.creates { replay := (start sourceName).after earlier, event := first }
          { name, scope := 0, function } = true →
        Turn.creates
          { replay := (start sourceName).after (earlier ++ first :: between), event := second }
          { name, scope := 0, function := other } = true →
        .enterFunction ∈ between := by
  intro session
  refine ⟨?declares, ?functions, ?rows, ?creators⟩
  case declares =>
    intro type line name hglobal hp turn complained
    have hkey : turn.key name = { name, scope := 0, function := session.function } := by
      rw [Turn.key, Session.keyIn, show turn.replay.session.scope = 0 from hglobal]
    have hiff : complained ↔ ∃ earlier ∈ (start sourceName).turns events,
        (earlier.introduces name = true ∨ earlier.refers name = true) ∧
          earlier.replay.session.scope = 0 ∧
            earlier.replay.session.function = session.function := by
      refine (complained_iff_taken hp line name).trans ?_
      refine exists_congr fun earlier => and_congr_right fun _ => ?_
      rw [hkey, Turn.takes_global_iff]
    refine ⟨?_, hiff, ?_⟩
    · rw [Turn.succeeds_eq, Turn.refusal?, show turn.pendingType = some type from hp]
      rfl
    · rintro earlier first later rfl hnot hi hscope
      refine hiff.mpr ⟨_, mem_turns_append earlier first later, .inl hi, hscope, ?_⟩
      refine ((function_after_append sourceName earlier (first :: later)).1 ?_).symm
      rw [List.mem_cons, not_or]
      refine ⟨fun heq => ?_, hnot⟩
      simp [← heq, Turn.introduces, Event.introduces] at hi
  case functions =>
    rintro earlier later rfl
    exact function_after_append sourceName earlier later
  case rows => exact (coherent_after sourceName events).nodup_global
  case creators =>
    intro earlier first between second later _ name function other hfirst hsecond
    exact enterFunction_mem_between hfirst hsecond ⟨rfl, rfl⟩ rfl

/-- A global name that was declared before a block is still known after it. -/
theorem declare_global_after_block :
    let events : List Event := [.beginType 'i', .declare 1 "x", .enterScope, .exitScope]
    let turn : Turn := { replay := (start "input.c").after events, event := .declare 2 "x" }
    turn.pendingType = some .int ∧ turn.replay.session.scope = 0 ∧
    ∃ sameType, turn.next.session.diagnostics = turn.replay.session.diagnostics.push
      { sourceName := "input.c", line := 2, kind := .multipleDeclaration sameType } := by
  intro events turn
  have hp : turn.pendingType = some .int := by
    show ((start "input.c").after events).session.pendingType = some .int
    rw [pendingType_after]
    rfl
  let outer : Turn := { replay := (start "input.c").after [.beginType 'i'], event := .declare 1 "x" }
  let enter : Turn := { replay := outer.next, event := .enterScope }
  let leave : Turn := { replay := enter.next, event := .exitScope }
  have hinside : leave.replay.session.scope = 1 := by
    show enter.next.session.scope = 1
    rw [enter.scope_next]
    show outer.next.session.scope + 1 = 1
    rw [outer.scope_next]
    rfl
  have hscope : turn.replay.session.scope = 0 := by
    show leave.next.session.scope = 0
    rw [leave.scope_next, Turn.nextScope, hinside]
    rfl
  refine ⟨hp, hscope, ?_⟩
  have hdeclares := (declare_global "input.c" events).1 .int 2 "x" hscope hp
  refine hdeclares.2.2 [.beginType 'i'] (.declare 1 "x") [.enterScope, .exitScope] rfl (by simp)
    ?_ rfl
  exact (Turn.introduces_iff _ "x").mpr ⟨rfl, rfl⟩

/-- A global name can be declared twice without a complaint: a function was entered in between. -/
theorem declare_global_in_next_function :
    let events : List Event := [.beginType 'i', .declare 1 "x", .enterFunction]
    let turn : Turn := { replay := (start "input.c").after events, event := .declare 2 "x" }
    turn.pendingType = some .int ∧ turn.replay.session.scope = 0 ∧
    (∃ first ∈ (start "input.c").turns events, first.event = .declare 1 "x" ∧
      first.introduces "x" = true ∧ first.replay.session.scope = 0) ∧
    turn.next.session.diagnostics = turn.replay.session.diagnostics ∧
    turn.next.session.symbols.entries =
      [{ key := { name := "x", scope := 0, function := 0 }, declaredType := .int, lines := [1] },
       { key := { name := "x", scope := 0, function := 1 }, declaredType := .int,
         lines := [2] }] := by
  intro events turn
  let first : Turn := { replay := (start "input.c").after [.beginType 'i'], event := .declare 1 "x" }
  have hfirst : first ∈ (start "input.c").turns events := .tail _ (.head _)
  have hp : turn.pendingType = some .int := pendingType_after _ events
  have hpf : first.pendingType = some .int := pendingType_after _ _
  have hscope : turn.replay.session.scope = 0 := scope_after "input.c" events
  have hfunction : turn.replay.session.function = 1 := function_after "input.c" events
  have hcf : first.replay.session.symbols.Coherent := coherent_after "input.c" _
  have hc : turn.replay.session.symbols.Coherent := coherent_after "input.c" events
  have hempty : first.replay.session.symbols = .empty := rfl
  have hfree : first.replay.session.symbols.declaredType? (first.key "x") = none := by
    rw [hempty, SymbolTable.declaredType?_empty]
  -- The first declaration makes the only row, and entering a function leaves it alone.
  obtain ⟨hnone, -, hgains⟩ := Turn.next_declare_of_new hcf (rfl : first.event = _) hpf hfree
  have hsymbols : turn.replay.session.symbols = first.next.session.symbols :=
    (Turn.mk first.next .enterFunction).symbols_next
  have hkey : turn.key "x" = { name := "x", scope := 0, function := 1 } := by
    rw [Turn.key, Session.keyIn, hscope, hfunction]
  have hne : turn.key "x" ≠ first.key "x" := by
    rw [hkey]
    exact fun heq => absurd (congrArg SymbolKey.function heq) (by decide)
  have hnew : turn.replay.session.symbols.declaredType? (turn.key "x") = none := by
    rw [← hc.map_declaredType_get?, hsymbols, hgains.others _ hne, hcf.map_declaredType_get?, hempty]
    exact SymbolTable.declaredType?_empty _
  obtain ⟨hnone', hdiagnostics, hgains'⟩ := Turn.next_declare_of_new hc (rfl : turn.event = _) hp hnew
  refine ⟨hp, hscope, ⟨first, hfirst, rfl, ?_, rfl⟩, hdiagnostics, ?_⟩
  · exact (Turn.introduces_iff first "x").mpr ⟨rfl, by rw [hpf]; rfl⟩
  · rw [hgains'.entries, hnone', hsymbols, hgains.entries, hnone, hkey]
    rfl

end Replay

end SemanticPass
