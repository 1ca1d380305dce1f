import Mathlib.Data.List.Induction
import SemanticPass.Proofs.Run.Recording

/-!
# The first recording of a key

The first turn that is recorded at a key makes its row and fixes its type for the rest of the
run. A declaration at the key after that turn is complained about, by comparison with the fixed
type, and changes nothing else. So all declarations at a key are complained about but the one that
made its row.
-/

namespace SemanticPass

/-- Whether an event declares a name. -/
def Event.declares (event : Event) (name : String) : Bool :=
  match event with
  | .declare _ found => found == name
  | _ => false

theorem Event.introduces_of_declares {event : Event} {name : String}
    (h : event.declares name = true) : event.introduces name = true := by
  cases event <;> simp_all [declares, introduces]

/-- Whether a complaint is about a name that is declared where it is known. -/
def Diagnostic.isRedeclaration (diagnostic : Diagnostic) : Bool :=
  match diagnostic.kind with
  | .multipleDeclaration _ => true
  | _ => false

namespace Turn

/-- Whether a turn makes the row of a key. -/
def creates (turn : Turn) (key : SymbolKey) : Bool :=
  (turn.replay.session.symbols.get? key).isNone && (turn.next.session.symbols.get? key).isSome

/-- Whether a turn declares, records or uses the name of a key, in its scope and function. -/
def concerns (turn : Turn) (key : SymbolKey) : Bool :=
  (turn.event.introduces key.name || turn.event.uses key.name) && turn.key key.name == key

/-- Whether a turn declares the name of a key, in its scope and function and with a type. -/
def declares (turn : Turn) (key : SymbolKey) : Bool :=
  turn.event.declares key.name && turn.key key.name == key && turn.pendingType.isSome

/-- The diagnostics that a turn adds to those before. -/
def produced (turn : Turn) : List Diagnostic :=
  turn.next.session.diagnostics.toList.drop turn.replay.session.diagnostics.size

variable {turn : Turn} {key : SymbolKey}

/-! ## The type of a key -/

theorem creates_iff (hc : turn.replay.session.symbols.Coherent) :
    turn.creates key = true ↔
      turn.replay.session.symbols.declaredType? key = none ∧
        (turn.next.session.symbols.declaredType? key).isSome = true := by
  rw [creates, Bool.and_eq_true, ← Option.not_isSome, hc.isSome_get?,
    (coherent_next hc).isSome_get?]
  simp

/-- The row of a key is made by a sighting of that key. -/
theorem sighting?_of_creates (hc : turn.replay.session.symbols.Coherent)
    (h : turn.creates key = true) : ∃ seen, turn.sighting? = some seen ∧ seen.key = key := by
  obtain ⟨hnone, hsome⟩ := (creates_iff hc).mp h
  rw [symbols_next] at hsome
  cases hs : turn.sighting? with
  | none => simp [hs, SymbolTable.sight, hnone] at hsome
  | some seen =>
      rw [hs, SymbolTable.sight, SymbolTable.isSome_declaredType?_record] at hsome
      exact ⟨seen, rfl, hsome.resolve_right (by simp [hnone])⟩

/-- A declaration or a recording that makes a row stands at its key and gives it the pending
type. -/
theorem declaredType?_of_creates (hc : turn.replay.session.symbols.Coherent)
    (h : turn.creates key = true) (hi : turn.event.introduces key.name = true) :
    turn.key key.name = key ∧ ∃ type, turn.pendingType = some type ∧
      turn.next.session.symbols.declaredType? key = some type := by
  obtain ⟨hnone, -⟩ := (creates_iff hc).mp h
  obtain ⟨seen, hs, rfl⟩ := sighting?_of_creates hc h
  obtain ⟨hkey, ⟨-, hpending⟩ | ⟨hrefers, -⟩⟩ := sighting?_cases hs
  · refine ⟨hkey, seen.type, hpending, ?_⟩
    rw [symbols_next, hs, SymbolTable.sight, SymbolTable.declaredType?_record, hnone]
    simp
  · -- A use makes rows as well, but is no introduction.
    have huses := ((refers_iff turn _).mp hrefers).1
    cases he : turn.event <;> simp_all [Event.introduces, Event.uses]

/-- No turn changes the type of a key that has one. -/
theorem declaredType?_next_of_known {type : DeclaredType}
    (h : turn.replay.session.symbols.declaredType? key = some type) :
    turn.next.session.symbols.declaredType? key = some type := by
  rw [symbols_next]
  cases turn.sighting? with
  | none => exact h
  | some seen =>
      rw [SymbolTable.sight, SymbolTable.declaredType?_record]
      by_cases hk : seen.key = key
      · simp [hk, h]
      · simp [hk, h]

/-! ## Complaints -/

/-- A declaration of a known key is complained about and changes nothing else. -/
theorem next_redeclare {line : LineNumber} {name : String} {type previous : DeclaredType}
    (he : turn.event = .declare line name) (hp : turn.pendingType = some type)
    (hd : turn.replay.session.symbols.declaredType? (turn.key name) = some previous) :
    turn.next = {
      session := turn.replay.session.report (.multipleDeclaration (previous == type)) line
      lastResolved := turn.replay.lastResolved } := by
  rw [next, he]
  simp only [Replay.apply, Replay.settle]
  rw [Session.declare_of_known hp hd]

theorem produced_eq (turn : Turn) : turn.produced = turn.diagnostic?.toList := by
  rw [produced, diagnostics_next]
  simp

theorem declares_iff :
    turn.declares key = true ↔
      (∃ line, turn.event = .declare line key.name) ∧ turn.key key.name = key ∧
        ∃ type, turn.pendingType = some type := by
  rw [declares, Bool.and_eq_true, Bool.and_eq_true, beq_iff_eq, Option.isSome_iff_exists, and_assoc]
  refine and_congr_left fun _ => ?_
  cases turn.event <;> simp [Event.declares]

/-- Only a declaration is complained about as one of a known name. -/
theorem redeclaration_cases {diagnostic : Diagnostic} (h : diagnostic ∈ turn.produced)
    (hr : diagnostic.isRedeclaration = true) :
    ∃ line name, turn.event = .declare line name ∧ turn.pendingType.isSome = true ∧
      (turn.replay.session.symbols.declaredType? (turn.key name)).isSome = true := by
  rw [produced_eq, Option.mem_toList] at h
  rcases diagnostic?_cases h with ⟨line, name, type, previous, he, hp, hd, -⟩ |
    ⟨_, _, _, _, _, rfl⟩ | ⟨_, _, _, _, _, rfl⟩ | ⟨_, _, _, _, rfl⟩
  · exact ⟨line, name, he, by simp [hp], by simp [hd]⟩
  all_goals cases hr

/-- A turn at a key is complained about, and once, if it declares the key and the key has a type. -/
theorem countP_produced (h : turn.concerns key = true) :
    turn.produced.countP Diagnostic.isRedeclaration =
      if turn.declares key = true ∧
          (turn.replay.session.symbols.declaredType? key).isSome = true then 1 else 0 := by
  have hkey : turn.key key.name = key := by simpa using (Bool.and_eq_true_iff.mp h).2
  split
  · rename_i hd
    obtain ⟨⟨line, he⟩, -, type, hp⟩ := declares_iff.mp hd.1
    obtain ⟨previous, hprevious⟩ := Option.isSome_iff_exists.mp hd.2
    rw [produced_eq, (declare_of_known he hp (by rw [hkey, hprevious])).1]
    rfl
  · rename_i hnot
    rw [List.countP_eq_zero]
    intro diagnostic hmem hr
    obtain ⟨line, name, he, hp, hd⟩ := redeclaration_cases hmem hr
    obtain rfl : name = key.name := by
      simpa [concerns, he, Event.introduces, Event.uses] using (Bool.and_eq_true_iff.mp h).1
    rw [hkey] at hd
    exact hnot ⟨declares_iff.mpr ⟨⟨line, he⟩, hkey, Option.isSome_iff_exists.mp hp⟩, hd⟩

/-- A turn makes one complaint at a key if it declares the key and the key has a type, and
otherwise none. -/
theorem countP_produced_at (turn : Turn) (key : SymbolKey) :
    (([turn].filter (·.concerns key)).flatMap produced).countP Diagnostic.isRedeclaration =
      if turn.declares key = true ∧
          (turn.replay.session.symbols.declaredType? key).isSome = true then 1 else 0 := by
  by_cases h : turn.concerns key = true
  · rw [List.filter_cons, if_pos h, List.filter_nil, List.flatMap_singleton, countP_produced h]
  · have hnot : turn.declares key ≠ true := by
      intro hd
      obtain ⟨⟨line, he⟩, hkey, -⟩ := declares_iff.mp hd
      exact h (by simp [concerns, he, Event.introduces, hkey])
    rw [List.filter_cons, if_neg h, if_neg (fun hd => hnot hd.1)]
    rfl

/-- A declaration makes the row of its key if there is none. -/
theorem creates_and_declares_iff (hc : turn.replay.session.symbols.Coherent)
    (hnone : turn.replay.session.symbols.declaredType? key = none) :
    turn.creates key = true ∧ turn.event.declares key.name = true ↔ turn.declares key = true := by
  constructor
  · rintro ⟨h, he⟩
    obtain ⟨hkey, type, hp, -⟩ :=
      declaredType?_of_creates hc h (Event.introduces_of_declares he)
    simp [declares, he, hkey, hp]
  · intro h
    obtain ⟨⟨line, he⟩, hkey, type, hp⟩ := declares_iff.mp h
    have hs := (declare_of_new he hp (by rw [hkey, hnone])).2
    refine ⟨(creates_iff hc).mpr ⟨hnone, ?_⟩, by simp [he, Event.declares]⟩
    rw [symbols_next, hs, SymbolTable.sight, SymbolTable.isSome_declaredType?_record]
    exact .inl hkey

end Turn

namespace Replay

/-- The turn of a run that makes the row of a key. -/
def origin? (replay : Replay) (events : List Event) (key : SymbolKey) : Option Turn :=
  (replay.turns events).find? fun turn => turn.creates key

theorem origin?_concat (replay : Replay) (events : List Event) (event : Event)
    (key : SymbolKey) :
    replay.origin? (events ++ [event]) key =
      (replay.origin? events key).or
        (if Turn.creates { replay := replay.after events, event } key
        then some { replay := replay.after events, event } else none) := by
  rw [origin?, turns_concat, List.find?_append, List.find?_singleton]
  rfl

theorem creates_of_origin? {replay : Replay} {events : List Event} {key : SymbolKey}
    {origin : Turn} (h : replay.origin? events key = some origin) : origin.creates key = true := by
  unfold origin? at h
  have hcreates := List.find?_some h
  exact hcreates

/-- The turn that makes the row of a key starts from tables that agree. -/
theorem coherent_of_origin? {sourceName : String} {events : List Event} {key : SymbolKey}
    {origin : Turn} (h : (start sourceName).origin? events key = some origin) :
    origin.replay.session.symbols.Coherent :=
  coherent_of_mem_turns (List.mem_of_find?_eq_some h)

/-- A key has the type that it got when its row was made. -/
theorem declaredType?_after (sourceName : String) (events : List Event) (key : SymbolKey) :
    ((start sourceName).after events).session.symbols.declaredType? key =
      ((start sourceName).origin? events key).bind fun origin =>
        origin.next.session.symbols.declaredType? key := by
  induction events using List.reverseRecOn with
  | nil => simp [origin?, start, Session.start, SymbolTable.empty, SymbolTable.declaredType?]
  | append_singleton events event ih =>
      rw [after_concat, origin?_concat]
      cases ho : (start sourceName).origin? events key with
      | none =>
          rw [ho] at ih
          generalize hturn : Turn.mk ((start sourceName).after events) event = turn
          have hcreates : turn.creates key = true ↔ _ :=
            Turn.creates_iff (hturn ▸ coherent_after sourceName events)
          split
          · rfl
          · rename_i hnot
            have hnone := mt (fun hsome => hcreates.mpr ⟨hturn ▸ ih, hsome⟩) hnot
            simpa using hnone
      | some origin =>
          have hcreates := creates_of_origin? ho
          obtain ⟨-, hsome⟩ := (Turn.creates_iff (coherent_of_origin? ho)).mp hcreates
          obtain ⟨type, htype⟩ := Option.isSome_iff_exists.mp hsome
          rw [ho, Option.bind_some, htype] at ih
          rw [Option.some_or, Option.bind_some, htype]
          exact Turn.declaredType?_next_of_known ih

/-- A key has a type as soon as its row was made. -/
theorem isSome_declaredType?_iff_origin? (sourceName : String) (events : List Event)
    (key : SymbolKey) :
    (((start sourceName).after events).session.symbols.declaredType? key).isSome =
      ((start sourceName).origin? events key).isSome := by
  rw [declaredType?_after]
  cases ho : (start sourceName).origin? events key with
  | none => rfl
  | some origin =>
      exact ((Turn.creates_iff (coherent_of_origin? ho)).mp (creates_of_origin? ho)).2

/-- The diagnostics of a run are those that its turns produce, in order. -/
theorem diagnostics_after (sourceName : String) (events : List Event) :
    ((start sourceName).after events).session.diagnostics.toList =
      ((start sourceName).turns events).flatMap Turn.produced := by
  induction events using List.reverseRecOn with
  | nil => rfl
  | append_singleton events event ih =>
      rw [after_concat, Turn.diagnostics_next, turns_concat, List.flatMap_append, ← ih,
        Array.toList_append, List.flatMap_singleton, Turn.produced_eq]
      simp

/-- All declarations at a key are complained about, but for the one that made its row. -/
theorem countP_redeclarations (sourceName : String) (events : List Event) (key : SymbolKey) :
    (((((start sourceName).turns events).filter (·.concerns key)).flatMap Turn.produced).countP
        Diagnostic.isRedeclaration) +
        (if ((start sourceName).origin? events key).any (·.event.declares key.name) then 1 else 0) =
      ((start sourceName).turns events).countP (·.declares key) := by
  induction events using List.reverseRecOn with
  | nil => rfl
  | append_singleton events event ih =>
      have hknown := isSome_declaredType?_iff_origin? sourceName events key
      have hc := coherent_after sourceName events
      rw [turns_concat, List.filter_append, List.flatMap_append, List.countP_append,
        List.countP_append, origin?_concat, Turn.countP_produced_at, List.countP_singleton]
      generalize hturn : Turn.mk ((start sourceName).after events) event = turn
      have hreplay : turn.replay = (start sourceName).after events := by rw [← hturn]
      rw [← hreplay] at hknown hc
      cases ho : (start sourceName).origin? events key with
      | none =>
          -- Without a row nothing is complained about, and a declaration makes the row.
          rw [ho] at ih hknown
          have hnone := Option.isNone_iff_eq_none.mp (by simpa using hknown)
          have hfirst := Turn.creates_and_declares_iff hc hnone
          have horigin : ((if turn.creates key = true then some turn else none).any
              (·.event.declares key.name)) = turn.declares key := by
            rw [Bool.eq_iff_iff, ← hfirst]
            by_cases hcreates : turn.creates key = true <;> simp [hcreates]
          rw [hnone, Option.none_or, horigin]
          simp only [Option.any_none, Option.isSome_none, Bool.false_eq_true, and_false, if_false,
            Nat.add_zero] at ih ⊢
          rw [ih]
      | some origin =>
          rw [ho] at ih hknown
          rw [Option.isSome_some] at hknown
          rw [Option.some_or, ← ih, if_congr (and_iff_left hknown) rfl rfl, Nat.add_right_comm]

/-- After the first recording of a key each declaration of it is complained about once, by
comparison with the type it was recorded with, and changes nothing else. So the complaints about a
key are as many as its declarations, or one less if its first recording was a declaration. -/
theorem redeclare_after (sourceName : String) (events : List Event) :
    let run := (start sourceName).turns events
    (∀ key origin type, (start sourceName).origin? events key = some origin →
      origin.event.introduces key.name = true → origin.pendingType = some type →
      ∀ line pending,
        let turn : Turn :=
          { replay := (start sourceName).after events, event := .declare line key.name }
        let before := turn.replay.session
        turn.key key.name = key → turn.pendingType = some pending →
        turn.succeeds = true ∧
        turn.next = {
          session := { before with
            hasError := true
            diagnostics := before.diagnostics.push
              { sourceName, line, kind := .multipleDeclaration (decide (pending = type)) }
            journal := turn.next.session.journal }
          lastResolved := turn.replay.lastResolved }) ∧
    (∀ key, ((run.filter (·.concerns key)).flatMap Turn.produced).countP Diagnostic.isRedeclaration +
        (if ((start sourceName).origin? events key).any (·.event.declares key.name) then 1 else 0) =
      run.countP (·.declares key)) ∧
    ((start sourceName).after events).session.diagnostics.toList = run.flatMap Turn.produced ∧
    ∀ turn : Turn, ∀ diagnostic ∈ turn.produced, diagnostic.isRedeclaration = true →
      ∃ line name, turn.event = .declare line name := by
  intro run
  refine ⟨?_, countP_redeclarations sourceName events, diagnostics_after sourceName events, ?_⟩
  · intro key origin type ho hi ht line pending turn before hkey hp
    have hsource : before.sourceName = sourceName := sourceName_after sourceName events
    have hd : before.symbols.declaredType? key = some type := by
      obtain ⟨-, recorded, hrecorded, htype⟩ :=
        Turn.declaredType?_of_creates (coherent_of_origin? ho) (creates_of_origin? ho) hi
      obtain rfl : recorded = type := Option.some.inj (hrecorded.symm.trans ht)
      have hafter := declaredType?_after sourceName events key
      rwa [ho, Option.bind_some, htype] at hafter
    have hnext : turn.next = {
        session := before.report (.multipleDeclaration (type == pending)) line
        lastResolved := turn.replay.lastResolved } :=
      Turn.next_redeclare rfl hp (by rw [hkey]; exact hd)
    have hflag : (type == pending) = decide (pending = type) := by
      rw [Bool.eq_iff_iff, beq_iff_eq, decide_eq_true_iff, eq_comm]
    refine ⟨?_, ?_⟩
    · rw [Turn.succeeds_eq, Turn.refusal?, hp]
      rfl
    · rw [hnext, hflag, ← hsource]
      rfl
  · intro turn diagnostic hmem hr
    obtain ⟨line, name, he, -⟩ := Turn.redeclaration_cases hmem hr
    exact ⟨line, name, he⟩

/-- A recording makes a name known as a declaration does, and a declaration with another type is
then complained about. -/
theorem redeclare_after_recording :
    let events : List Event := [.beginType 'i', .record 1 "x", .beginType 'f']
    let turn : Turn := { replay := (start "input.c").after events, event := .declare 9 "x" }
    turn.pendingType = some .float ∧
    turn.next.session.diagnostics =
      turn.replay.session.diagnostics.push
        { sourceName := "input.c", line := 9, kind := .multipleDeclaration false } ∧
    turn.next.session.symbols = turn.replay.session.symbols := by
  intro events turn
  let key : SymbolKey := { name := "x", scope := 0, function := 0 }
  let first : Turn := { replay := start "input.c", event := .beginType 'i' }
  let origin : Turn := { replay := first.next, event := .record 1 "x" }
  let last : Turn := { replay := origin.next, event := .beginType 'f' }
  have hturns : (start "input.c").turns events = [first, origin, last] := rfl
  have hunknown : SymbolTable.empty.declaredType? key = none := by
    simp [SymbolTable.empty, SymbolTable.declaredType?]
  have hfirst : first.creates key = false := by
    rw [Bool.eq_false_iff, Ne, Turn.creates_iff SymbolTable.coherent_empty]
    rintro ⟨-, hsome⟩
    rw [show first.next.session.symbols.declaredType? key = none from hunknown] at hsome
    cases hsome
  have hmade : origin.creates key = true := by
    refine (Turn.creates_iff SymbolTable.coherent_empty).mpr ⟨hunknown, ?_⟩
    rw [origin.symbols_next]
    exact (SymbolTable.isSome_declaredType?_record ..).mpr (.inl rfl)
  have horigin : (start "input.c").origin? events key = some origin := by
    rw [origin?, hturns, List.find?_cons, hfirst, List.find?_cons, hmade]
  have hkey : turn.key key.name = key := by
    show SymbolKey.mk "x" last.next.session.scope last.next.session.function = key
    rw [last.scope_next, last.function_next]
    show SymbolKey.mk "x" origin.next.session.scope origin.next.session.function = key
    rw [origin.scope_next, origin.function_next]
    rfl
  have hp : turn.pendingType = some .float := last.pendingType_next
  obtain ⟨hreport, -⟩ := redeclare_after "input.c" events
  obtain ⟨-, hnext⟩ := hreport key origin .int horigin rfl rfl 9 .float hkey hp
  refine ⟨hp, ?_, ?_⟩
  · exact congrArg (·.session.diagnostics) hnext
  · exact congrArg (·.session.symbols) hnext

end Replay

end SemanticPass
