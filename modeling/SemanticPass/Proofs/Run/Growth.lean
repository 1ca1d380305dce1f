import Mathlib.Algebra.BigOperators.Group.List.Basic
import SemanticPass.Proofs.Run.FirstRecording
import SemanticPass.Proofs.Run.Parts
import SemanticPass.Proofs.Run.Texts
import SemanticPass.Proofs.Table.Growth

/-!
# Every line in the tables has its event

An event adds one line to one table, or leaves all tables as they are. Which of the two it is can be
told from outside the tables: a declaration adds its line unless it is refused or complained about,
and a use unless it is answered with zero. So the lines in the tables can be counted by looking at
the events, at what they answered and at the complaints.
-/

namespace SemanticPass

/-- The type with a code. -/
def DeclaredType.ofCode? : TypeCode → Option DeclaredType
  | 1 => some .void
  | 2 => some .char
  | 3 => some .int
  | 4 => some .float
  | _ => none

theorem DeclaredType.ofCode?_code (type : DeclaredType) : ofCode? type.code = some type := by
  cases type <;> rfl

/-- A line for one of the tables. -/
inductive Addition where
  /-- A line about a name. -/
  | symbol (seen : Sighting)
  /-- A line about a literal. -/
  | constant (literal : String) (line : LineNumber)
  /-- A line about a lexeme, with the category that it gets if it is new. -/
  | token (lexeme : String) (category : TokenCategory) (line : LineNumber)
  deriving DecidableEq, Repr

/-- The tables after an addition: one of them has one line more, and the others are the same. -/
def Session.Adds (before : Session) (addition? : Option Addition) (after : Session) : Prop :=
  match addition? with
  | none =>
    after.symbols = before.symbols ∧ after.constants = before.constants ∧
      after.tokens = before.tokens
  | some (.symbol seen) =>
    AddsLine Prod.fst (seen.key, seen.type) seen.line before.symbols.rows after.symbols.rows ∧
      after.constants = before.constants ∧ after.tokens = before.tokens
  | some (.constant literal line) =>
    after.symbols = before.symbols ∧
      AddsLine id literal line before.constants.entries after.constants.entries ∧
      after.tokens = before.tokens
  | some (.token lexeme category line) =>
    after.symbols = before.symbols ∧ after.constants = before.constants ∧
      AddsLine Prod.fst (lexeme, category) line before.tokens.rows after.tokens.rows

namespace Turn

/-- The line that a turn adds, as told by its event, the pending type, its complaints and its
answer. -/
def addition? (turn : Turn) : Option Addition :=
  match turn.event with
  | .token tag line lexeme =>
    (TokenCategory.ofTag? tag).map fun category => .token lexeme category line
  | .constant line literal => some (.constant literal line)
  | .declare line name =>
    if turn.produced.any Diagnostic.isRedeclaration then none
    else turn.pendingType.map fun type => .symbol { key := turn.key name, type, line }
  | .record line name =>
    turn.pendingType.map fun type => .symbol { key := turn.key name, type, line }
  | .use line name =>
    (DeclaredType.ofCode? turn.next.lastResolved).map fun type =>
      .symbol { key := turn.key name, type, line }
  | _ => none

/-- Whether a turn declares a name or records one, and is not refused. -/
def introducesAny (turn : Turn) : Bool :=
  match turn.event with
  | .declare .. | .record .. => turn.succeeds
  | _ => false

/-- Whether a turn uses a name and is answered with the code of a type. -/
def refersAny (turn : Turn) : Bool :=
  match turn.event with
  | .use .. => turn.next.lastResolved != .unchecked
  | _ => false

/-- Whether a turn records a token, and is not refused. -/
def classifies (turn : Turn) : Bool :=
  match turn.event with
  | .token .. => turn.succeeds
  | _ => false

variable {turn : Turn}

/-! ## The added line -/

theorem symbols_next_of_ne (h : turn.event.part ≠ .names) :
    turn.next.session.symbols = turn.replay.session.symbols :=
  congrArg Names.symbols (names_next_of_ne h)

/-- A declaration is complained about exactly when its key has a type. -/
theorem any_isRedeclaration {line : LineNumber} {name : String} {type : DeclaredType}
    (he : turn.event = .declare line name) (hp : turn.pendingType = some type) :
    turn.produced.any Diagnostic.isRedeclaration =
      (turn.replay.session.symbols.declaredType? (turn.key name)).isSome := by
  rw [produced_eq]
  cases hd : turn.replay.session.symbols.declaredType? (turn.key name) with
  | none =>
      rw [(declare_of_new he hp hd).1]
      rfl
  | some previous =>
      rw [(declare_of_known he hp hd).1]
      rfl

/-- The line that a turn adds about a name is the one that it records in the symbol table. -/
theorem addition?_eq_sighting? (ht : turn.event.part ≠ .tokens) (hc : turn.event.part ≠ .constants) :
    turn.addition? = turn.sighting?.map .symbol := by
  cases he : turn.event with
  | token tag line lexeme => exact absurd (by rw [he]; rfl) ht
  | constant line literal => exact absurd (by rw [he]; rfl) hc
  | declare line name =>
      cases hp : turn.pendingType with
      | none =>
          cases hd : turn.replay.session.symbols.declaredType? (turn.key name) <;>
            simp [addition?, sighting?, he, hp, hd]
      | some type =>
          cases hd : turn.replay.session.symbols.declaredType? (turn.key name) <;>
            simp [addition?, sighting?, he, any_isRedeclaration he hp, hp, hd]
  | record line name => simp [addition?, sighting?, he, Function.comp_def]
  | use line name =>
      have hunchecked : DeclaredType.ofCode? .unchecked = none := rfl
      by_cases hb : name ∈ builtinNames
      · simp [addition?, sighting?, he, lastResolved_next, nextResolved, hb, hunchecked]
      · cases ho : turn.replay.session.symbols.oldestType? name with
        | none =>
            simp [addition?, sighting?, he, lastResolved_next, nextResolved, hb, ho, hunchecked]
        | some type =>
            simp [addition?, sighting?, he, lastResolved_next, nextResolved, hb, ho,
              DeclaredType.ofCode?_code]
  | _ => simp [addition?, sighting?, he]

theorem adds_token {tag : Char} {line : LineNumber} {lexeme : String}
    (he : turn.event = .token tag line lexeme) (h : turn.replay.session.tokens.Coherent) :
    turn.replay.session.Adds turn.addition? turn.next.session := by
  have hsymbols : turn.next.session.symbols = turn.replay.session.symbols :=
    symbols_next_of_ne (by simp [he, Event.part])
  have hconstants : turn.next.session.constants = turn.replay.session.constants :=
    constants_next_of_ne (by simp [he, Event.part])
  cases hk : TokenCategory.ofTag? tag with
  | none =>
      have hnone : turn.addition? = none := by simp [addition?, he, hk]
      rw [hnone]
      exact ⟨hsymbols, hconstants, by simp [tokens_next, nextTokens, he, hk]⟩
  | some category =>
      have hsome : turn.addition? = some (.token lexeme category line) := by
        simp [addition?, he, hk]
      have htokens : turn.next.session.tokens =
          (turn.replay.session.tokens.classify lexeme category line).2 := by
        simp [tokens_next, nextTokens, he, hk]
      rw [hsome]
      exact ⟨hsymbols, hconstants, htokens ▸ h.addsLine lexeme category line⟩

theorem adds_constant {line : LineNumber} {literal : String}
    (he : turn.event = .constant line literal)
    (h : turn.replay.session.constants.occurrences.Coherent) :
    turn.replay.session.Adds turn.addition? turn.next.session := by
  have hsymbols : turn.next.session.symbols = turn.replay.session.symbols :=
    symbols_next_of_ne (by simp [he, Event.part])
  have htokens : turn.next.session.tokens = turn.replay.session.tokens :=
    tokens_next_of_ne (by simp [he, Event.part])
  have hsome : turn.addition? = some (.constant literal line) := by simp [addition?, he]
  have hconstants : turn.next.session.constants =
      (turn.replay.session.constants.add literal line).2 := by
    simp [constants_next, nextConstants, he]
  rw [hsome]
  exact ⟨hsymbols, hconstants ▸ h.addsLine literal line, htokens⟩

/-- A turn adds its line and leaves the rest of the tables as it was. -/
theorem adds (hs : turn.replay.session.symbols.Coherent)
    (hc : turn.replay.session.constants.occurrences.Coherent)
    (ht : turn.replay.session.tokens.Coherent) :
    turn.replay.session.Adds turn.addition? turn.next.session := by
  cases hp : turn.event.part with
  | tokens =>
      cases he : turn.event with
      | token tag line lexeme => exact adds_token he ht
      | _ => simp [he, Event.part] at hp
  | constants =>
      cases he : turn.event with
      | constant line literal => exact adds_constant he hc
      | _ => simp [he, Event.part] at hp
  | _ =>
      -- Whatever else is recorded is recorded in the symbol table.
      have hothers : turn.next.session.constants = turn.replay.session.constants ∧
          turn.next.session.tokens = turn.replay.session.tokens :=
        ⟨constants_next_of_ne (by simp [hp]), tokens_next_of_ne (by simp [hp])⟩
      rw [addition?_eq_sighting? (by simp [hp]) (by simp [hp])]
      cases hseen : turn.sighting? with
      | none => exact ⟨by rw [symbols_next, hseen]; rfl, hothers⟩
      | some seen =>
          refine ⟨?_, hothers⟩
          rw [symbols_next, hseen]
          exact hs.addsLine seen

/-- A use adds a line exactly when it is answered with the code of a type. -/
theorem isSome_addition?_use {line : LineNumber} {name : String}
    (he : turn.event = .use line name) :
    turn.addition?.isSome = true ↔ turn.next.lastResolved ≠ .unchecked := by
  rw [addition?_eq_sighting? (by simp [he, Event.part]) (by simp [he, Event.part]),
    Option.isSome_map, sighting?, lastResolved_next, nextResolved, he]
  by_cases hb : name ∈ builtinNames
  · simp [hb]
  · cases ho : turn.replay.session.symbols.oldestType? name with
    | none => simp [hb, ho]
    | some type => simp [hb, ho, type.code_ne_unchecked]

/-! ## Lines counted by turns -/

/-- The line of a turn is counted with the declarations, recordings and uses that were answered, and
so is a complaint about a declaration. -/
theorem countP_names (turn : Turn) :
    turn.sighting?.toList.length + turn.produced.countP Diagnostic.isRedeclaration =
      [turn].countP introducesAny + [turn].countP refersAny := by
  have hcount : ∀ p : Turn → Bool, [turn].countP p = if p turn = true then 1 else 0 :=
    fun p => List.countP_singleton
  rw [hcount, hcount, produced_eq, introducesAny, refersAny, succeeds_eq, lastResolved_next]
  cases he : turn.event with
  | declare line name =>
      cases hp : turn.pendingType with
      | none =>
          cases hd : turn.replay.session.symbols.declaredType? (turn.key name) <;>
            simp [sighting?, diagnostic?, refusal?, he, hp, hd]
      | some type =>
          cases hd : turn.replay.session.symbols.declaredType? (turn.key name) with
          | none => simp [sighting?, diagnostic?, refusal?, he, hp, hd]
          | some previous =>
              simp [sighting?, diagnostic?, refusal?, he, hp, hd, Diagnostic.isRedeclaration]
  | record line name =>
      cases hp : turn.pendingType <;> simp [sighting?, diagnostic?, refusal?, he, hp]
  | use line name =>
      by_cases hb : name ∈ builtinNames
      · simp [sighting?, diagnostic?, nextResolved, he, hb]
      · cases ho : turn.replay.session.symbols.oldestType? name with
        | none =>
            simp [sighting?, diagnostic?, nextResolved, he, hb, ho, Diagnostic.isRedeclaration]
        | some type =>
            simp [sighting?, diagnostic?, nextResolved, he, hb, ho, type.code_ne_unchecked]
  | check actual expected line =>
      by_cases hc : turn.operand actual = turn.wanted expected <;>
        simp [sighting?, diagnostic?, he, hc, Diagnostic.isRedeclaration]
  | index value line =>
      by_cases hv : value < 0 <;> simp [sighting?, diagnostic?, he, hv, Diagnostic.isRedeclaration]
  | _ => simp [sighting?, diagnostic?, he]

theorem lineCount_symbols_next (h : turn.replay.session.symbols.Coherent) :
    lineCount turn.next.session.symbols.rows =
      lineCount turn.replay.session.symbols.rows + turn.sighting?.toList.length := by
  rw [symbols_next]
  cases turn.sighting? with
  | none => rfl
  | some seen => exact (h.addsLine seen).lineCount_eq

theorem lineCount_constants_next (h : turn.replay.session.constants.occurrences.Coherent) :
    lineCount turn.next.session.constants.entries =
      lineCount turn.replay.session.constants.entries +
        [turn].countP fun turn => turn.event.part = .constants := by
  rw [List.countP_singleton]
  cases he : turn.event with
  | constant line literal =>
      rw [constants_next, nextConstants, he]
      exact (h.addsLine literal line).lineCount_eq
  | _ =>
      rw [constants_next_of_ne (by simp [he, Event.part])]
      simp [Event.part]

theorem lineCount_tokens_next (h : turn.replay.session.tokens.Coherent) :
    lineCount turn.next.session.tokens.rows =
      lineCount turn.replay.session.tokens.rows + [turn].countP classifies := by
  rw [List.countP_singleton, classifies, succeeds_eq]
  cases he : turn.event with
  | token tag line lexeme =>
      cases hk : TokenCategory.ofTag? tag with
      | none => simp [tokens_next, nextTokens, refusal?, he, hk]
      | some category =>
          simpa [tokens_next, nextTokens, refusal?, he, hk] using
            (h.addsLine lexeme category line).lineCount_eq
  | _ =>
      rw [tokens_next_of_ne (by simp [he, Event.part])]
      simp

theorem constants_coherent_next (h : turn.replay.session.constants.occurrences.Coherent) :
    turn.next.session.constants.occurrences.Coherent := by
  rw [constants_next]
  unfold nextConstants
  split
  · rename_i line literal he
    exact h.record literal line
  · exact h

end Turn

namespace Replay

/-- The list of literals agrees with the map of their lines throughout a run. -/
theorem constants_coherent_after (sourceName : String) (events : List Event) :
    ((start sourceName).after events).session.constants.occurrences.Coherent :=
  after_induction (P := fun replay => replay.session.constants.occurrences.Coherent)
    (fun _ => Turn.constants_coherent_next) Occurrences.coherent_empty events

/-- What every turn of a run adds to a quantity, the run adds up. -/
theorem sum_after (measure : Replay → Nat) (gain : Turn → Nat) (replay : Replay)
    (h : ∀ earlier event, measure (Turn.mk (replay.after earlier) event).next =
      measure (replay.after earlier) + gain { replay := replay.after earlier, event })
    (events : List Event) :
    measure (replay.after events) = measure replay + ((replay.turns events).map gain).sum := by
  induction events using List.reverseRecOn with
  | nil => rfl
  | append_singleton events event ih =>
      rw [after_concat, h, ih, turns_concat, List.map_append, List.sum_append, List.map_singleton,
        List.sum_singleton, Nat.add_assoc]

theorem sum_map_countP (turns : List Turn) (p : Turn → Bool) :
    (turns.map fun turn => [turn].countP p).sum = turns.countP p := by
  have hflat := List.countP_flatMap (p := p) (l := turns) (f := fun turn => [turn])
  rw [List.flatMap_singleton'] at hflat
  exact hflat.symm

/-- The lines in the symbol table and the complaints about declarations are as many as the
declarations and recordings that were not refused and the uses that were answered. -/
theorem lineCount_symbols_after (sourceName : String) (events : List Event) :
    let run := (start sourceName).turns events
    let session := ((start sourceName).after events).session
    lineCount session.symbols.rows + session.diagnostics.toList.countP Diagnostic.isRedeclaration =
      run.countP Turn.introducesAny + run.countP Turn.refersAny := by
  intro run session
  have hlines : lineCount session.symbols.rows =
      (run.map fun turn => turn.sighting?.toList.length).sum := by
    have hsum := sum_after (fun replay => lineCount replay.session.symbols.rows)
      (fun turn => turn.sighting?.toList.length) (start sourceName)
      (fun earlier _ => Turn.lineCount_symbols_next (coherent_after sourceName earlier)) events
    exact hsum.trans (Nat.zero_add _)
  have hcomplaints : session.diagnostics.toList.countP Diagnostic.isRedeclaration =
      (run.map fun turn => turn.produced.countP Diagnostic.isRedeclaration).sum := by
    rw [diagnostics_after, List.countP_flatMap]
    rfl
  calc
    _ = (run.map fun turn => turn.sighting?.toList.length +
          turn.produced.countP Diagnostic.isRedeclaration).sum := by
      rw [hlines, hcomplaints, List.sum_map_add]
    _ = (run.map fun turn =>
          [turn].countP Turn.introducesAny + [turn].countP Turn.refersAny).sum := by
      simp only [Turn.countP_names]
    _ = _ := by rw [List.sum_map_add, sum_map_countP, sum_map_countP]

/-- The lines in the constant table are as many as the literals of a run. -/
theorem lineCount_constants_after (sourceName : String) (events : List Event) :
    lineCount ((start sourceName).after events).session.constants.entries =
      events.countP fun event => event.part = .constants := by
  have hsum := sum_after (fun replay => lineCount replay.session.constants.entries)
    (fun turn => [turn].countP fun turn => turn.event.part = .constants) (start sourceName)
    (fun earlier _ => Turn.lineCount_constants_next (constants_coherent_after sourceName earlier))
    events
  have hevents := map_event_turns (start sourceName) events
  rw [hsum, sum_map_countP]
  conv_rhs => rw [← hevents, List.countP_map]
  exact Nat.zero_add _

/-- The lines in the token table are as many as the tokens that were not refused. -/
theorem lineCount_tokens_after (sourceName : String) (events : List Event) :
    lineCount ((start sourceName).after events).session.tokens.rows =
      ((start sourceName).turns events).countP Turn.classifies := by
  have hsum := sum_after (fun replay => lineCount replay.session.tokens.rows)
    (fun turn => [turn].countP Turn.classifies) (start sourceName)
    (fun earlier _ => Turn.lineCount_tokens_next (tokens_coherent_after sourceName earlier)) events
  rw [hsum, sum_map_countP]
  exact Nat.zero_add _

/-- After any history the next event adds one line to one table or none to any, and the lines of all
tables are accounted for by the events of the run and the complaints about declarations. -/
theorem tables_grow (sourceName : String) (events : List Event) :
    let run := (start sourceName).turns events
    let session := ((start sourceName).after events).session
    (∀ event,
      let turn : Turn := { replay := (start sourceName).after events, event }
      session.Adds turn.addition? turn.next.session ∧
      ∀ line name, event = .use line name →
        (turn.addition?.isSome = true ↔ turn.next.lastResolved ≠ .unchecked)) ∧
    lineCount session.symbols.rows + session.diagnostics.toList.countP Diagnostic.isRedeclaration =
      run.countP Turn.introducesAny + run.countP Turn.refersAny ∧
    lineCount session.constants.entries = (events.countP fun event => event.part = .constants) ∧
    lineCount session.tokens.rows = run.countP Turn.classifies := by
  intro run session
  refine ⟨fun event => ⟨?_, ?_⟩, lineCount_symbols_after sourceName events,
    lineCount_constants_after sourceName events, lineCount_tokens_after sourceName events⟩
  · exact Turn.adds (coherent_after sourceName events) (constants_coherent_after sourceName events)
      (tokens_coherent_after sourceName events)
  · intro line name he
    exact Turn.isSome_addition?_use he

end Replay

end SemanticPass
