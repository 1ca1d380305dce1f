import SemanticPass.Proofs.Run.TypeChecks

/-!
# The parts of a session are independent

Tokens, constants, names, type checks and array indices are parts of an analysis that know little of
each other. What a part comes to is decided by its own events; a type check needs those on names as
well, because it may compare the type of a use. Events of other parts can be left out, refused, or
put anywhere between.
-/

namespace SemanticPass

/-- A part of an analysis. -/
inductive Part where
  /-- The tokens. -/
  | tokens
  /-- The literal constants. -/
  | constants
  /-- The names, with all that decides what they refer to. -/
  | names
  /-- The type checks. -/
  | checks
  /-- The array indices. -/
  | indices
  deriving DecidableEq, Repr

namespace Event

/-- The part that an event belongs to. -/
def part : Event → Part
  | .token .. => .tokens
  | .constant .. => .constants
  | .beginType _ | .endType | .declare .. | .record .. | .use .. => .names
  | .enterScope | .exitScope | .enterFunction => .names
  | .expect _ | .check .. => .checks
  | .index .. => .indices

/-- The events of some parts, in their order. -/
def keep (parts : List Part) (events : List Event) : List Event :=
  events.filter fun event => event.part ∈ parts

/-- The complaint about a negative index. -/
def indexComplaint? (sourceName : String) : Event → Option Diagnostic
  | .index value line => if value < 0 then some (.report sourceName .arrayIndex line) else none
  | _ => none

end Event

/-- The part whose events can lead to a complaint. -/
def Diagnostic.part (diagnostic : Diagnostic) : Part :=
  match diagnostic.kind with
  | .undeclaredVariable | .multipleDeclaration _ => .names
  | .typeMismatch => .checks
  | .arrayIndex => .indices

/-- The diagnostics of a part, the oldest first. -/
def Session.complaints (session : Session) (part : Part) : List Diagnostic :=
  session.diagnostics.toList.filter fun diagnostic => diagnostic.part = part

/-- What a replay knows of names. -/
structure Names where
  /-- The name of the source. -/
  sourceName : String
  /-- The current scope. -/
  scope : ScopeId
  /-- The current function. -/
  function : FunctionId
  /-- The type that declarations give now. -/
  pendingType : Option DeclaredType
  /-- The symbol table. -/
  symbols : SymbolTable
  /-- The diagnostics about uses and declarations, the oldest first. -/
  complaints : List Diagnostic

/-- What a replay knows of type checks. -/
structure Checks where
  /-- The type that the next check without one of its own expects. -/
  expectedType : TypeCode
  /-- What the last use answered. -/
  lastResolved : TypeCode
  /-- The diagnostics about types, the oldest first. -/
  complaints : List Diagnostic

namespace Turn

variable {turn other : Turn}

/-! ## Complaints -/

/-- A turn makes a complaint of its own part. -/
theorem part_of_diagnostic? {diagnostic : Diagnostic} (h : turn.diagnostic? = some diagnostic) :
    diagnostic.part = turn.event.part := by
  rcases diagnostic?_cases h with ⟨_, _, _, _, he, _, _, rfl⟩ | ⟨_, _, he, _, _, rfl⟩ |
    ⟨_, _, _, he, _, rfl⟩ | ⟨_, _, he, _, rfl⟩ <;> rw [he] <;> rfl

theorem complaints_next (turn : Turn) (part : Part) :
    turn.next.session.complaints part = turn.replay.session.complaints part ++
      if turn.event.part = part then turn.diagnostic?.toList else [] := by
  rw [Session.complaints, diagnostics_next, Array.toList_append, List.filter_append]
  refine congrArg _ ?_
  cases hd : turn.diagnostic? with
  | none => simp
  | some diagnostic => by_cases hp : turn.event.part = part <;> simp [part_of_diagnostic? hd, hp]

/-- A turn of another part makes no complaint of a part. -/
theorem complaints_next_of_ne {part : Part} (h : turn.event.part ≠ part) :
    turn.next.session.complaints part = turn.replay.session.complaints part := by
  rw [complaints_next, if_neg h, List.append_nil]

end Turn

namespace Replay

/-- What a replay knows of names. -/
def names (replay : Replay) : Names :=
  { sourceName := replay.session.sourceName
    scope := replay.session.scope
    function := replay.session.function
    pendingType := replay.session.pendingType
    symbols := replay.session.symbols
    complaints := replay.session.complaints .names }

/-- What a replay knows of type checks. -/
def checks (replay : Replay) : Checks :=
  { expectedType := replay.session.expectedType
    lastResolved := replay.lastResolved
    complaints := replay.session.complaints .checks }

/-! ## From turns to runs -/

/-- What is seen of a run is decided by its events of some parts: it is what these events alone lead
to, and runs that have them in common look the same. -/
def Only {β : Type} (replay : Replay) (view : Replay → β) (parts : List Part) : Prop :=
  ∀ events, view (replay.after events) = view (replay.after (Event.keep parts events)) ∧
    ∀ others, Event.keep parts others = Event.keep parts events →
      view (replay.after others) = view (replay.after events)

variable {β γ : Type} {parts : List Part}

/-- Runs look the same as they begin if turns of other parts are not seen and turns of these parts
keep up what is seen. -/
theorem view_after_keep {view : Replay → β}
    (hdrop : ∀ turn : Turn, turn.event.part ∉ parts → view turn.next = view turn.replay)
    (hkeep : ∀ (replay other : Replay) (event : Event), event.part ∈ parts →
      view replay = view other → view (Turn.mk replay event).next = view (Turn.mk other event).next)
    {replay other : Replay} (h : view replay = view other) (events : List Event) :
    view (replay.after events) = view (other.after (Event.keep parts events)) := by
  induction events generalizing replay other with
  | nil => exact h
  | cons event events ih =>
      rw [after_cons, Event.keep, List.filter_cons]
      by_cases hp : event.part ∈ parts
      · rw [if_pos (decide_eq_true hp)]
        exact ih (hkeep replay other event hp h)
      · rw [if_neg (by simpa using hp)]
        exact ih ((hdrop { replay, event } hp).trans h)

theorem only_of_turn {view : Replay → β}
    (hdrop : ∀ turn : Turn, turn.event.part ∉ parts → view turn.next = view turn.replay)
    (hkeep : ∀ (replay other : Replay) (event : Event), event.part ∈ parts →
      view replay = view other → view (Turn.mk replay event).next = view (Turn.mk other event).next)
    (replay : Replay) : replay.Only view parts := by
  intro events
  have honly := view_after_keep hdrop hkeep (rfl : view replay = view replay)
  refine ⟨honly events, fun others h => ?_⟩
  rw [honly others, h, ← honly events]

/-- What can be computed from what is seen is decided by the same events. -/
theorem Only.map {replay : Replay} {view : Replay → β} (h : replay.Only view parts) (f : β → γ) :
    replay.Only (fun replay => f (view replay)) parts := by
  intro events
  obtain ⟨halone, hcommon⟩ := h events
  exact ⟨congrArg f halone, fun others ho => congrArg f (hcommon others ho)⟩

end Replay

namespace Turn

variable {turn other : Turn}

/-! ## Turns of other parts -/

theorem tokens_next_of_ne (h : turn.event.part ≠ .tokens) :
    turn.next.session.tokens = turn.replay.session.tokens := by
  rw [tokens_next]
  cases he : turn.event <;> simp_all [Event.part, nextTokens]

theorem constants_next_of_ne (h : turn.event.part ≠ .constants) :
    turn.next.session.constants = turn.replay.session.constants := by
  rw [constants_next]
  cases he : turn.event <;> simp_all [Event.part, nextConstants]

theorem names_next_of_ne (h : turn.event.part ≠ .names) :
    turn.next.names = turn.replay.names := by
  rw [Replay.names, complaints_next_of_ne h, sourceName_next, scope_next, function_next,
    pendingType_next, symbols_next, Replay.names]
  cases he : turn.event <;>
    simp_all [Event.part, nextScope, nextFunction, nextType, pendingType, sighting?,
      SymbolTable.sight]

theorem checks_next_of_ne (hnames : turn.event.part ≠ .names) (h : turn.event.part ≠ .checks) :
    turn.next.checks = turn.replay.checks := by
  rw [Replay.checks, complaints_next_of_ne h, expectedType_next, lastResolved_next, Replay.checks]
  cases he : turn.event <;> simp_all [Event.part, nextExpected, nextResolved]

end Turn

namespace Turn

variable {replay other : Replay} {event : Event}

/-! ## Turns of the part itself -/

theorem tokens_next_congr (h : replay.session.tokens = other.session.tokens) :
    (Turn.mk replay event).next.session.tokens = (Turn.mk other event).next.session.tokens := by
  rw [tokens_next, tokens_next, nextTokens, nextTokens, h]

theorem constants_next_congr (h : replay.session.constants = other.session.constants) :
    (Turn.mk replay event).next.session.constants =
      (Turn.mk other event).next.session.constants := by
  rw [constants_next, constants_next, nextConstants, nextConstants, h]

/-- An event on names does the same to names if the same is known of them. -/
theorem names_next_congr (hp : event.part = .names) (h : replay.names = other.names) :
    (Turn.mk replay event).next.names = (Turn.mk other event).next.names := by
  simp only [Replay.names, Names.mk.injEq] at h
  obtain ⟨hsource, hscope, hfunction, htype, hsymbols, hcomplaints⟩ := h
  have hkey : ∀ name, (Turn.mk replay event).key name = (Turn.mk other event).key name := by
    intro name
    simp only [key, Session.keyIn, hscope, hfunction]
  have hdiagnostic : (Turn.mk replay event).diagnostic? = (Turn.mk other event).diagnostic? := by
    cases event <;> simp [Event.part] at hp <;>
      simp only [diagnostic?, pendingType, hkey, hsource, htype, hsymbols]
  have hsighting : (Turn.mk replay event).sighting? = (Turn.mk other event).sighting? := by
    simp only [sighting?, pendingType, hkey, htype, hsymbols]
  have hnextScope : (Turn.mk replay event).nextScope = (Turn.mk other event).nextScope := by
    simp only [nextScope, hscope]
  have hnextFunction : (Turn.mk replay event).nextFunction = (Turn.mk other event).nextFunction := by
    simp only [nextFunction, hfunction]
  have hnextType : (Turn.mk replay event).nextType = (Turn.mk other event).nextType := by
    have hpending : (Turn.mk replay event).pendingType = (Turn.mk other event).pendingType := htype
    rw [nextType, nextType, hpending]
  rw [Replay.names, Replay.names, Names.mk.injEq]
  refine ⟨?_, ?_, ?_, ?_, ?_, ?_⟩
  · rw [sourceName_next, sourceName_next, hsource]
  · rw [scope_next, scope_next, hnextScope]
  · rw [function_next, function_next, hnextFunction]
  · rw [pendingType_next, pendingType_next, hnextType]
  · rw [symbols_next, symbols_next, hsymbols, hsighting]
  · rw [complaints_next, complaints_next, hcomplaints, hdiagnostic]

/-- An event does the same to type checks if the same is known of them and of names. -/
theorem checks_next_congr (hn : replay.names = other.names) (h : replay.checks = other.checks) :
    (Turn.mk replay event).next.checks = (Turn.mk other event).next.checks := by
  simp only [Replay.names, Names.mk.injEq] at hn
  obtain ⟨hsource, -, -, -, hsymbols, -⟩ := hn
  simp only [Replay.checks, Checks.mk.injEq] at h
  obtain ⟨hexpected, hresolved, hcomplaints⟩ := h
  have hoperand : ∀ actual,
      (Turn.mk replay event).operand actual = (Turn.mk other event).operand actual := by
    rintro (code | _)
    · rfl
    · exact hresolved
  have hcomplaints : (Turn.mk replay event).next.session.complaints .checks =
      (Turn.mk other event).next.session.complaints .checks := by
    rw [complaints_next, complaints_next, hcomplaints]
    cases event <;> simp [diagnostic?, wanted, Event.part, hoperand, hexpected, hsource]
  simp only [Replay.checks, expectedType_next, lastResolved_next, nextExpected, nextResolved,
    hexpected, hresolved, hsymbols, hcomplaints]

end Turn

namespace Replay

/-- The complaints about indices are one for each negative index. -/
theorem complaints_indices_after (sourceName : String) (events : List Event) :
    ((start sourceName).after events).session.complaints .indices =
      events.filterMap (Event.indexComplaint? sourceName) := by
  induction events using List.reverseRecOn with
  | nil => rfl
  | append_singleton events event ih =>
      have hsource := sourceName_after sourceName events
      rw [after_concat, Turn.complaints_next, ih, List.filterMap_append]
      refine congrArg _ ?_
      cases event with
      | index value line =>
          by_cases hv : value < 0 <;>
            simp [Turn.diagnostic?, Event.part, Event.indexComplaint?, hv, hsource]
      | _ => simp [Event.part, Event.indexComplaint?]

theorem filterMap_indexComplaint?_keep (sourceName : String) (events : List Event) :
    (Event.keep [.indices] events).filterMap (Event.indexComplaint? sourceName) =
      events.filterMap (Event.indexComplaint? sourceName) := by
  rw [Event.keep, List.filterMap_filter]
  congr 1
  funext event
  cases event <;> rfl

/-- Each part of a run is decided by its own events, and type checks by those and the ones on names.
The complaints about indices are one for each negative index. -/
theorem parts_independent (sourceName : String) :
    let fresh : Replay := start sourceName
    fresh.Only (·.session.tokens) [.tokens] ∧
    fresh.Only (·.session.constants) [.constants] ∧
    fresh.Only names [.names] ∧
    fresh.Only checks [.names, .checks] ∧
    fresh.Only (·.session.complaints .indices) [.indices] ∧
    ∀ events : List Event, (fresh.after events).session.complaints .indices =
      events.filterMap (Event.indexComplaint? sourceName) := by
  intro fresh
  refine ⟨?_, ?_, ?_, ?_, ?_, complaints_indices_after sourceName⟩
  · refine only_of_turn (fun turn h => ?_) (fun replay other event _ => Turn.tokens_next_congr) fresh
    exact Turn.tokens_next_of_ne (by simpa using h)
  · refine only_of_turn (fun turn h => ?_) (fun replay other event _ => Turn.constants_next_congr)
      fresh
    exact Turn.constants_next_of_ne (by simpa using h)
  · refine only_of_turn (fun turn h => ?_) (fun replay other event hp => ?_) fresh
    · exact Turn.names_next_of_ne (by simpa using h)
    · exact Turn.names_next_congr (by simpa using hp)
  · -- A check may compare the type of a use, so names are carried along with checks.
    have hboth : fresh.Only (fun replay => (replay.names, replay.checks)) [.names, .checks] := by
      refine only_of_turn (fun turn h => ?_) (fun replay other event hp h => ?_) fresh
      · have hne : turn.event.part ≠ .names ∧ turn.event.part ≠ .checks := by simpa using h
        exact Prod.ext (Turn.names_next_of_ne hne.1) (Turn.checks_next_of_ne hne.1 hne.2)
      · obtain ⟨hn, hc⟩ := Prod.mk.inj h
        refine Prod.ext ?_ (Turn.checks_next_congr hn hc)
        by_cases hnames : event.part = .names
        · exact Turn.names_next_congr hnames hn
        · have hsame : ∀ replay, (Turn.mk replay event).next.names = replay.names :=
            fun replay => Turn.names_next_of_ne hnames
          exact (hsame replay).trans (hn.trans (hsame other).symm)
    exact hboth.map Prod.snd
  · intro events
    simp only [fresh, complaints_indices_after, filterMap_indexComplaint?_keep]
    refine ⟨trivial, fun others h => ?_⟩
    rw [← filterMap_indexComplaint?_keep, h, filterMap_indexComplaint?_keep]

end Replay

end SemanticPass
