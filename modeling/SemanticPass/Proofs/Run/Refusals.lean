import SemanticPass.Proofs.Run.FirstFault
import SemanticPass.Proofs.Run.Recording

/-!
# Refused events change nothing

An event is refused for its tag, for want of a pending type, or because the global scope cannot be
left; nothing else is a reason. What is refused leaves the replay as it was, and so do the
operations of a session when they are called with any scope. A run in which refused events are
skipped is therefore the run of the other events, each of them applied where it was applied before.
-/

namespace SemanticPass

/-! ## Tags -/

/-- Seven letters are tags of token categories. -/
theorem TokenCategory.ofTag?_eq_none_iff {tag : Char} :
    ofTag? tag = none ↔ tag ∉ ['c', 'v', 'p', 'o', 'k', 's', 'd'] := by
  constructor
  · intro h hmem
    simp only [List.mem_cons, List.not_mem_nil, or_false] at hmem
    rcases hmem with rfl | rfl | rfl | rfl | rfl | rfl | rfl <;> cases h
  · intro hmem
    cases h : ofTag? tag with
    | none => rfl
    | some category =>
        rw [eq_tag_of_ofTag? h] at hmem
        cases category <;> exact absurd (by decide) hmem

/-- Four letters are tags of declared types. -/
theorem DeclaredType.ofTag?_eq_none_iff {tag : Char} :
    ofTag? tag = none ↔ tag ∉ ['i', 'f', 'v', 'c'] := by
  constructor
  · intro h hmem
    simp only [List.mem_cons, List.not_mem_nil, or_false] at hmem
    rcases hmem with rfl | rfl | rfl | rfl <;> cases h
  · intro hmem
    cases h : ofTag? tag with
    | none => rfl
    | some type =>
        rw [eq_tag_of_ofTag? h] at hmem
        cases type <;> exact absurd (by decide) hmem

/-! ## Operations of a session -/

namespace Session

variable {session after : Session} {violation : Violation}

/-- A classification is refused for its tag alone, and changes nothing then. -/
theorem classify_eq_error_iff (lexeme : String) (tag : Char) (line : LineNumber) :
    session.classify lexeme tag line = (.error violation, after) ↔
      tag ∉ ['c', 'v', 'p', 'o', 'k', 's', 'd'] ∧ violation = .unknownTokenTag tag ∧
        after = session := by
  rw [← TokenCategory.ofTag?_eq_none_iff]
  cases h : TokenCategory.ofTag? tag with
  | none => simp [classify, h, eq_comm]
  | some category => simp [classify, h]

/-- A type is refused for its tag alone, and changes nothing then. -/
theorem setTypeTag_eq_error_iff (tag : Char) :
    session.setTypeTag tag = (.error violation, after) ↔
      tag ∉ ['i', 'f', 'v', 'c'] ∧ violation = .unknownTypeTag tag ∧ after = session := by
  rw [← DeclaredType.ofTag?_eq_none_iff]
  cases h : DeclaredType.ofTag? tag with
  | none => simp [setTypeTag, h, eq_comm]
  | some type => simp [setTypeTag, h]

/-- A recording is refused for want of a pending type, and changes nothing then. -/
theorem recordDeclaration_eq_error_iff (name : String) (line : LineNumber) (scope : ScopeId) :
    session.recordDeclaration name line scope = (.error violation, after) ↔
      session.pendingType = none ∧ violation = .missingDeclaredType name line ∧
        after = session := by
  cases h : session.pendingType with
  | none => simp [recordDeclaration_of_unset h, eq_comm]
  | some type => simp [recordDeclaration_of_pending h]

/-- A declaration is refused for want of a pending type, and changes nothing then. -/
theorem declare_eq_error_iff (name : String) (line : LineNumber) (scope : ScopeId) :
    session.declare name line scope = (.error violation, after) ↔
      session.pendingType = none ∧ violation = .missingDeclaredType name line ∧
        after = session := by
  cases h : session.pendingType with
  | none => simp [declare_of_unset h, eq_comm]
  | some type =>
      cases hk : session.symbols.declaredType? (session.keyIn name scope) with
      | none => simp [declare_of_new h hk]
      | some previous => simp [declare_of_known h hk]

/-- The global scope cannot be left, and an attempt at it changes nothing. -/
theorem exitScope_eq_error_iff :
    session.exitScope = (.error violation, after) ↔
      session.scope = 0 ∧ violation = .scopeUnderflow ∧ after = session := by
  by_cases h : session.scope = 0
  · simp [exitScope, h, eq_comm]
  · simp [exitScope, h]

/-- The reasons for which a session refuses an event. -/
inductive Refuses (session : Session) : Event → Violation → Prop
  | token {tag : Char} (line : LineNumber) (lexeme : String)
      (h : tag ∉ ['c', 'v', 'p', 'o', 'k', 's', 'd']) :
      Refuses session (.token tag line lexeme) (.unknownTokenTag tag)
  | beginType {tag : Char} (h : tag ∉ ['i', 'f', 'v', 'c']) :
      Refuses session (.beginType tag) (.unknownTypeTag tag)
  | declare (line : LineNumber) (name : String) (h : session.pendingType = none) :
      Refuses session (.declare line name) (.missingDeclaredType name line)
  | record (line : LineNumber) (name : String) (h : session.pendingType = none) :
      Refuses session (.record line name) (.missingDeclaredType name line)
  | exitScope (h : session.scope = 0) : Refuses session .exitScope .scopeUnderflow

end Session

/-! ## Events -/

/-- A turn is refused for the reasons of its session. -/
theorem Turn.refusal?_eq_some_iff {turn : Turn} {violation : Violation} :
    turn.refusal? = some violation ↔ turn.replay.session.Refuses turn.event violation := by
  obtain ⟨⟨session, lastResolved⟩, event⟩ := turn
  constructor
  · intro h
    cases event with
    | token tag line lexeme =>
        cases ht : TokenCategory.ofTag? tag with
        | some category => simp [refusal?, ht] at h
        | none =>
            obtain rfl : Violation.unknownTokenTag tag = violation := by
              simpa [refusal?, ht] using h
            exact .token line lexeme (TokenCategory.ofTag?_eq_none_iff.mp ht)
    | beginType tag =>
        cases ht : DeclaredType.ofTag? tag with
        | some type => simp [refusal?, ht] at h
        | none =>
            obtain rfl : Violation.unknownTypeTag tag = violation := by
              simpa [refusal?, ht] using h
            exact .beginType (DeclaredType.ofTag?_eq_none_iff.mp ht)
    | declare line name =>
        cases hp : session.pendingType with
        | some type => simp [refusal?, pendingType, hp] at h
        | none =>
            obtain rfl : Violation.missingDeclaredType name line = violation := by
              simpa [refusal?, pendingType, hp] using h
            exact .declare line name hp
    | record line name =>
        cases hp : session.pendingType with
        | some type => simp [refusal?, pendingType, hp] at h
        | none =>
            obtain rfl : Violation.missingDeclaredType name line = violation := by
              simpa [refusal?, pendingType, hp] using h
            exact .record line name hp
    | exitScope =>
        by_cases hs : session.scope = 0
        · obtain rfl : Violation.scopeUnderflow = violation := by simpa [refusal?, hs] using h
          exact .exitScope hs
        · simp [refusal?, hs] at h
    | _ => simp [refusal?] at h
  · rintro (⟨line, lexeme, ht⟩ | ht | ⟨line, name, hp⟩ | ⟨line, name, hp⟩ | hs)
    · simp [refusal?, TokenCategory.ofTag?_eq_none_iff.mpr ht]
    · simp [refusal?, DeclaredType.ofTag?_eq_none_iff.mpr ht]
    · have hnone : session.pendingType = none := hp
      simp [refusal?, pendingType, hnone]
    · have hnone : session.pendingType = none := hp
      simp [refusal?, pendingType, hnone]
    · have hzero : session.scope = 0 := hs
      simp [refusal?, hzero]

namespace Replay

/-- An event is refused for the reasons of the session, and changes nothing then. -/
theorem apply_eq_error_iff {replay after : Replay} {event : Event} {violation : Violation} :
    replay.apply event = (.error violation, after) ↔
      replay.session.Refuses event violation ∧ after = replay := by
  have hanswer := Turn.answer_eq { replay, event }
  constructor
  · intro h
    have herror : (replay.apply event).1 = .error violation := congrArg Prod.fst h
    refine ⟨(@Turn.refusal?_eq_some_iff { replay, event } _).mp ?_, ?_⟩
    · cases hr : Turn.refusal? { replay, event } with
      | none => simp [herror, hr] at hanswer
      | some refusal => simpa [herror, hr] using hanswer.symm
    · rw [← apply_of_error herror, h]
  · rintro ⟨h, rfl⟩
    rw [(@Turn.refusal?_eq_some_iff { replay := after, event } _).mpr h] at hanswer
    exact Prod.ext hanswer (apply_of_error hanswer)

/-! ## Runs -/

/-- The events of a run that are not refused. -/
def applied (replay : Replay) (events : List Event) : List Event :=
  ((replay.turns events).filter Turn.succeeds).map Turn.event

variable {replay : Replay} {event : Event}

theorem applied_cons_of_succeeds (h : (Turn.mk replay event).succeeds = true)
    (events : List Event) :
    replay.applied (event :: events) = event :: (replay.apply event).2.applied events := by
  rw [applied, turns, List.filter_cons, if_pos h]
  rfl

/-- A refused event changes nothing, so the run goes on where it was. -/
theorem applied_cons_of_refused (h : (Turn.mk replay event).succeeds = false)
    (events : List Event) :
    (replay.apply event).2 = replay ∧ replay.applied (event :: events) = replay.applied events := by
  have hsame : (replay.apply event).2 = replay := by
    cases ha : (replay.apply event).1 with
    | error violation => exact apply_of_error ha
    | ok done => simp [(Turn.mk replay event).succeeds_iff.mpr ha] at h
  refine ⟨hsame, ?_⟩
  rw [applied, turns, List.filter_cons, if_neg (by simp [h]), hsame]
  rfl

/-- Without the refused events, the other events of a run are applied where they were. -/
theorem turns_applied (replay : Replay) (events : List Event) :
    replay.turns (replay.applied events) = (replay.turns events).filter Turn.succeeds := by
  induction events generalizing replay with
  | nil => rfl
  | cons event events ih =>
      rw [turns, List.filter_cons]
      cases hs : (Turn.mk replay event).succeeds with
      | true => rw [applied_cons_of_succeeds hs, turns, ih, if_pos rfl]
      | false =>
          obtain ⟨hsame, happlied⟩ := applied_cons_of_refused hs events
          rw [happlied, hsame, ih, if_neg Bool.false_ne_true]

/-- A run ends where it does without the refused events. -/
theorem after_applied (replay : Replay) (events : List Event) :
    replay.after (replay.applied events) = replay.after events := by
  induction events generalizing replay with
  | nil => rfl
  | cons event events ih =>
      cases hs : (Turn.mk replay event).succeeds with
      | true => rw [applied_cons_of_succeeds hs, after_cons, after_cons, ih]
      | false =>
          obtain ⟨hsame, happlied⟩ := applied_cons_of_refused hs events
          rw [happlied, after_cons, hsame, ih]

/-- What is refused, and that it changes nothing: neither an event nor an operation of its session,
in whatever state, and for a run neither the state that it ends with nor what becomes of the other
events. -/
theorem refused_events_change_nothing (replay : Replay) :
    let session := replay.session
    (∀ event violation after, replay.apply event = (.error violation, after) ↔
      session.Refuses event violation ∧ after = replay) ∧
    (∀ name line scope violation after,
      session.declare name line scope = (.error violation, after) ↔
        session.pendingType = none ∧ violation = .missingDeclaredType name line ∧
          after = session) ∧
    (∀ name line scope violation after,
      session.recordDeclaration name line scope = (.error violation, after) ↔
        session.pendingType = none ∧ violation = .missingDeclaredType name line ∧
          after = session) ∧
    (∀ lexeme tag line violation after,
      session.classify lexeme tag line = (.error violation, after) ↔
        tag ∉ ['c', 'v', 'p', 'o', 'k', 's', 'd'] ∧ violation = .unknownTokenTag tag ∧
          after = session) ∧
    (∀ tag violation after, session.setTypeTag tag = (.error violation, after) ↔
      tag ∉ ['i', 'f', 'v', 'c'] ∧ violation = .unknownTypeTag tag ∧ after = session) ∧
    (∀ violation after, session.exitScope = (.error violation, after) ↔
      session.scope = 0 ∧ violation = .scopeUnderflow ∧ after = session) ∧
    ∀ events, replay.after (replay.applied events) = replay.after events ∧
      replay.turns (replay.applied events) = (replay.turns events).filter Turn.succeeds := by
  intro session
  refine ⟨?events, ?declare, ?record, ?classify, ?setType, ?exitScope, ?runs⟩
  case events => exact fun event violation after => apply_eq_error_iff
  case declare => exact fun name line scope _ _ => Session.declare_eq_error_iff name line scope
  case record =>
    exact fun name line scope _ _ => Session.recordDeclaration_eq_error_iff name line scope
  case classify => exact fun lexeme tag line _ _ => Session.classify_eq_error_iff lexeme tag line
  case setType => exact fun tag _ _ => Session.setTypeTag_eq_error_iff tag
  case exitScope => exact fun _ _ => Session.exitScope_eq_error_iff
  case runs => exact fun events => ⟨after_applied replay events, turns_applied replay events⟩

end Replay

end SemanticPass
