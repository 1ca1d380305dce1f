import SemanticPass.Proofs.Run.Effects

/-!
# What a turn records in the symbol table

A turn records one sighting in the symbol table, or none. Declarations and recordings bring the
pending type with them; a use brings the type of the oldest row of its name. Every statement on
the symbol table of a run follows from these sightings.
-/

namespace SemanticPass

/-- Whether an event declares a name or records it. -/
def Event.introduces (event : Event) (name : String) : Bool :=
  match event with
  | .declare _ found | .record _ found => found == name
  | _ => false

/-- Whether an event uses a name. -/
def Event.uses (event : Event) (name : String) : Bool :=
  match event with
  | .use _ found => found == name
  | _ => false

namespace Turn

/-- Whether a turn declares a name or records it, and is not refused. -/
def introduces (turn : Turn) (name : String) : Bool :=
  turn.event.introduces name && turn.succeeds

/-- Whether a turn uses a name and is answered with the code of a type. -/
def refers (turn : Turn) (name : String) : Bool :=
  turn.event.uses name && turn.next.lastResolved != .unchecked

theorem succeeds_eq (turn : Turn) : turn.succeeds = turn.refusal?.isNone := by
  rw [succeeds, answer_eq]
  cases turn.refusal? <;> rfl

/-- A scope is left unless it is the global one. -/
theorem succeeds_exitScope {turn : Turn} (he : turn.event = .exitScope) :
    turn.succeeds = true ↔ turn.replay.session.scope ≠ 0 := by
  rw [succeeds_eq, refusal?, he]
  by_cases hzero : turn.replay.session.scope = 0 <;> simp [hzero]

/-- An event introduces one name at most, and is then no use. -/
theorem eq_of_introduces {turn : Turn} {name other : String}
    (h : turn.event.introduces name = true) (ho : turn.event.introduces other = true) :
    name = other := by
  cases he : turn.event <;> simp_all [Event.introduces]

/-- A declaration or a recording is refused exactly without a pending type. -/
theorem introduces_iff (turn : Turn) (name : String) :
    turn.introduces name = true ↔
      turn.event.introduces name = true ∧ turn.pendingType.isSome = true := by
  rw [introduces, Bool.and_eq_true, succeeds_eq]
  refine and_congr_right fun he => ?_
  cases hevent : turn.event with
  | declare line found => cases hp : turn.pendingType <;> simp [refusal?, hevent, hp]
  | record line found => cases hp : turn.pendingType <;> simp [refusal?, hevent, hp]
  | _ => simp [hevent, Event.introduces] at he

theorem pendingType_of_introduces {turn : Turn} {name : String}
    (h : turn.introduces name = true) : ∃ type, turn.pendingType = some type :=
  Option.isSome_iff_exists.mp ((introduces_iff turn name).mp h).2

/-- A use refers to a declaration when its name has rows and is no builtin. -/
theorem refers_iff (turn : Turn) (name : String) :
    turn.refers name = true ↔
      turn.event.uses name = true ∧ name ∉ builtinNames ∧
        (turn.replay.session.symbols.oldestType? name).isSome = true := by
  rw [refers, Bool.and_eq_true, bne_iff_ne, lastResolved_next]
  refine and_congr_right fun he => ?_
  cases hevent : turn.event with
  | use line found =>
      obtain rfl : found = name := by simpa [hevent, Event.uses] using he
      by_cases hb : found ∈ builtinNames
      · simp [nextResolved, hevent, hb]
      · cases ho : turn.replay.session.symbols.oldestType? found with
        | none => simp [nextResolved, hevent, hb, ho]
        | some type => simp [nextResolved, hevent, hb, ho, type.code_ne_unchecked]
  | _ => simp [hevent, Event.uses] at he

/-- A sighting has the key of the turn. It is a declaration's or a recording's, with the pending
type, or it is a use's, with the oldest type of the name. -/
theorem sighting?_cases {turn : Turn} {seen : Sighting} (h : turn.sighting? = some seen) :
    turn.key seen.key.name = seen.key ∧
      (turn.introduces seen.key.name = true ∧ turn.pendingType = some seen.type ∨
        turn.refers seen.key.name = true ∧
          turn.replay.session.symbols.oldestType? seen.key.name = some seen.type) := by
  rw [introduces_iff, refers_iff]
  unfold sighting? at h
  split at h
  · rename_i line name he
    split at h
    · cases h
    · obtain ⟨type, hp, rfl⟩ := Option.map_eq_some_iff.mp h
      exact ⟨rfl, .inl ⟨⟨by simp [he, Event.introduces, key, Session.keyIn], by simp [hp]⟩, hp⟩⟩
  · rename_i line name he
    obtain ⟨type, hp, rfl⟩ := Option.map_eq_some_iff.mp h
    exact ⟨rfl, .inl ⟨⟨by simp [he, Event.introduces, key, Session.keyIn], by simp [hp]⟩, hp⟩⟩
  · rename_i line name he
    split at h
    · cases h
    · rename_i hb
      obtain ⟨type, ho, rfl⟩ := Option.map_eq_some_iff.mp h
      refine ⟨rfl, .inr ⟨⟨by simp [he, Event.uses, key, Session.keyIn], ?_, ?_⟩, ho⟩⟩
      · exact hb
      · exact Option.isSome_iff_exists.mpr ⟨type, ho⟩
  · cases h

/-- An introduction is a sighting, unless it declares a key that has a type. -/
theorem sighting?_of_introduces {turn : Turn} {name : String} {type : DeclaredType}
    (h : turn.introduces name = true) (hp : turn.pendingType = some type) :
    (turn.replay.session.symbols.declaredType? (turn.key name)).isSome = true ∨
      ∃ line, turn.sighting? = some { key := turn.key name, type, line } := by
  obtain ⟨he, _⟩ := (introduces_iff turn name).mp h
  cases hevent : turn.event with
  | declare line found =>
      obtain rfl : found = name := by simpa [hevent, Event.introduces] using he
      cases hd : turn.replay.session.symbols.declaredType? (turn.key found) with
      | some previous => exact .inl rfl
      | none => exact .inr ⟨line, by simp [sighting?, hevent, hd, hp]⟩
  | record line found =>
      obtain rfl : found = name := by simpa [hevent, Event.introduces] using he
      exact .inr ⟨line, by simp [sighting?, hevent, hp]⟩
  | _ => simp [hevent, Event.introduces] at he

/-- A use that refers to a declaration is a sighting. -/
theorem sighting?_of_refers {turn : Turn} {name : String} (h : turn.refers name = true) :
    ∃ type line, turn.sighting? = some { key := turn.key name, type, line } := by
  obtain ⟨he, hb, ho⟩ := (refers_iff turn name).mp h
  obtain ⟨type, ho⟩ := Option.isSome_iff_exists.mp ho
  cases hevent : turn.event with
  | use line found =>
      obtain rfl : found = name := by simpa [hevent, Event.uses] using he
      exact ⟨type, line, by simp [sighting?, hevent, hb, ho]⟩
  | _ => simp [hevent, Event.uses] at he

/-! ## Effects on the maps -/

theorem coherent_next {turn : Turn} (h : turn.replay.session.symbols.Coherent) :
    turn.next.session.symbols.Coherent := by
  rw [symbols_next]
  cases turn.sighting? with
  | none => exact h
  | some seen => exact h.record seen.key seen.type seen.line

/-- A key gets a type when it is introduced or referred to, and keeps it. -/
theorem isSome_declaredType?_next (turn : Turn) (key : SymbolKey) :
    (turn.next.session.symbols.declaredType? key).isSome = true ↔
      (turn.replay.session.symbols.declaredType? key).isSome = true ∨
        turn.key key.name = key ∧
          (turn.introduces key.name = true ∨ turn.refers key.name = true) := by
  rw [symbols_next]
  constructor
  · intro hnext
    cases hs : turn.sighting? with
    | none =>
        rw [hs] at hnext
        exact .inl hnext
    | some seen =>
        rw [hs, SymbolTable.sight, SymbolTable.isSome_declaredType?_record] at hnext
        rcases hnext with rfl | hbefore
        · obtain ⟨hkey, hcase⟩ := sighting?_cases hs
          exact .inr ⟨hkey, hcase.imp And.left And.left⟩
        · exact .inl hbefore
  · rintro (hbefore | ⟨hkey, hcase⟩)
    · cases turn.sighting? with
      | none => exact hbefore
      | some seen => exact (SymbolTable.isSome_declaredType?_record ..).mpr (.inr hbefore)
    · have hseen : (turn.replay.session.symbols.declaredType? key).isSome = true ∨
          ∃ type line, turn.sighting? = some { key, type, line } := by
        rcases hcase with hi | hr
        · obtain ⟨type, hp⟩ := pendingType_of_introduces hi
          rcases sighting?_of_introduces hi hp with hd | ⟨line, hs⟩
          · exact .inl (hkey ▸ hd)
          · exact .inr ⟨type, line, hkey ▸ hs⟩
        · obtain ⟨type, line, hs⟩ := sighting?_of_refers hr
          exact .inr ⟨type, line, hkey ▸ hs⟩
      rcases hseen with hbefore | ⟨type, line, hs⟩
      · cases turn.sighting? with
        | none => exact hbefore
        | some seen => exact (SymbolTable.isSome_declaredType?_record ..).mpr (.inr hbefore)
      · rw [hs]
        exact (SymbolTable.isSome_declaredType?_record ..).mpr (.inl rfl)

/-- A name gets its oldest type from the pending type of its first introduction. -/
theorem oldestType?_next {turn : Turn} (h : turn.replay.session.symbols.Coherent)
    (name : String) :
    turn.next.session.symbols.oldestType? name =
      (turn.replay.session.symbols.oldestType? name).or
        (if turn.introduces name then turn.pendingType else none) := by
  rw [symbols_next]
  cases hs : turn.sighting? with
  | none =>
      by_cases hi : turn.introduces name = true
      · obtain ⟨type, hp⟩ := pendingType_of_introduces hi
        rcases sighting?_of_introduces hi hp with hd | ⟨line, hsome⟩
        · obtain ⟨oldest, ho⟩ := Option.isSome_iff_exists.mp (h.isSome_oldestType? hd)
          have ho : turn.replay.session.symbols.oldestType? name = some oldest := ho
          simp [SymbolTable.sight, ho]
        · simp [hs] at hsome
      · simp [SymbolTable.sight, hi]
  | some seen =>
      obtain ⟨hkey, hcase⟩ := sighting?_cases hs
      rw [SymbolTable.sight, h.oldestType?_record]
      by_cases hn : seen.key.name = name
      · subst hn
        rcases hcase with ⟨hi, hp⟩ | ⟨hr, ho⟩
        · simp [hi, hp]
        · simp [ho]
      · have hi : turn.introduces name = false := by
          by_contra hne
          have hname := ((introduces_iff turn name).mp (by simpa using hne)).1
          rcases hcase with ⟨hother, _⟩ | ⟨hother, _⟩
          · exact hn (eq_of_introduces ((introduces_iff turn _).mp hother).1 hname)
          · have huse := ((refers_iff turn _).mp hother).1
            cases he : turn.event <;> simp_all [Event.introduces, Event.uses]
        simp [hn, hi]

end Turn

/-- The maps of the symbol table agree throughout a run. -/
theorem Replay.coherent_after (sourceName : String) (events : List Event) :
    ((start sourceName).after events).session.symbols.Coherent :=
  after_induction (P := fun replay => replay.session.symbols.Coherent)
    (fun _ => Turn.coherent_next) SymbolTable.coherent_empty events

/-- Every turn of a run starts from tables that agree. -/
theorem Replay.coherent_of_mem_turns {sourceName : String} {events : List Event} {turn : Turn}
    (h : turn ∈ (start sourceName).turns events) : turn.replay.session.symbols.Coherent := by
  obtain ⟨earlier, -, -, hreplay⟩ := exists_after_of_mem_turns h
  rw [hreplay]
  exact coherent_after sourceName earlier

end SemanticPass
