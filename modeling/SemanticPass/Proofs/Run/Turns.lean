import SemanticPass.Replay

/-!
# The turns of a run

A run applies events one after the other. An event that is refused is skipped, and the run goes
on with the next one. A turn is one event of a run together with the replay it is applied to, so
that what came earlier in a run is a statement about the turns before.

## Implementation notes

Statements that relate a run to its history are proved by induction from the end of the list of
events: the last turn is applied to the replay after all events before it.
-/

namespace SemanticPass

/-- An event at its place in a run. -/
structure Turn where
  /-- The replay that the event is applied to. -/
  replay : Replay
  /-- The event. -/
  event : Event

namespace Turn

/-- The replay after a turn. -/
def next (turn : Turn) : Replay := (turn.replay.apply turn.event).2

/-- Whether the event of a turn is applied, and not refused. -/
def succeeds (turn : Turn) : Bool := (turn.replay.apply turn.event).1.isOk

/-- The key of a name in the scope and the function of a turn. -/
def key (turn : Turn) (name : String) : SymbolKey :=
  turn.replay.session.keyIn name turn.replay.session.scope

/-- The type that declarations give at a turn. -/
def pendingType (turn : Turn) : Option DeclaredType := turn.replay.session.pendingType

theorem succeeds_iff (turn : Turn) :
    turn.succeeds = true ↔ (turn.replay.apply turn.event).1 = .ok () := by
  rw [succeeds]
  cases (turn.replay.apply turn.event).1 with
  | error violation => simp [Except.isOk, Except.toBool]
  | ok done => simp [Except.isOk, Except.toBool]

end Turn

namespace Replay

/-- The replay after events, of which those that are refused are skipped. -/
def after (replay : Replay) (events : List Event) : Replay :=
  events.foldl (fun replay event => (replay.apply event).2) replay

/-- The turns of a run, in order. -/
def turns (replay : Replay) : List Event → List Turn
  | [] => []
  | event :: events => { replay, event } :: (replay.apply event).2.turns events

@[simp]
theorem after_nil (replay : Replay) : replay.after [] = replay := rfl

theorem after_cons (replay : Replay) (event : Event) (events : List Event) :
    replay.after (event :: events) = (replay.apply event).2.after events := rfl

theorem after_append (replay : Replay) (events more : List Event) :
    replay.after (events ++ more) = (replay.after events).after more :=
  List.foldl_append

/-- The last event of a run is applied to the replay after the others. -/
theorem after_concat (replay : Replay) (events : List Event) (event : Event) :
    replay.after (events ++ [event]) = (Turn.mk (replay.after events) event).next :=
  after_append replay events [event]

@[simp]
theorem turns_nil (replay : Replay) : replay.turns [] = [] := rfl

theorem turns_append (replay : Replay) (events more : List Event) :
    replay.turns (events ++ more) = replay.turns events ++ (replay.after events).turns more := by
  induction events generalizing replay with
  | nil => rfl
  | cons event events ih => exact congrArg (List.cons _) (ih (replay.apply event).2)

/-- The last turn of a run applies the last event to the replay after the others. -/
theorem turns_concat (replay : Replay) (events : List Event) (event : Event) :
    replay.turns (events ++ [event]) =
      replay.turns events ++ [{ replay := replay.after events, event }] :=
  turns_append replay events [event]

/-- The turn of an event in a run is applied to the replay after the events before it. -/
theorem mem_turns_append {replay : Replay} (earlier : List Event) (event : Event)
    (later : List Event) :
    { replay := replay.after earlier, event } ∈ replay.turns (earlier ++ event :: later) := by
  rw [turns_append]
  exact List.mem_append_right _ (List.mem_cons_self ..)

/-- The turns of a run apply its events in order. -/
theorem map_event_turns (replay : Replay) (events : List Event) :
    (replay.turns events).map Turn.event = events := by
  induction events generalizing replay with
  | nil => rfl
  | cons event events ih => exact congrArg (List.cons event) (ih _)

/-- A turn of a run applies its event to the replay after the events before it. -/
theorem exists_after_of_mem_turns {replay : Replay} {events : List Event} {turn : Turn}
    (h : turn ∈ replay.turns events) :
    ∃ earlier later, events = earlier ++ turn.event :: later ∧
      turn.replay = replay.after earlier := by
  induction events generalizing replay with
  | nil => cases h
  | cons event events ih =>
      rcases List.mem_cons.mp h with rfl | h
      · exact ⟨[], events, rfl, rfl⟩
      · obtain ⟨earlier, later, rfl, hreplay⟩ := ih h
        exact ⟨event :: earlier, later, rfl, hreplay⟩

/-- What every turn keeps, a run keeps. -/
theorem after_induction {P : Replay → Prop} (step : ∀ turn : Turn, P turn.replay → P turn.next)
    {replay : Replay} (h : P replay) (events : List Event) : P (replay.after events) := by
  induction events generalizing replay with
  | nil => exact h
  | cons event events ih => exact ih (step { replay, event } h)

end Replay

end SemanticPass
