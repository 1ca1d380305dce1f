import SemanticPass.Proofs.Event.Grammar
import SemanticPass.Proofs.Run.FirstFault
import SemanticPass.Proofs.Run.Recording
import SemanticPass.Proofs.Table.Tokens

/-!
# The texts in the tables

The tables hold literals, lexemes and names. Each of them is the text of an event of the run, and
the text of an event that was read stands on the line of that event. So no text in the tables of a
replayed trace has a line feed.
-/

namespace SemanticPass

open Text

/-- The text of an event that a table may hold. -/
def Event.text? : Event → Option String
  | .token _ _ text | .constant _ text => some text
  | .declare _ name | .record _ name | .use _ name => some name
  | _ => none

/-- The texts that the tables of a session hold. -/
def Session.texts (session : Session) : List String :=
  session.constants.occurrences.order.toList ++ (session.tokens.occurrences.order.toList ++
    session.symbols.occurrences.order.toList.map SymbolKey.name)

/-! ## Reading -/

/-- The text of an event is one of its words. -/
theorem Event.Written.text_mem {words : List (List Char)} {event : Event}
    (h : Written words event) {text : String} (ht : event.text? = some text) :
    text.toList ∈ words := by
  cases h <;> cases ht <;> simp

/-- The text of an event stands on the line that was read. -/
theorem Event.text_subset_of_read {line : List Char} {event : Event} {text : String}
    (h : read line = .ok event) (ht : event.text? = some text) : text.toList ⊆ line := by
  obtain ⟨words, hw, hlaid⟩ := read_eq_ok_iff.mp h
  exact hlaid.subset (hw.text_mem ht)

namespace Turn

variable {turn : Turn}

/-! ## One turn -/

theorem mem_constants_next {text : String}
    (h : text ∈ turn.next.session.constants.occurrences.order.toList) :
    text ∈ turn.replay.session.constants.occurrences.order.toList ∨
      turn.event.text? = some text := by
  rw [constants_next] at h
  unfold nextConstants at h
  split at h
  · rename_i line literal he
    rcases Occurrences.mem_order_of_record h with h | rfl
    · exact .inl h
    · exact .inr (by rw [he]; rfl)
  · exact .inl h

theorem mem_tokens_next {text : String}
    (h : text ∈ turn.next.session.tokens.occurrences.order.toList) :
    text ∈ turn.replay.session.tokens.occurrences.order.toList ∨
      turn.event.text? = some text := by
  rw [tokens_next] at h
  unfold nextTokens at h
  split at h
  · rename_i tag line lexeme he
    split at h
    · exact .inl h
    · rw [TokenTable.occurrences_classify] at h
      rcases Occurrences.mem_order_of_record h with h | rfl
      · exact .inl h
      · exact .inr (by rw [he]; rfl)
  · exact .inl h

/-- A sighting has the name of its event. -/
theorem text?_of_sighting? {seen : Sighting} (h : turn.sighting? = some seen) :
    turn.event.text? = some seen.key.name := by
  obtain ⟨-, ⟨hi, -⟩ | ⟨hr, -⟩⟩ := sighting?_cases h
  · have hname := ((introduces_iff turn _).mp hi).1
    cases he : turn.event <;> simp_all [Event.introduces, Event.text?]
  · have hname := ((refers_iff turn _).mp hr).1
    cases he : turn.event <;> simp_all [Event.uses, Event.text?]

theorem mem_symbols_next {key : SymbolKey}
    (h : key ∈ turn.next.session.symbols.occurrences.order.toList) :
    key ∈ turn.replay.session.symbols.occurrences.order.toList ∨
      turn.event.text? = some key.name := by
  rw [symbols_next] at h
  cases hs : turn.sighting? with
  | none =>
      rw [hs] at h
      exact .inl h
  | some seen =>
      rw [hs, SymbolTable.sight, SymbolTable.occurrences_record] at h
      rcases Occurrences.mem_order_of_record h with h | rfl
      · exact .inl h
      · exact .inr (text?_of_sighting? hs)

/-- A text in the tables was there before or is the text of the event. -/
theorem mem_texts_next {text : String} (h : text ∈ turn.next.session.texts) :
    text ∈ turn.replay.session.texts ∨ turn.event.text? = some text := by
  unfold Session.texts at *
  simp only [List.mem_append, List.mem_map] at *
  rcases h with h | h | ⟨key, h, rfl⟩
  · exact (mem_constants_next h).imp_left .inl
  · exact (mem_tokens_next h).imp_left fun h => .inr (.inl h)
  · exact (mem_symbols_next h).imp_left fun h => .inr (.inr ⟨key, h, rfl⟩)

theorem tokens_coherent_next (h : turn.replay.session.tokens.Coherent) :
    turn.next.session.tokens.Coherent := by
  rw [tokens_next]
  unfold nextTokens
  split
  · split
    · exact h
    · exact h.classify _ _ _
  · exact h

end Turn

namespace Replay

/-! ## A run -/

/-- The maps of the token table agree throughout a run. -/
theorem tokens_coherent_after (sourceName : String) (events : List Event) :
    ((start sourceName).after events).session.tokens.Coherent :=
  after_induction (P := fun replay => replay.session.tokens.Coherent)
    (fun _ => Turn.tokens_coherent_next) TokenTable.coherent_empty events

/-- Every text in the tables was there before the run or is the text of an event. -/
theorem mem_texts_after {replay : Replay} {events : List Event} {text : String}
    (h : text ∈ (replay.after events).session.texts) :
    text ∈ replay.session.texts ∨ ∃ event ∈ events, event.text? = some text := by
  induction events generalizing replay with
  | nil => exact .inl h
  | cons event events ih =>
      rcases ih h with hnext | ⟨later, hlater, ht⟩
      · have hturn : text ∈ (Turn.mk replay event).next.session.texts := hnext
        rcases Turn.mem_texts_next hturn with hbefore | ht
        · exact .inl hbefore
        · exact .inr ⟨event, by simp, ht⟩
      · exact .inr ⟨later, by simp [hlater], ht⟩

/-! ## A replay of a text -/

/-- Lines replay without a fault exactly when they write the events of a run in which none is
refused. -/
theorem replays_iff_exists_events {replay final : Replay} {lines : List (List Char × Nat)} :
    Replays replay lines final ↔
      ∃ events, lines.map (fun line => Event.read line.1) = events.map .ok ∧
        final = replay.after events ∧ ∀ turn ∈ replay.turns events, turn.succeeds = true := by
  induction lines generalizing replay with
  | nil =>
      constructor
      · rintro ⟨⟩
        exact ⟨[], rfl, rfl, List.forall_mem_nil _⟩
      · rintro ⟨events, hread, rfl, -⟩
        obtain rfl : events = [] := List.map_eq_nil_iff.mp hread.symm
        exact .nil
  | cons line lines ih =>
      constructor
      · rintro (_ | @⟨_, next, _, _, _, _, event, hr, ha, h⟩)
        obtain ⟨events, hread, rfl, hsucceeds⟩ := ih.mp h
        refine ⟨event :: events, ?_, ?_, ?_⟩
        · rw [List.map_cons, List.map_cons, hr, hread]
        · rw [after_cons, ha]
        · rw [turns, ha]
          exact List.forall_mem_cons.mpr ⟨(Turn.succeeds_iff _).mpr (by rw [ha]), hsucceeds⟩
      · rintro ⟨events, hread, rfl, hsucceeds⟩
        cases events with
        | nil => cases hread
        | cons event events =>
            obtain ⟨hr, hread⟩ := List.cons.inj hread
            obtain ⟨hfirst, hrest⟩ := List.forall_mem_cons.mp hsucceeds
            refine .cons hr ?_ (ih.mpr ⟨events, hread, rfl, hrest⟩)
            exact Prod.ext ((Turn.succeeds_iff _).mp hfirst) rfl

/-- A replay of a text, whether or not it gets to the end, is a run of the events that its first
lines write, none of which is refused. -/
theorem exists_run_eq_after {trace : String} {lines : List (List Char)}
    (h : IsLines lines trace.toList) (replay : Replay) :
    ∃ events, events.map .ok <+: (significant 1 lines).map (fun line => Event.read line.1) ∧
      (replay.run trace).2 = replay.after events ∧
      ∀ turn ∈ replay.turns events, turn.succeeds = true := by
  obtain ⟨before, hbefore, hreplays⟩ : ∃ before, before <+: significant 1 lines ∧
      Replays replay before (replay.run trace).2 := by
    rw [run_eq_runLines h]
    cases hrun : runLines 1 0 replay lines with
    | mk answer final =>
        cases answer with
        | ok n => exact ⟨_, List.prefix_rfl, (runLines_eq_ok_iff.mp hrun).1⟩
        | error error =>
            -- A replay that was stopped has replayed the lines before the one that stopped it.
            obtain ⟨before, line, after, happend, hreplays, -⟩ := runLines_eq_error_iff.mp hrun
            exact ⟨before, ⟨_, happend.symm⟩, hreplays⟩
  obtain ⟨events, hread, hafter, hsucceeds⟩ := replays_iff_exists_events.mp hreplays
  refine ⟨events, ?_, hafter, hsucceeds⟩
  rw [← hread]
  exact hbefore.map _

/-- A replay of a text is a run of events each of which is read from a line. -/
theorem exists_events_of_run (replay : Replay) (trace : String) :
    ∃ events, (replay.run trace).2 = replay.after events ∧
      ∀ event ∈ events, ∃ line, '\n' ∉ line ∧ Event.read line = .ok event := by
  obtain ⟨lines, hlines⟩ := exists_isLines trace.toList
  have hsignificant : ∀ line ∈ significant 1 lines, '\n' ∉ line.1 := by
    rintro ⟨line, number⟩ hmem
    rw [significant_eq] at hmem
    obtain ⟨hmem, -⟩ := List.mem_filter.mp hmem
    obtain ⟨found, hfound, rfl⟩ := List.mem_map.mp (List.fst_mem_of_mem_zipIdx hmem)
    exact fun hc => hlines.lineFeed_not_mem found hfound (trim_subset found hc)
  obtain ⟨events, hread, hafter, -⟩ := exists_run_eq_after hlines replay
  refine ⟨events, hafter, fun event hevent => ?_⟩
  obtain ⟨line, hline, hr⟩ := List.mem_map.mp (hread.subset (List.mem_map_of_mem hevent))
  exact ⟨line.1, hsignificant line hline, hr⟩

/-- The texts in the tables of a replayed trace have no line feeds. -/
theorem lineFeed_not_mem_texts {sourceName trace text : String}
    (h : text ∈ ((start sourceName).run trace).2.session.texts) : '\n' ∉ text.toList := by
  obtain ⟨events, hrun, hread⟩ := exists_events_of_run (start sourceName) trace
  rw [hrun] at h
  rcases mem_texts_after h with hnone | ⟨event, hevent, ht⟩
  · cases hnone
  · obtain ⟨line, hline, hr⟩ := hread event hevent
    exact fun hc => hline (Event.text_subset_of_read hr ht hc)

end Replay

end SemanticPass
