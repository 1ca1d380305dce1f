import Mathlib.Data.List.Basic
import SemanticPass.Program

/-!
# What is printed

The output of a run is made of pieces, one after the other: log records, each as a line of the log,
and texts. A level hides some of the records and nothing else. What a line of the log looks like is
left open.
-/

namespace SemanticPass.Program

/-- The text of a piece of the output, unless it is a log record. -/
def Item.text? : Item → Option String
  | .logged _ => none
  | .printed text => some text

/-- Whether a piece of the output is seen at a level. -/
def Item.isShown (level : LogLevel) : Item → Bool
  | .logged entry => level.admits entry.severity
  | .printed _ => true

/-- A piece of the output as it is written when it is seen. -/
def Item.written (line : LogRecord → String) : Item → String
  | .logged entry => line entry
  | .printed text => text

/-- An output is made of pieces that are seen at a level, one after the other. -/
structure MadeOf (line : LogRecord → String) (level : LogLevel) (output : String)
    (pieces : List Item) : Prop where
  output_eq : output = String.join (pieces.map (Item.written line))
  isShown : ∀ piece ∈ pieces, piece.isShown level = true

/-- An output is made of some texts, and of lines of the log in between that a level shows. -/
def Prints (line : LogRecord → String) (level : LogLevel) (output : String)
    (texts : List String) : Prop :=
  ∃ pieces, MadeOf line level output pieces ∧ pieces.filterMap Item.text? = texts

/-- When no record is shown, the output is its texts. -/
theorem Prints.output_eq_of_off {line : LogRecord → String} {output : String} {texts : List String}
    (h : Prints line .off output texts) : output = String.join texts := by
  obtain ⟨pieces, ⟨rfl, hshown⟩, rfl⟩ := h
  congr 1
  induction pieces with
  | nil => rfl
  | cons piece pieces ih =>
      obtain ⟨hpiece, hpieces⟩ := List.forall_mem_cons.mp hshown
      cases piece with
      | logged entry => simp [Item.isShown] at hpiece
      | printed text => exact congrArg (text :: ·) (ih hpieces)

namespace Report

/-- The pieces of the output that are seen at a level. -/
def shown (report : Report) (level : LogLevel) : List Item :=
  report.items.filter (Item.isShown level)

/-- The pieces of the output of a report that are no log records. -/
def texts (report : Report) : List String := report.items.filterMap Item.text?

variable (report : Report) {less more level : LogLevel}

/-- The output has the pieces that are seen. -/
theorem madeOf_output (line : LogRecord → String) (level : LogLevel) :
    MadeOf line level (report.output line level) (report.shown level) where
  output_eq := by
    rw [output, shown]
    induction report.items with
    | nil => rfl
    | cons item items ih =>
        rw [List.map_cons, String.join_cons, ih, List.filter_cons]
        cases hs : item.isShown level with
        | true =>
            rw [if_pos rfl, List.map_cons, String.join_cons]
            cases item <;> simp_all [Item.isShown, Item.shown, Item.written]
        | false =>
            rw [if_neg Bool.false_ne_true]
            cases item <;> simp_all [Item.isShown, Item.shown]
  isShown piece hmem := (List.mem_filter.mp hmem).2

/-- A less verbose level leaves pieces out and changes none. -/
theorem filter_shown (h : less.rank ≤ more.rank) :
    (report.shown more).filter (Item.isShown less) = report.shown less := by
  rw [shown, List.filter_filter]
  refine List.filter_congr fun item _ => ?_
  cases item with
  | printed text => rfl
  | logged entry =>
      cases hless : less.admits entry.severity with
      | false => simp [Item.isShown, hless]
      | true => simp [Item.isShown, hless, LogLevel.admits_mono h hless]

/-- All that is no log record is seen at every level. -/
theorem filterMap_text?_shown : (report.shown level).filterMap Item.text? = report.texts := by
  rw [shown, List.filterMap_filter, texts]
  refine List.filterMap_congr fun item _ => ?_
  cases item with
  | printed text => rfl
  | logged entry => simp only [Item.text?, ite_self]

/-- The output of a report has its texts, at every level. -/
theorem prints_output (line : LogRecord → String) (level : LogLevel) :
    Prints line level (report.output line level) report.texts :=
  ⟨_, report.madeOf_output line level, report.filterMap_text?_shown⟩

end Report

end SemanticPass.Program
