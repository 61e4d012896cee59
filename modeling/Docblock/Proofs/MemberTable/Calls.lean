import Docblock.Proofs.Document.Outcome

/-!
# Calls of a member table

One member table serves all types of a document. It is opened for each of them, told whether
abstract methods are marked, filled and written. From then on it answers as a new table with the
same switches does, whatever it has been told before: no row, no example, no owner and no column
of references is left from another type. What is left is the last word on whether examples are
shown.

Opening a table is not enough for this. It keeps the mark of abstract methods as the type before
has set it, so the result is about tables that are told about the mark behind their opening, as
all tables of a document are.
-/

namespace Docblock.MemberTable

open Documented Document

/-- What a member table can be told. -/
inductive Call
  | reopen
  | markAbstract (flag : Bool)
  | appendExamples (flag : Bool)
  | add (method : Method) (withReferences : Bool)
  | get

/-- What a call says about showing examples. -/
def Call.examplesFlag : Call → Option Bool
  | .appendExamples flag => some flag
  | _ => none

/-- The table after a call. -/
def after (table : MemberTable) : Call → MemberTable
  | .reopen => table.opened
  | .markAbstract flag => table.markAbstract flag
  | .appendExamples flag => table.appendExamples flag
  | .add method withReferences => table.add method withReferences
  | .get => table

/-- The text that a call answers with: the line of the row that is added, or all of the table. -/
def answer (table : MemberTable) : Call → Option Text
  | .add method withReferences => some (Markdown.tableLine (table.row method withReferences))
  | .get => some table.toText
  | _ => none

/-- The table after some calls. -/
def afterAll (table : MemberTable) (calls : List Call) : MemberTable := calls.foldl after table

/-- The answers to some calls. -/
def answers : MemberTable → List Call → List (Option Text)
  | _, [] => []
  | table, call :: rest => table.answer call :: answers (table.after call) rest

/-- The last word on whether examples are shown; a new table shows them. -/
def lastExamplesFlag (history : List Call) : Bool :=
  (history.filterMap Call.examplesFlag).getLast?.getD true

/-- A new table that is told whether to show examples as another one was at last. -/
def likeNew (layout : Layout) (history : List Call) : MemberTable :=
  afterAll { layout } [.appendExamples (lastExamplesFlag history)]

section Runs

variable (table : MemberTable)

/-- No call changes the layout. -/
theorem after_layout (call : Call) : (table.after call).layout = table.layout := by
  cases call <;> rfl

/-- Only a call about examples changes whether they are shown. -/
theorem after_appendsExamples (call : Call) :
    (table.after call).appendsExamples = call.examplesFlag.getD table.appendsExamples := by
  cases call <;> rfl

/-- No run of calls changes the layout. -/
theorem afterAll_layout (calls : List Call) : (table.afterAll calls).layout = table.layout := by
  induction calls generalizing table with
  | nil => rfl
  | cons call rest inductionHypothesis =>
    exact (inductionHypothesis (table.after call)).trans (after_layout table call)

/-- After a run of calls examples are shown as the last call about them said. -/
theorem afterAll_appendsExamples (calls : List Call) :
    (table.afterAll calls).appendsExamples =
      (calls.filterMap Call.examplesFlag).getLast?.getD table.appendsExamples := by
  induction calls generalizing table with
  | nil => rfl
  | cons call rest inductionHypothesis =>
    have later := inductionHypothesis (table.after call)
    rw [after_appendsExamples] at later
    rw [List.filterMap_cons]
    cases said : call.examplesFlag with
    | none =>
      rw [said] at later
      exact later
    | some flag =>
      rw [said] at later
      rw [List.getLast?_cons]
      exact later

/-- Opening a table and setting its mark of abstract methods leaves its layout and its switches,
and nothing else of what it was. -/
theorem afterAll_reopen_markAbstract (flag : Bool) (rest : List Call) :
    table.afterAll (.reopen :: .markAbstract flag :: rest) =
      afterAll { layout := table.layout
                 marksAbstract := flag
                 appendsExamples := table.appendsExamples } rest := rfl

/-- Once it is opened and its mark is set, a table is what a new one with its switches is. -/
theorem afterAll_reopen_eq_likeNew (layout : Layout) (history : List Call) (flag : Bool)
    (rest : List Call) :
    (afterAll { layout } history).afterAll (.reopen :: .markAbstract flag :: rest) =
      (likeNew layout history).afterAll (.markAbstract flag :: rest) := by
  rw [afterAll_reopen_markAbstract, afterAll_layout, afterAll_appendsExamples]
  rfl

end Runs

/-- The calls that fill a table with the methods of a type. -/
def callsFor (settings : DocumentSettings) (entity : Entity) : List Call :=
  .reopen :: .markAbstract (!entity.isInterface) ::
    (shownMethods settings entity).map (.add · settings.showsReferences)

/-- A table is filled by calls. -/
theorem fillTable_eq_afterAll (settings : DocumentSettings) (entity : Entity)
    (table : MemberTable) :
    fillTable settings entity table = table.afterAll (callsFor settings entity) := by
  rw [callsFor, afterAll, List.foldl_cons, List.foldl_cons, List.foldl_map]
  rfl

/-- Whatever a table of either layout has been told before: once it is opened and its mark of
abstract methods is set, its answers to all further calls are those of a new table that is told
the same about examples and about the mark. So

* the table of a type says the same behind any other types of a document, also where one of
  them could not be written;
* the sections of a document have the tables that the new table would have for each type alone. -/
theorem answers_of_reopened (layout : Layout) (history : List Call) :
    let used := afterAll { layout } history
    let fresh := likeNew layout history
    (∀ (flag : Bool) (further : List Call),
      (used.afterAll [.reopen, .markAbstract flag]).answers further =
        (fresh.after (.markAbstract flag)).answers further) ∧
    ∀ (settings : DocumentSettings) (resolver : Resolver) (anchors : Keyed Text) (single : Bool)
        (links : Keyed Text),
      (∀ (earlier : List Entity) (entity : Entity),
        let before := (sections settings resolver anchors single earlier links used).2
        (fillTable settings entity before).toText = (fillTable settings entity fresh).toText) ∧
      ∀ entities : List Entity,
        (sections settings resolver anchors single entities links used).1 =
          (linkTypes settings resolver entities links).map fun linked =>
            (entities.map (sectionOf settings anchors single fresh), linked) := by
  intro used fresh
  have filled : ∀ settings entity,
      fillTable settings entity used = fillTable settings entity fresh := by
    intro settings entity
    rw [fillTable_eq_afterAll, fillTable_eq_afterAll, callsFor, afterAll_reopen_eq_likeNew]
    rfl
  refine ⟨fun flag further => ?_, fun settings resolver anchors single links => ⟨?_, ?_⟩⟩
  · rw [afterAll_reopen_eq_likeNew layout history flag []]
    rfl
  · intro earlier entity before
    rw [fillTable_sections, filled]
  · intro entities
    have written : sectionOf settings anchors single used =
        sectionOf settings anchors single fresh := by
      funext entity
      rw [sectionOf, filled, sectionOf]
    rw [sections_eq, written]

end Docblock.MemberTable
