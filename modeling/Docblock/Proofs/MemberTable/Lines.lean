import Docblock.MemberTable.Basic
import Docblock.Proofs.Text.Lines
import Docblock.Resolve.Rules

/-!
# The lines of a member table

A member table that has been filled is written with a line for the headers, a rule below it and
one line for each method, in the order in which they were added, whatever the methods say about
themselves. All these lines have as many cells as there are headers. So what a method says may
neither end a line nor end a cell: a cell has no break in it, and every bar in it stands behind a
backslash.

In the layout with columns the name of a method is written as it is. There the result is about
names without bars and breaks, as they are in source code.
-/

namespace Docblock

namespace Markdown

/-- How many bars of a text have no backslash directly in front of them, if the text stands
behind a character or at the front of a line. -/
def barsBehind : Option Char → Text → Nat
  | _, [] => 0
  | previous, c :: rest =>
    (if c = '|' ∧ previous ≠ some '\\' then 1 else 0) + barsBehind (some c) rest

/-- How many bars of a line have no backslash directly in front of them. -/
def bars (line : Text) : Nat := barsBehind none line

/-- A character that is neither a bar nor a break. -/
def isPlain (c : Char) : Bool := c != '|' && !Text.isLineBreak c

/-- A text that ends neither a line nor a cell, wherever it stands in a line. -/
structure IsEnclosed (s : Text) : Prop where
  unbroken : ∀ c ∈ s, Text.isLineBreak c = false
  barless : ∀ previous, barsBehind previous s = 0

variable {s t : Text}

/-- The bars of two texts in a row. -/
theorem barsBehind_append (previous : Option Char) (s t : Text) :
    barsBehind previous (s ++ t) =
      barsBehind previous s + barsBehind (s.getLast?.or previous) t := by
  induction s generalizing previous with
  | nil => simp [barsBehind]
  | cons c rest inductionHypothesis =>
    rw [List.cons_append, barsBehind, barsBehind, inductionHypothesis, List.getLast?_cons,
      Nat.add_assoc]
    cases rest.getLast? <;> rfl

namespace IsEnclosed

/-- A text without bars and breaks. -/
theorem of_forall (plain : ∀ c ∈ s, c ≠ '|' ∧ Text.isLineBreak c = false) : IsEnclosed s where
  unbroken := fun c inside => (plain c inside).2
  barless := by
    induction s with
    | nil => exact fun previous => rfl
    | cons c rest inductionHypothesis =>
      obtain ⟨here, later⟩ := List.forall_mem_cons.mp plain
      intro previous
      rw [barsBehind, if_neg fun bar => here.1 bar.1, inductionHypothesis later]

/-- A given text without bars and breaks. -/
theorem of_all (plain : s.all isPlain = true) : IsEnclosed s := by
  refine of_forall fun c inside => ?_
  simpa [isPlain] using List.all_eq_true.mp plain c inside

/-- Two texts in a row. -/
theorem append (first : IsEnclosed s) (second : IsEnclosed t) : IsEnclosed (s ++ t) where
  unbroken := List.forall_mem_append.mpr ⟨first.unbroken, second.unbroken⟩
  barless := fun previous => by rw [barsBehind_append, first.barless, second.barless]

/-- Joined texts. -/
theorem join {separator : Text} {pieces : List Text} (between : IsEnclosed separator)
    (each : ∀ piece ∈ pieces, IsEnclosed piece) : IsEnclosed (Text.join separator pieces) := by
  induction pieces with
  | nil => exact of_forall (by simp [Text.join])
  | cons piece rest inductionHypothesis =>
    obtain ⟨here, later⟩ := List.forall_mem_cons.mp each
    cases rest with
    | nil => exact here
    | cons next more => exact (here.append between).append (inductionHypothesis later)

end IsEnclosed

/-- In a cell every bar stands behind a backslash, also where the prose has one of its own. -/
theorem barsBehind_cell (previous : Option Char) (s : Text) :
    barsBehind previous (s.flatMap fun c => if c = '|' then ['\\', '|'] else [c]) = 0 := by
  induction s generalizing previous with
  | nil => rfl
  | cons c rest inductionHypothesis =>
    rw [List.flatMap_cons]
    by_cases bar : c = '|'
    · rw [if_pos bar]
      simp [barsBehind, inductionHypothesis]
    · rw [if_neg bar]
      simp [barsBehind, bar, inductionHypothesis]

/-- Prose in a cell ends neither a line nor the cell: all its white space is blanks. -/
theorem isEnclosed_cell (prose : Text) : IsEnclosed (cell prose) where
  unbroken := by
    intro c inside
    obtain ⟨d, written, place⟩ := List.mem_flatMap.mp inside
    have whole : Text.isLineBreak d = false := by
      rcases Text.mem_join written with blank | ⟨word, listed, within⟩
      · rw [List.mem_singleton.mp blank]
        decide
      · cases broken : Text.isLineBreak d with
        | false => rfl
        | true =>
          have visible := Text.visible_of_mem_words listed d within
          rw [Text.isBlank_of_isLineBreak broken] at visible
          cases visible
    split at place
    · simp only [List.mem_cons, List.not_mem_nil, or_false] at place
      rcases place with rfl | rfl <;> decide
    · rw [List.mem_singleton.mp place]
      exact whole
  barless := fun previous => barsBehind_cell previous _

/-- Between cells there is one bar for each two of them. -/
theorem barsBehind_join {cells : List Text} (each : ∀ cell ∈ cells, IsEnclosed cell)
    (nonempty : cells ≠ []) (previous : Option Char) :
    barsBehind previous (Text.join " | ".toList cells) + 1 = cells.length := by
  induction cells generalizing previous with
  | nil => exact absurd rfl nonempty
  | cons cell rest inductionHypothesis =>
    obtain ⟨here, later⟩ := List.forall_mem_cons.mp each
    cases rest with
    | nil => rw [Text.join, here.barless, List.length_singleton]
    | cons next more =>
      have between (before : Option Char) : barsBehind before " | ".toList = 1 := rfl
      have blank (before : Option Char) : " | ".toList.getLast?.or before = some ' ' := rfl
      rw [Text.join, barsBehind_append, barsBehind_append, here.barless, between,
        List.getLast?_append_of_ne_nil _ (by decide), blank, List.length_cons,
        ← inductionHypothesis later (List.cons_ne_nil next more) (some ' ')]
      omega

/-- A line of a table has a bar in front of each cell and one at the end, and no break in it. -/
theorem bars_tableLine {cells : List Text} (each : ∀ cell ∈ cells, IsEnclosed cell)
    (nonempty : cells ≠ []) :
    bars (tableLine cells) = cells.length + 1 ∧
      ∀ c ∈ tableLine cells, Text.isLineBreak c = false := by
  have front : barsBehind none "| ".toList = 1 := rfl
  have back (before : Option Char) : barsBehind before " |".toList = 1 := rfl
  constructor
  · rw [bars, tableLine, barsBehind_append, barsBehind_append, front, back,
      ← barsBehind_join each nonempty ("| ".toList.getLast?.or none)]
    omega
  · have unbroken {mark : Text} (whole : mark.all (Text.isLineBreak · = false) = true) :
        ∀ c ∈ mark, Text.isLineBreak c = false := Text.forall_mem whole
    intro c inside
    rcases List.mem_append.mp inside with earlier | last
    · rcases List.mem_append.mp earlier with first | inner
      · exact unbroken (by decide) c first
      · rcases Text.mem_join inner with separator | ⟨cell, listed, place⟩
        · exact unbroken (by decide) c separator
        · exact (each cell listed).unbroken c place
    · exact unbroken (by decide) c last

/-- A row that is filled up has as many cells as there is room for. -/
theorem length_padded {width : Nat} {row : List Text} (short : row.length ≤ width) :
    (padded width row).length = width := by
  rw [padded, List.length_append, List.length_replicate]
  omega

/-- The cells of a row that is filled up are its own and empty ones. -/
theorem isEnclosed_of_mem_padded {width : Nat} {row : List Text}
    (each : ∀ cell ∈ row, IsEnclosed cell) : ∀ cell ∈ padded width row, IsEnclosed cell := by
  intro cell listed
  rcases List.mem_append.mp listed with own | empty
  · exact each cell own
  · rw [List.eq_of_mem_replicate empty]
    exact IsEnclosed.of_forall (by simp)

end Markdown

namespace MemberTable

open Documented Markdown

/-- Adds methods in order, each with its references or without them. -/
def addAll (table : MemberTable) (calls : List (Method × Bool)) : MemberTable :=
  calls.foldl (fun table call => table.add call.1 call.2) table

/-- A method that can have a row of its own in a layout: its visibility is one of the words for
it, and where its name is written as it is, there are no bars and no breaks in it. -/
structure IsShowable (layout : Layout) (method : Method) : Prop where
  visibility : method.visibility ∈ Resolve.visibilities
  name : layout = .columns → ∀ c ∈ method.name, c ≠ '|' ∧ Text.isLineBreak c = false

variable {table : MemberTable} {method : Method}

/-- A badge is made of words for visibilities and marks, without bars and breaks. -/
theorem isEnclosed_badge (listed : method.visibility ∈ Resolve.visibilities) :
    IsEnclosed (badge method) := by
  have visibility : ∀ word ∈ Resolve.visibilities, word.all isPlain = true := by decide
  have marked {flag : Bool} {mark word : Text} (plain : IsEnclosed mark)
      (member : word ∈ if flag then [mark] else []) : IsEnclosed word := by
    split at member
    · exact List.mem_singleton.mp member ▸ plain
    · cases member
  refine IsEnclosed.join (IsEnclosed.of_all (by decide)) fun word member => ?_
  rcases List.mem_cons.mp member with rfl | marks
  · exact IsEnclosed.of_all (visibility _ listed)
  · rcases List.mem_append.mp marks with isStatic | isFinal
    · exact marked (IsEnclosed.of_all (by decide)) isStatic
    · exact marked (IsEnclosed.of_all (by decide)) isFinal

/-- An element ends neither a line nor a cell when its content does not. -/
theorem isEnclosed_element {name : String} {content : Text}
    (plain : name.toList.all isPlain = true) (inner : IsEnclosed content) :
    IsEnclosed (element name content) := by
  have word : IsEnclosed name.toList := IsEnclosed.of_all plain
  have opening : IsEnclosed ['<'] := IsEnclosed.of_all (by decide)
  have closing : IsEnclosed ['>'] := IsEnclosed.of_all (by decide)
  have ending : IsEnclosed "</".toList := IsEnclosed.of_all (by decide)
  exact ((((opening.append word).append (closing.append inner)).append ending).append
    word).append closing

/-- The references of a method stand in one cell. -/
theorem isEnclosed_referencesCell (method : Method) : IsEnclosed (referencesCell method) := by
  refine IsEnclosed.join (IsEnclosed.of_all (by decide)) fun piece listed => ?_
  obtain ⟨reference, -, rfl⟩ := List.mem_map.mp listed
  exact isEnclosed_cell reference

/-- The cells of a method are as many as its layout has headers, and none of them ends a line or
the cell. -/
theorem cells_enclosed (showable : IsShowable table.layout method) :
    (table.cells method).length = (layoutHeaders table.layout).length ∧
      ∀ cell ∈ table.cells method, IsEnclosed cell := by
  have badge := isEnclosed_badge showable.visibility
  rw [cells]
  cases layout : table.layout with
  | compact =>
    refine ⟨rfl, List.forall_mem_cons.mpr ⟨badge, List.forall_mem_singleton.mpr ?_⟩⟩
    exact isEnclosed_cell _
  | columns =>
    have mark : IsEnclosed (table.abstractMark method) := by
      rw [abstractMark]
      split <;> exact IsEnclosed.of_all (by decide)
    have name := mark.append (IsEnclosed.of_forall (showable.name layout))
    have shown : IsEnclosed (if method.prose.deprecation.isSome then
        element "strike" (table.abstractMark method ++ method.name)
        else table.abstractMark method ++ method.name) := by
      split
      · exact isEnclosed_element (by decide) name
      · exact name
    refine ⟨rfl, ?_⟩
    simp only [List.forall_mem_cons, List.not_mem_nil, false_implies, implies_true, and_true]
    exact ⟨badge, isEnclosed_element (by decide) shown, isEnclosed_cell _, isEnclosed_cell _,
      isEnclosed_cell _⟩

/-- A row has no more cells than there are headers, if the column for references is there when it
has them, and none of its cells ends a line or the cell. -/
theorem row_enclosed (showable : IsShowable table.layout method) {withReferences column : Bool}
    (shown : withReferences = true → column = true) :
    (table.row method withReferences).length ≤
        (layoutHeaders table.layout ++ if column then ["See".toList] else []).length ∧
      ∀ cell ∈ table.row method withReferences, IsEnclosed cell := by
  obtain ⟨width, own⟩ := cells_enclosed showable
  rw [row, List.length_append, List.length_append, width]
  cases withReferences with
  | false => exact ⟨by simp, by simpa using own⟩
  | true =>
    rw [shown rfl]
    refine ⟨le_rfl, List.forall_mem_append.mpr ⟨own, List.forall_mem_singleton.mpr ?_⟩⟩
    exact isEnclosed_referencesCell method

/-- The headers of a table. -/
theorem isEnclosed_of_mem_headers (layout : Layout) (withReferences : Bool) :
    ∀ header ∈ layoutHeaders layout ++ (if withReferences then ["See".toList] else []),
      IsEnclosed header := by
  have plain : ∀ header ∈
      layoutHeaders layout ++ (if withReferences then ["See".toList] else []),
      header.all isPlain = true := by
    cases layout <;> cases withReferences <;> decide
  exact fun header listed => IsEnclosed.of_all (plain header listed)

/-- What is added to a table: a row for each method, made as at the start, and the column for
references if any row has them. -/
theorem addAll_eq (table : MemberTable) (calls : List (Method × Bool)) :
    (table.addAll calls).layout = table.layout ∧
      (table.addAll calls).rows =
        table.rows ++ calls.map (fun call => table.row call.1 call.2) ∧
      (table.addAll calls).includesReferences =
        (table.includesReferences || calls.any (·.2)) := by
  induction calls generalizing table with
  | nil => exact ⟨rfl, (List.append_nil _).symm, (Bool.or_false _).symm⟩
  | cons call rest inductionHypothesis =>
    obtain ⟨layout, rows, column⟩ := inductionHypothesis (table.add call.1 call.2)
    refine ⟨layout, rows.trans ?_, column.trans ?_⟩
    · exact List.append_assoc _ [table.row call.1 call.2] _
    · exact Bool.or_assoc _ _ _

/-- What stands below a table starts with a break, if there is anything. -/
theorem exampleBlocks_eq (table : MemberTable) :
    table.exampleBlocks = [] ∨ table.exampleBlocks = '\n' :: table.exampleBlocks.drop 1 := by
  rw [exampleBlocks]
  split
  · exact .inl rfl
  · exact .inr rfl

/-- Every line of a table has a bar in front of each cell and one at its end, and no break in it:
the headers, the rule below them and the rows, when their cells end neither a line nor the cell
and no row is longer than the headers. -/
theorem bars_lines {headers : List Text} {rows : List (List Text)} (nonempty : headers ≠ [])
    (enclosed : ∀ header ∈ headers, IsEnclosed header)
    (fitting : ∀ row ∈ rows, row.length ≤ headers.length ∧ ∀ cell ∈ row, IsEnclosed cell) :
    ∀ line ∈ tableLine headers :: tableLine (headers.map fun _ => "---".toList) ::
        rows.map fun row => tableLine (padded headers.length row),
      bars line = headers.length + 1 ∧ ∀ c ∈ line, Text.isLineBreak c = false := by
  intro line listed
  rcases List.mem_cons.mp listed with rfl | below
  · exact bars_tableLine enclosed nonempty
  rcases List.mem_cons.mp below with rfl | inside
  · have rule : ∀ cell ∈ headers.map fun _ => "---".toList, IsEnclosed cell := by
      intro cell member
      obtain ⟨-, -, rfl⟩ := List.mem_map.mp member
      exact IsEnclosed.of_all (by decide)
    have ruled := bars_tableLine rule (by simpa using nonempty)
    rwa [List.length_map] at ruled
  · obtain ⟨row, member, rfl⟩ := List.mem_map.mp inside
    obtain ⟨short, own⟩ := fitting row member
    have width := length_padded short
    have someCells : padded headers.length row ≠ [] := by
      rw [← List.length_pos_iff, width]
      exact List.length_pos_iff.mpr nonempty
    have filled := bars_tableLine (isEnclosed_of_mem_padded own) someCells
    rwa [width] at filled

/-- **A filled table is well formed.** Whatever has been in a table, it is opened and methods are
added, at least one. The text of the table then starts with the line of the headers, the rule and
one line for each method in order, and goes on with the examples, if there are any. Each of these
lines has one bar more than there are headers that is not behind a backslash, and the column for
references is there when a method was added with its references. -/
theorem lines_toText (table : MemberTable) {calls : List (Method × Bool)} (nonempty : calls ≠ [])
    (showable : ∀ call ∈ calls, IsShowable table.layout call.1) :
    let filled := table.opened.addAll calls
    let headers := layoutHeaders table.layout ++
      if calls.any (·.2) then ["See".toList] else []
    let tableLines := tableLine headers :: tableLine (headers.map fun _ => "---".toList) ::
      calls.map fun call => tableLine (padded headers.length (table.row call.1 call.2))
    Text.lines filled.toText = tableLines ++ Text.lines (filled.exampleBlocks.drop 1) ∧
      ∀ line ∈ tableLines, bars line = headers.length + 1 := by
  intro filled headers tableLines
  obtain ⟨layout, rows, column⟩ := addAll_eq table.opened calls
  have sameHeaders : filled.headers = headers := by
    rw [MemberTable.headers, layout, column]
    rfl
  have someHeaders : headers ≠ [] := by
    cases known : table.layout <;> simp [headers, known, layoutHeaders]
  have fitting : ∀ row ∈ calls.map fun call => table.row call.1 call.2,
      row.length ≤ headers.length ∧ ∀ cell ∈ row, IsEnclosed cell := by
    intro row listed
    obtain ⟨call, member, rfl⟩ := List.mem_map.mp listed
    exact row_enclosed (showable call member)
      fun shown => List.any_eq_true.mpr ⟨call, member, shown⟩
  have whole := bars_lines someHeaders (isEnclosed_of_mem_headers table.layout (calls.any (·.2)))
    fitting
  rw [List.map_map] at whole
  refine ⟨?_, fun line listed => (whole line listed).1⟩
  have text : filled.toText = Text.join ['\n'] tableLines ++ filled.exampleBlocks := by
    rw [toText, sameHeaders, rows, Markdown.table, if_neg (by simp [nonempty])]
    simp only [opened, List.nil_append, List.map_map]
    rfl
  have unbroken : ∀ line ∈ tableLines, ∀ c ∈ line, Text.isLineBreak c = false :=
    fun line listed => (whole line listed).2
  rcases filled.exampleBlocks_eq with nothing | more
  · have lastLine : tableLines.getLast? ≠ some [] := by
      intro empty
      have bars := (whole [] (List.mem_of_getLast? empty)).1
      cases bars
    rw [text, nothing, List.append_nil, Text.lines_join lastLine unbroken]
    exact (List.append_nil _).symm
  · rw [text, more]
    exact Text.lines_join_append (List.cons_ne_nil _ _) unbroken _

/-- A deprecated method, with a bar and a break in its notice. -/
def haltMethod : Method where
  name := "halt".toList
  owner := "Port\\Crane".toList
  prose := { deprecation := some "use | rest\nor stop".toList }
  visibility := "protected".toList
  isFinal := true

/-- A method with bars in its types, its default value, its references and its description, and
with a line separator and an example. -/
def liftMethod : Method where
  name := "lift".toList
  owner := "Port\\Crane".toList
  prose := {
    description := "Up | down\u2028or away".toList
    exampleCode := "lift(1);".toList
    references := ["a | b".toList] }
  parameters := [{
    name := "$load".toList
    type := "int|string".toList
    default := some "'|'".toList }]
  returnType := some "Hook|null".toList

/-- A table with columns, in which something was left from another type. -/
def usedTable : MemberTable where
  layout := .columns
  owner := "Port\\Quay".toList
  rows := [["left".toList]]
  examples := [("moor".toList, "moor();".toList)]

/-- Both methods get their line of seven bars, below the headers and the rule, and the table goes
on with the example of one of them. -/
theorem lines_usedTable :
    (∀ call ∈ [(haltMethod, false), (liftMethod, true)],
      IsShowable usedTable.layout call.1) ∧
    Text.lines (usedTable.opened.addAll [(haltMethod, false), (liftMethod, true)]).toText =
      ["| Visibility | Name | Parameters | Returns | Description | See |",
        "| --- | --- | --- | --- | --- | --- |",
        "| protected final | <strong><strike>halt</strike></strong> |  |  | " ++
          "<em>DEPRECATED - use \\| rest or stop</em> |  |",
        "| public | <strong>lift</strong> | <em>int/string</em> $load='\\|' | " ++
          "<em>Hook/null</em> | Up \\| down or away | a \\| b |",
        "###### Examples of Crane::lift()", "```", "lift(1);", "```"].map String.toList ∧
    ∀ line ∈ (Text.lines (usedTable.opened.addAll
      [(haltMethod, false), (liftMethod, true)]).toText).take 4, bars line = 7 := by
  have showable : ∀ call ∈ [(haltMethod, false), (liftMethod, true)],
      IsShowable usedTable.layout call.1 := by
    intro call listed
    have known : call.1.visibility ∈ Resolve.visibilities ∧
        call.1.name.all (fun c => decide (c ≠ '|' ∧ Text.isLineBreak c = false)) = true := by
      revert call
      decide +kernel
    exact ⟨known.1, fun _ => Text.forall_mem known.2⟩
  obtain ⟨lines, bars⟩ := lines_toText usedTable (List.cons_ne_nil _ _) showable
  refine ⟨showable, lines.trans (by decide +kernel), ?_⟩
  rw [lines]
  exact bars

end MemberTable
end Docblock
