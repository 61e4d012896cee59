import Docblock.Comment.Tags
import Docblock.Proofs.Text.Ends

/-!
# The lines of a comment

The first word of a line says what the line is, whatever tag is in hand. Only what is added to
the tag in hand depends on that tag. So one equation says all that a line does, by the kind of
the line, and results about comments start from it.
-/

namespace Docblock.Comment

/-- What its first word makes a line: one without words, running text, a parameter line, a
reference line, or a line that takes a tag in hand. -/
inductive LineKind
  | empty
  | plain
  | parameter
  | reference
  | opening (name : Text)
deriving DecidableEq

/-- The kind of a line. -/
def kindOf (line : Text) : LineKind :=
  match Text.words line with
  | [] => .empty
  | first :: _ =>
    match first with
    | '@' :: name =>
      if name = parameterTag then .parameter
      else if name = referenceTag then .reference
      else .opening name
    | _ => .plain

/-- A line as it is added to the tag in hand; only example code keeps its white space. -/
def TagState.written (state : TagState) (line : Text) : Text :=
  if state.current = exampleTag then line else Text.trim line

variable {builtIns : List Text} {scope : Scope}

/-- What a line does, by its kind. -/
theorem TagState.addLine_eq (state : TagState) (line : Text) :
    state.addLine builtIns scope line =
      match kindOf line with
      | .empty =>
        if state.current = exampleTag ∧ textOf exampleTag state.tags ≠ [] then
          state.extend ['\n']
        else state
      | .plain => state.extend (joiner state.current ++ state.written line)
      | .parameter =>
        (parameterOf? builtIns scope (Text.words line)).elim state state.addParameter
      | .reference => (referenceOf? (Text.words line)).elim state state.addReference
      | .opening name => state.take name (Text.words line).tail := by
  have same : Text.words (state.written line) = Text.words line := by
    rw [written]
    split
    · rfl
    · exact Text.words_trim line
  rw [addLine]
  change (match Text.words (state.written line) with | [] => _ | first :: rest => _) = _
  rw [same, kindOf]
  cases read : Text.words line with
  | nil => rfl
  | cons first rest =>
    dsimp only
    split
    · rename_i name
      by_cases parameter : name = parameterTag
      · simp only [if_pos parameter]
        cases parameterOf? builtIns scope (('@' :: name) :: rest) <;> rfl
      · by_cases reference : name = referenceTag
        · simp only [if_neg parameter, if_pos reference]
          cases referenceOf? (('@' :: name) :: rest) <;> rfl
        · simp only [if_neg parameter, if_neg reference, List.tail_cons]
    · simp only
      rfl

/-- A parameter line is one whose first word is the tag of parameters. -/
theorem kindOf_eq_parameter_iff {line : Text} :
    kindOf line = .parameter ↔ (Text.words line).head? = some ('@' :: parameterTag) := by
  rw [kindOf]
  rcases Text.words line with _ | ⟨first, rest⟩
  · simp
  · rw [List.head?_cons, Option.some.injEq]
    dsimp only
    split
    · rename_i name
      by_cases parameter : name = parameterTag
      · simp [parameter]
      · by_cases reference : name = referenceTag <;> simp [parameter, reference]
    · rename_i other
      simpa using other _

/-- A reference line is one whose first word is the tag of references. -/
theorem kindOf_eq_reference_iff {line : Text} :
    kindOf line = .reference ↔ (Text.words line).head? = some ('@' :: referenceTag) := by
  have different : referenceTag ≠ parameterTag := by decide
  rw [kindOf]
  rcases Text.words line with _ | ⟨first, rest⟩
  · simp
  · rw [List.head?_cons, Option.some.injEq]
    dsimp only
    split
    · rename_i name
      by_cases parameter : name = parameterTag
      · simp [parameter, different.symm]
      · by_cases reference : name = referenceTag <;> simp [parameter, reference, different]
    · rename_i other
      simpa using other _

/-- A line takes neither the documented parameters nor the references in hand. -/
theorem opens_running {line name : Text} (kind : kindOf line = .opening name) :
    name ≠ parameterTag ∧ name ≠ referenceTag := by
  unfold kindOf at kind
  split at kind
  · cases kind
  · split at kind
    · split at kind
      · cases kind
      · rename_i notParameter
        split at kind
        · cases kind
        · rename_i notReference
          cases kind
          exact ⟨notParameter, notReference⟩
    · cases kind

end Docblock.Comment
