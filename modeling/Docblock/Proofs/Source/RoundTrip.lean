import Docblock.Proofs.Source.Methods

/-!
# Printed files are read as declared

The walk over the tokens of a printed file takes the namespace statement and then
one declaration after the other. Between two declarations it stands at a token
before which a type may be introduced, with no modifiers and no comment; that is
the invariant under which every declaration is read.
-/

namespace Docblock.Source

/-- A type may be introduced behind the token just passed. -/
def Position.IsFree (position : Position) : Prop :=
  position.previous.any (fun token => excludesType.contains (Text.lower token.text)) = false

namespace Printed

variable {space source : Text} {found : List Token}

/-- The words before a printed declaration are kept as its modifiers. -/
theorem modifiers_passed (file : Option Text)
    (modifiers : List { text : Text // text ∈ classModifiers })
    (occurs : Occurs source (modifiers.map fun modifier => word modifier.val) found)
    (position : Position) (free : position.IsFree) (rest : List Token) :
    ∃ previous, Position.IsFree { position with previous } ∧
      declarationsFrom source file position (found ++ rest) =
        declarationsFrom source file
          { position with
            modifiers := position.modifiers ++ modifiers.map Subtype.val
            previous } rest := by
  induction modifiers generalizing found position with
  | nil =>
    refine ⟨position.previous, free, ?_⟩
    rw [occurs.nil, List.map_nil, List.append_nil, List.nil_append]
  | cons modifier others inductionHypothesis =>
    obtain ⟨token, more, rfl, kind, text, onward⟩ := occurs.cons
    have isName : token.kind = .name := kind
    have listed := mem_keywords_of_mem_classModifiers modifier.property
    have spelled : Text.lower token.text = modifier.val := by
      rw [text]
      exact lower_keyword listed
    have unlike : ∀ text ∈ classModifiers, excludesType.contains text = false := by decide
    have passed : Position.IsFree
        { position with
          modifiers := position.modifiers ++ [modifier.val]
          previous := some token } := by
      rw [Position.IsFree, Option.any_some, spelled]
      exact unlike modifier.val modifier.property
    obtain ⟨previous, still, onwards⟩ := inductionHypothesis onward _ passed
    refine ⟨previous, still, ?_⟩
    rw [List.cons_append, declarationsFrom, step]
    simp only [isName, spelled, List.contains_iff_mem.mpr modifier.property, true_and, if_true,
      reduceCtorEq, if_false, Option.toList_none, List.nil_append]
    rw [onwards, List.append_assoc]
    rfl

/-- A printed declaration at the front of the walk is yielded as declared, and the
walk goes on behind it as it stood before. -/
theorem Declaration.walk (declaration : Declaration) (file : Option Text)
    (occurs : Occurs source declaration.chunks found) (previous : Option Token)
    (free : Position.IsFree { scope := { space }, previous }) (rest : List Token) :
    ∃ last, Position.IsFree { scope := { space }, previous := last } ∧
      declarationsFrom source file { scope := { space }, previous } (found ++ rest) =
        declaration.declared space file ::
          declarationsFrom source file { scope := { space }, previous := last } rest := by
  obtain ⟨before, others, rfl, modifiersOccur, behind⟩ := occurs.append
  obtain ⟨introducing, header, rfl, kind, text, onward⟩ := behind.cons
  obtain ⟨passed, still, modifiersRead⟩ := modifiers_passed file declaration.modifiers
    modifiersOccur { scope := { space }, previous } free (introducing :: (header ++ rest))
  have read := declaration.read space file onward rest
  obtain ⟨front, closing, rfl, closingText⟩ : ∃ front closing,
      header = front ++ [closing] ∧ closing.text = ['}'] := by
    have regrouped : word declaration.name.text :: (declaration.heading.clauses ++
        mark "\x7b" :: (declaration.methods.flatMap Method.chunks ++ [mark "\x7d"])) =
        (word declaration.name.text :: (declaration.heading.clauses ++
          mark "\x7b" :: declaration.methods.flatMap Method.chunks)) ++ [mark "\x7d"] := by simp
    rw [regrouped] at onward
    obtain ⟨front, last, rfl, -, ended⟩ := onward.append
    obtain ⟨closing, rfl, -, closingText⟩ := ended.singleton
    exact ⟨front, closing, rfl, closingText⟩
  refine ⟨some closing, ?_, ?_⟩
  · rw [Position.IsFree, Option.any_some, closingText]
    decide
  have isName : introducing.kind = .name := kind
  have listed := declaration.heading.word_mem_typeWords
  have spelled : Text.lower introducing.text = declaration.heading.word := by
    rw [text]
    exact lower_keyword (mem_keywords_of_mem_typeWords listed)
  have other : classModifiers.contains declaration.heading.word = false := by
    have apart : ∀ text ∈ typeWords, classModifiers.contains text = false := by decide
    exact apart _ listed
  have ended : lastPassed (introducing :: (front ++ [closing] ++ rest)) rest = some closing := by
    have regrouped : introducing :: (front ++ [closing] ++ rest) =
        introducing :: front ++ closing :: rest := by simp
    rw [regrouped, lastPassed_append]
  rw [Position.IsFree] at still
  rw [List.append_assoc, List.cons_append, modifiersRead, declarationsFrom, step]
  simp only [isName, spelled, other, still, read, ended, List.contains_iff_mem.mpr listed,
    List.nil_append, reduceCtorEq, if_false, if_true, true_and, Bool.false_eq_true]
  rfl

/-- Printed declarations are yielded as declared and in their order. -/
theorem declarations_walk (declared : List Declaration) (file : Option Text)
    (occurs : Occurs source (declared.flatMap Declaration.chunks) found)
    (previous : Option Token) (free : Position.IsFree { scope := { space }, previous }) :
    declarationsFrom source file { scope := { space }, previous } found =
      declared.map (Declaration.declared space file) := by
  induction declared generalizing found previous with
  | nil =>
    rw [occurs.nil, declarationsFrom]
    rfl
  | cons first others inductionHypothesis =>
    rw [List.flatMap_cons] at occurs
    obtain ⟨leading, more, rfl, firstOccurs, onward⟩ := occurs.append
    obtain ⟨last, still, read⟩ := first.walk file firstOccurs previous free more
    rw [read, inductionHypothesis onward last still, List.map_cons]

/-- Segments end with an identifier character. -/
theorem Segments.exists_concat (segments : Segments) :
    ∃ c more, segments.text = more ++ [c] ∧ (c == ClassName.separator) = false := by
  have visible : ∀ name : Identifier, ∃ c more, name.text = more ++ [c] ∧
      (c == ClassName.separator) = false := by
    intro name
    have nonempty := (isName_of_isIdentifier name.wellFormed).ne_nil
    obtain ⟨more, c, back⟩ := (List.eq_nil_or_concat name.text).resolve_left nonempty
    rw [List.concat_eq_append] at back
    have inside := forall_mem_of_isIdentifier name.wellFormed c (by simp [back])
    refine ⟨c, more, back, ?_⟩
    rw [beq_eq_false_iff_ne]
    rintro rfl
    exact absurd inside (by decide)
  rcases List.eq_nil_or_concat segments.others with single | ⟨init, last, several⟩
  · obtain ⟨c, more, text, kept⟩ := visible segments.first
    exact ⟨c, more, by simp [Segments.text, single, text], kept⟩
  · obtain ⟨c, more, text, kept⟩ := visible last
    rw [List.concat_eq_append] at several
    refine ⟨c, segments.first.text ++ (init.flatMap fun name =>
      ClassName.separator :: name.text) ++ ClassName.separator :: more, ?_, kept⟩
    simp [Segments.text, several, text]

/-- A punctuation mark between declarations is passed over. -/
theorem step_punctuation (path : Option Text) (position : Position) {token : Token}
    (punctuation : token.kind = .punctuation) (rest : List Token) :
    step source path position token rest =
      { declared := none
        position := { scope := position.scope, previous := some token }
        left := rest } := by
  have passed := lastPassed_append [] token rest
  rw [List.nil_append] at passed
  rw [step]
  simp only [punctuation, passed, reduceCtorEq, if_false, false_and]

/-- The word that introduces a namespace is taken together with the name behind it. -/
theorem step_namespace (path : Option Text) {introducing named : Token}
    (isName : introducing.kind = .name) (spelled : Text.lower introducing.text = "namespace".toList)
    (nameKind : named.kind = .name) (rest : List Token) :
    step source path {} introducing (named :: rest) =
      { declared := none
        position :=
          { scope := { space := ClassName.trimSeparators named.text }
            previous := lastPassed (introducing :: named :: rest) rest }
        left := rest } := by
  have notModifier : classModifiers.contains "namespace".toList = false := by decide
  have notType : typeWords.contains "namespace".toList = false := by decide
  rw [step]
  simp only [isName, spelled, notModifier, notType, readNamespace, nameKind, reduceCtorEq,
    if_false, if_true, true_and, Bool.false_eq_true]

/-- A printed namespace statement sets the namespace, and the walk goes on behind
it. -/
theorem File.statement_walk (file : File) (path : Option Text)
    (occurs : Occurs source file.statement found) (rest : List Token) :
    ∃ previous, Position.IsFree { scope := { space := file.spaceText }, previous } ∧
      declarationsFrom source path {} (found ++ rest) =
        declarationsFrom source path
          { scope := { space := file.spaceText }, previous } rest := by
  rw [File.statement] at occurs
  cases given : file.space with
  | none =>
    rw [given] at occurs
    refine ⟨none, rfl, ?_⟩
    rw [occurs.nil, File.spaceText, given]
    rfl
  | some segments =>
    rw [given] at occurs
    obtain ⟨introducing, others, rfl, kind, text, onward⟩ := occurs.cons
    obtain ⟨named, more, rfl, namedKind, namedText, behind⟩ := onward.cons
    obtain ⟨semicolon, rfl, endKind, endText⟩ := behind.singleton
    have spelled : Text.lower introducing.text = "namespace".toList := by
      rw [text]
      decide
    have trimmed : ClassName.trimSeparators named.text = file.spaceText := by
      have space : file.spaceText = segments.text := by
        rw [File.spaceText, given]
        rfl
      have written : named.text = segments.text := namedText
      rw [written, space]
      exact trimWhile_eq segments.exists_cons segments.exists_concat
    refine ⟨some semicolon, ?_, ?_⟩
    · rw [Position.IsFree, Option.any_some, endText]
      decide
    · rw [List.cons_append, List.cons_append, List.singleton_append, declarationsFrom,
        step_namespace path kind spelled namedKind, trimmed]
      simp only [Option.toList_none, List.nil_append]
      rw [declarationsFrom, step_punctuation path _ endKind]
      simp only [Option.toList_none, List.nil_append]

/-- Scanning the text of any file of declarations yields exactly these declarations,
in their order: names and parents with their namespace, kinds and modifiers,
interfaces, and every method with its parameters, types and default values. -/
theorem declarations_text (file : File) (path : Option Text) :
    declarations file.text path =
      file.declarations.map (Declaration.declared file.spaceText path) := by
  have occurs := file.occurs
  rw [File.chunks] at occurs
  obtain ⟨statement, declared, split, statementOccurs, declaredOccur⟩ := occurs.append
  obtain ⟨previous, free, read⟩ := file.statement_walk path statementOccurs declared
  rw [declarations, split, read]
  exact declarations_walk file.declarations path declaredOccur previous free

end Printed
end Docblock.Source
