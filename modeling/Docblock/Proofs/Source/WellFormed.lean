import Docblock.Proofs.Source.Signatures

/-!
# Declarations that are read

Whatever a source holds, every declaration that is read from it is well formed, also where
the source breaks off, brackets do not match or words stand where they should not. The
reader carries a scope, modifiers and a comment from one declaration to the next, so the
declarations are well formed because of what holds wherever the walk stands: modifiers are
words for classes, the comment is one of the source, and imports stand for names without
separators at their ends.
-/

namespace Docblock

namespace Source

/-- A name without a separator at either end. -/
structure IsTrimmed (name : Text) : Prop where
  front : name.head? ≠ some ClassName.separator
  back : name.getLast? ≠ some ClassName.separator

/-- A declaration as it is read from a source:

* it is a class, an interface or a trait, and an interface has no parent;
* its modifiers are words for classes, and its comment is one of the source or empty;
* its name is that of a token, behind the namespace and a separator where there is one;
* no parent and no interface starts with a separator;
* neither the namespace nor what an import stands for has a separator at an end, and the
  latter is not empty;
* its methods are well formed. -/
structure Declaration.IsWellFormed (source : Text) (declaration : Declaration) : Prop where
  kind : declaration.kind ∈ ["class", "interface", "trait"].map String.toList
  parentless : declaration.kind = "interface".toList → declaration.parent = none
  modifiers : ∀ word ∈ declaration.modifiers, word ∈ classModifiers
  comment : IsCommentOf source declaration.comment
  name : ∃ token ∈ tokens source, token.kind = .name ∧
    (declaration.scope.space = [] → declaration.name = token.text) ∧
    (declaration.scope.space ≠ [] →
      declaration.name = declaration.scope.space ++ ClassName.separator :: token.text)
  parent : ∀ name ∈ declaration.parent, name.head? ≠ some ClassName.separator
  interfaces : ∀ name ∈ declaration.interfaces, name.head? ≠ some ClassName.separator
  space : IsTrimmed declaration.scope.space
  imports : ∀ entry ∈ declaration.scope.imports, entry.2 ≠ [] ∧ IsTrimmed entry.2
  methods : ∀ method ∈ declaration.methods, method.IsWellFormed source

variable {source : Text} {file : Option Text} {scope : Scope}

section Names

/-- A name has no separator at its ends once they were dropped there. -/
theorem isTrimmed_trimSeparators (name : Text) : IsTrimmed (ClassName.trimSeparators name) := by
  constructor
  · intro front
    exact absurd (Text.head?_trimWhile front) (by decide)
  · intro back
    exact absurd (Text.getLast?_dropEndWhile back) (by decide)

/-- A name in a header does not start with a separator when it is qualified. -/
theorem head?_qualify (tidy : IsTidy scope) {name : Text} (isNameText : IsNameText name) :
    (scope.qualify name).head? ≠ some ClassName.separator := by
  rw [Scope.qualify]
  split
  · intro front
    exact absurd (Text.head?_dropWhile front) (by decide)
  · rename_i unrooted
    split
    · rename_i full expanded
      obtain ⟨-, c, more, rfl, other⟩ :=
        TypeName.isFullName_of_expandAlias? tidy.imports isNameText.1 expanded
      simpa using other
    · rw [ClassName.below]
      split
      · exact unrooted
      · rename_i nonempty
        have front := (isTrimmed_trimSeparators scope.space).front
        rw [tidy.space] at front
        rwa [List.head?_append_of_ne_nil _ nonempty]

/-- The names that are listed in a header do not start with a separator. -/
def Header.IsQualified (header : Header) : Prop :=
  (∀ name ∈ header.parents, name.head? ≠ some ClassName.separator) ∧
    ∀ name ∈ header.interfaces, name.head? ≠ some ClassName.separator

/-- A token adds a qualified name at most. -/
theorem Header.IsQualified.add (tidy : IsTidy scope) {header : Header}
    (qualified : header.IsQualified) {token : Token}
    (named : token.kind = .name → IsNameText token.text) :
    (header.add scope token).IsQualified := by
  have listed {names : List Text} (plain : ∀ name ∈ names, name.head? ≠ some ClassName.separator)
      (isName : token.kind = .name) :
      ∀ name ∈ names ++ [scope.qualify token.text], name.head? ≠ some ClassName.separator := by
    intro name member
    cases List.mem_append.mp member with
    | inl before => exact plain name before
    | inr last =>
      rw [List.mem_singleton.mp last]
      exact head?_qualify tidy (named isName)
  rw [Header.add]
  split
  · exact qualified
  split
  · exact qualified
  split
  · exact qualified
  split
  · rename_i isName
    cases header.clause with
    | none => exact qualified
    | parents => exact ⟨listed qualified.1 isName, qualified.2⟩
    | interfaces => exact ⟨qualified.1, listed qualified.2 isName⟩
  · exact qualified

/-- The tokens of a header add qualified names only. -/
theorem Header.IsQualified.addAll (tidy : IsTidy scope) {header : Header}
    (qualified : header.IsQualified) {headed : List Token} (within : headed ⊆ tokens source) :
    (headed.foldl (Header.add scope) header).IsQualified := by
  induction headed generalizing header with
  | nil => exact qualified
  | cons token rest inductionHypothesis =>
    have named : token.kind = .name → IsNameText token.text :=
      isNameText_of_mem_tokens (within List.mem_cons_self)
    exact inductionHypothesis (qualified.add tidy named) (List.subset_of_cons_subset within)

end Names

section Imports

/-- What imports stand for has no separator at its ends. -/
def ImportsTrimmed (imports : Keyed Text) : Prop := ∀ entry ∈ imports, IsTrimmed entry.2

/-- An item of an import statement enters a name without separators at its ends. -/
theorem ImportsTrimmed.enter {imports : Keyed Text} (trimmed : ImportsTrimmed imports)
    (stem : Text) (item : List Text) : ImportsTrimmed (importItem stem imports item) := by
  intro entry member
  cases item with
  | nil => exact trimmed entry member
  | cons path rest =>
    rw [importItem] at member
    split at member
    · exact trimmed entry member
    · rcases Keyed.mem_of_mem_put member with rfl | known
      · exact isTrimmed_trimSeparators _
      · exact trimmed entry known

/-- The items of an import statement enter names without separators at their ends. -/
theorem ImportsTrimmed.enterAll {imports : Keyed Text} (trimmed : ImportsTrimmed imports)
    (stem : Text) (items : List (List Text)) :
    ImportsTrimmed (items.foldl (importItem stem) imports) := by
  induction items generalizing imports with
  | nil => exact trimmed
  | cons item rest inductionHypothesis => exact inductionHypothesis (trimmed.enter stem item)

/-- An import statement enters names without separators at their ends. -/
theorem ImportsTrimmed.read {imports : Keyed Text} (trimmed : ImportsTrimmed imports)
    (left : List Token) : ImportsTrimmed (readImports imports left).1 := by
  simp only [readImports]
  split
  · exact trimmed
  · split
    · exact trimmed
    · split
      · exact trimmed
      · exact trimmed.enterAll _ _

end Imports

section Walk

/-- Where a walk over a source stands: imports stand for names without separators at their
ends, the modifiers are words for classes, and the comment is one of the source. -/
structure Position.IsSound (source : Text) (position : Position) : Prop where
  imports : ImportsTrimmed position.scope.imports
  modifiers : ∀ word ∈ position.modifiers, word ∈ classModifiers
  comment : IsCommentOf source position.comment

/-- A step at a token of a source keeps the position sound. -/
theorem Position.IsSound.step {position : Position} (sound : position.IsSound source)
    {token : Token} (member : token ∈ tokens source) (rest : List Token) :
    (step source file position token rest).position.IsSound source := by
  have plain {scope : Scope} {previous : Option Token} (trimmed : ImportsTrimmed scope.imports) :
      Position.IsSound source { scope, previous } :=
    ⟨trimmed, by simp, .inl rfl⟩
  simp only [Source.step]
  split
  · rename_i doc
    exact ⟨sound.imports, sound.modifiers, isCommentOf_of_mem_tokens member doc⟩
  split
  · exact ⟨sound.imports, sound.modifiers, sound.comment⟩
  split
  · rename_i modifier
    refine ⟨sound.imports, ?_, sound.comment⟩
    intro word listed
    cases List.mem_append.mp listed with
    | inl before => exact sound.modifiers word before
    | inr last =>
      rw [List.mem_singleton.mp last]
      exact List.contains_iff_mem.mp modifier.2
  split
  · split
    · exact plain sound.imports
    · exact plain sound.imports
  split
  · refine plain ?_
    rw [readNamespace.eq_def]
    split
    · simp [ImportsTrimmed]
    · split <;> simp [ImportsTrimmed]
  split
  · exact plain (sound.imports.read rest)
  split
  · exact plain sound.imports
  · exact plain sound.imports

/-- Wherever a walk over a source comes to, its position is sound. -/
theorem Walks.isSound {position : Position} {left : List Token}
    (walks : Walks source file position left) : position.IsSound source := by
  induction walks with
  | start => exact ⟨by simp [ImportsTrimmed], by simp, .inl rfl⟩
  | step walks inductionHypothesis =>
    exact inductionHypothesis.step (walks.isTidy.2.subset List.mem_cons_self) _

/-- A type that is read has a name, the names of its header and the members of a body. -/
theorem readType_eq_some {word : Text} {modifiers : List Text} {comment : Text}
    {left : List Token} {declared : Declaration}
    (read : (readType scope source file word modifiers comment left).1 = some declared) :
    ∃ token headed inner, token :: (headed ++ inner) ⊆ left ∧ token.kind = .name ∧
      declared = declaration scope word modifiers comment token.text
        (headed.foldl (Header.add scope) {}) (readBody scope source [] [] inner).1 file := by
  cases left with
  | nil => cases read
  | cons token rest =>
    by_cases named : token.kind = .name
    · cases opened : rest.dropWhile (!·.isMark '{') with
      | nil => simp [readType, named, drop_takeWhile, opened] at read
      | cons brace inner =>
        rw [readType_opened named opened] at read
        cases read
        refine ⟨token, _, inner, ?_, named, rfl⟩
        refine List.cons_subset_cons token ?_
        apply List.append_subset.mpr
        constructor
        · exact List.takeWhile_subset _
        · have last : brace :: inner <:+ rest := opened ▸ List.dropWhile_suffix _
          exact List.subset_of_cons_subset last.subset
    · simp [readType, named] at read

/-- A type that is read where a walk stands is well formed. -/
theorem Position.IsSound.readType {position : Position} (sound : position.IsSound source)
    (tidy : IsTidy position.scope) {word : Text} (listed : word ∈ typeWords) {left : List Token}
    (within : left ⊆ tokens source) {declared : Declaration}
    (read : (readType position.scope source file word position.modifiers position.comment
      left).1 = some declared) : declared.IsWellFormed source := by
  obtain ⟨token, headed, inner, split, named, rfl⟩ := readType_eq_some read
  obtain ⟨tokenKnown, others⟩ := List.cons_subset.mp (List.Subset.trans split within)
  obtain ⟨headedKnown, innerKnown⟩ := List.append_subset.mp others
  have nothing : Header.IsQualified {} := ⟨by simp, by simp⟩
  obtain ⟨parents, interfaces⟩ := nothing.addAll tidy headedKnown
  have unannounced : IsAnnounced source [] [] := ⟨by simp, .inl rfl⟩
  constructor
  · have kinds : ∀ word ∈ typeWords,
        (if word = "enum".toList then "class".toList else word) ∈
          ["class", "interface", "trait"].map String.toList := by decide
    exact kinds word listed
  · intro isInterface
    simp only [declaration] at isInterface ⊢
    split at isInterface
    · exact absurd isInterface (by decide)
    · rw [if_pos isInterface]
  · simp only [declaration]
    split
    · intro modifier among
      cases List.mem_append.mp among with
      | inl before => exact sound.modifiers modifier before
      | inr last =>
        rw [List.mem_singleton.mp last]
        decide
    · exact sound.modifiers
  · exact sound.comment
  · refine ⟨token, tokenKnown, named, ?_, ?_⟩
    · exact fun unspaced => if_pos unspaced
    · exact fun spaced => if_neg spaced
  · intro name inherited
    simp only [declaration] at inherited
    split at inherited
    · cases inherited
    · exact parents name (List.mem_of_head? inherited)
  · simp only [declaration]
    split
    · exact parents
    · exact interfaces
  · have trimmed := isTrimmed_trimSeparators position.scope.space
    rwa [tidy.space] at trimmed
  · intro entry among
    obtain ⟨-, c, more, full, -⟩ := tidy.imports entry among
    exact ⟨full ▸ List.cons_ne_nil c more, sound.imports entry among⟩
  · exact readBody_wellFormed tidy.imports unannounced innerKnown

/-- Every declaration that is read from a source, whatever it holds, is well formed. -/
theorem declarations_wellFormed {declared : Declaration}
    (member : declared ∈ declarations source file) : declared.IsWellFormed source := by
  obtain ⟨position, token, rest, walks, yielded⟩ := exists_step_of_mem_declarations member
  obtain ⟨word, listed, read⟩ := step_declared yielded
  obtain ⟨tidy, within⟩ := walks.isTidy
  exact walks.isSound.readType tidy listed (List.subset_of_cons_subset within.subset) read

end Walk

/-- A source with separators at the ends of names, white space inside a type, and a body and a
parameter list that are left open. -/
def looseSource : Text :=
  "namespace \\N\\; use A\\\x7bB as C; /** X. */ Final class D extends \\C implements C \x7b
    /** M. */ var function f(? C|\tint &...$a = [ 1 ], $b".toList

/-- The declaration that is read from it. -/
def looseDeclaration : Declaration where
  name := "N\\D".toList
  scope := ⟨['N'], [(['C'], "A\\B".toList)]⟩
  comment := "/** X. */".toList
  parent := some ['C']
  interfaces := ["A\\B".toList]
  modifiers := ["final".toList]
  methods := [{
    name := ['f']
    comment := "/** M. */".toList
    parameters := [
      ⟨"$a".toList, some "?\\A\\B|int".toList, some "[ 1 ]".toList⟩, ⟨"$b".toList, none, none⟩] }]

/-- The separators and the white space are dropped, and so is the modifier that is none of a
method. -/
theorem looseDeclaration_wellFormed :
    looseDeclaration ∈ declarations looseSource ∧ looseDeclaration.IsWellFormed looseSource := by
  have member : looseDeclaration ∈ declarations looseSource := by decide +kernel
  exact ⟨member, declarations_wellFormed member⟩

end Source
end Docblock
