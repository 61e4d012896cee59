import Docblock.Proofs.Source.Fork.Walk
import Docblock.Proofs.Source.Names
import Docblock.Proofs.Text.Ends

/-!
# Scopes that are read

A reader builds its scopes from the name tokens of namespace and import statements. So
whatever the source holds, a namespace has no separator at its ends, and an alias stands
for a full name: a text with characters of names only that does not start with a
separator.
-/

namespace Docblock

namespace Source

/-- A full name: characters of names, of which the first is no separator. -/
def IsFullName (full : Text) : Prop :=
  (∀ c ∈ full, isNameChar c = true) ∧ ∃ c more, full = c :: more ∧ c ≠ ClassName.separator

/-- A text of a name becomes a full name when separators are dropped from its ends. -/
theorem isFullName_trimSeparators {text : Text} (isNameText : IsNameText text) :
    IsFullName (ClassName.trimSeparators text) := by
  obtain ⟨plain, letter, inside, other⟩ := isNameText
  rw [ClassName.trimSeparators]
  rcases Text.trimWhile_cases (· == ClassName.separator) text with
    ⟨all, -⟩ | ⟨c, more, kept, front, trimmed⟩
  · exact absurd (beq_iff_eq.mp (all letter inside)) other
  · rw [trimmed]
    have within : ∀ d ∈ c :: more, d ∈ text := fun d member =>
      (List.dropWhile_sublist (· == ClassName.separator)).subset (front ▸ member)
    refine ⟨fun d member => plain d (within d ?_), c, _, rfl, beq_eq_false_iff_ne.mp kept⟩
    rcases List.mem_cons.mp member with rfl | later
    · exact List.mem_cons_self
    · exact List.mem_cons_of_mem c (Text.mem_of_mem_dropEndWhile later)

/-- What has been read of an import statement is made of names. -/
structure ImportList.IsNamed (list : ImportList) : Prop where
  stem : ∀ c ∈ list.stem, isNameChar c = true
  items : ∀ item ∈ list.items, ∀ path ∈ item, IsNameText path

/-- A token adds names at most. -/
theorem ImportList.IsNamed.add {list : ImportList} (isNamed : list.IsNamed) {token : Token}
    (named : token.kind = .name → IsNameText token.text) : (list.add token).IsNamed := by
  obtain ⟨stem, items⟩ := isNamed
  have finished : ∀ item ∈ list.done, ∀ path ∈ item, IsNameText path := fun item listed =>
    items item (List.mem_append_left _ listed)
  have current : ∀ path ∈ list.current, IsNameText path :=
    items list.current (List.mem_append_right _ List.mem_cons_self)
  simp only [ImportList.add]
  split
  · constructor
    · intro c member
      cases last : list.current.getLast? with
      | none => simp [last] at member
      | some path =>
        rw [last, Option.getD_some] at member
        exact (current path (List.mem_of_getLast? last)).1 c member
    · intro item listed
      rcases List.mem_append.mp listed with earlier | now
      · exact finished item earlier
      · rw [List.mem_singleton.mp now]
        exact fun path member => current path (List.dropLast_subset _ member)
  split
  · refine ⟨stem, fun item listed => ?_⟩
    rcases List.mem_append.mp listed with earlier | now
    · rcases List.mem_append.mp earlier with before | last
      · exact finished item before
      · rw [List.mem_singleton.mp last]
        exact current
    · rw [List.mem_singleton.mp now]
      exact fun path member => nomatch member
  split
  · rename_i isName
    refine ⟨stem, fun item listed => ?_⟩
    rcases List.mem_append.mp listed with earlier | now
    · exact finished item earlier
    · rw [List.mem_singleton.mp now]
      intro path member
      rcases List.mem_append.mp member with before | last
      · exact current path before
      · rw [List.mem_singleton.mp last]
        exact named isName
  · exact ⟨stem, items⟩

/-- The tokens of an import statement add names only. -/
theorem ImportList.IsNamed.addAll {list : ImportList} (isNamed : list.IsNamed)
    {tokens : List Token} (named : ∀ token ∈ tokens, token.kind = .name → IsNameText token.text) :
    (tokens.foldl ImportList.add list).IsNamed := by
  induction tokens generalizing list with
  | nil => exact isNamed
  | cons token rest inductionHypothesis =>
    exact inductionHypothesis (isNamed.add (named token List.mem_cons_self))
      fun other member => named other (List.mem_cons_of_mem token member)

/-- All aliases stand for full names. -/
def ImportsFullNames (imports : Keyed Text) : Prop := ∀ entry ∈ imports, IsFullName entry.2

/-- An item of an import statement enters a full name. -/
theorem ImportsFullNames.enter {imports : Keyed Text} (full : ImportsFullNames imports)
    {stem : Text} (plain : ∀ c ∈ stem, isNameChar c = true) {item : List Text}
    (named : ∀ path ∈ item, IsNameText path) :
    ImportsFullNames (importItem stem imports item) := by
  intro entry member
  cases item with
  | nil => exact full entry member
  | cons path rest =>
    rw [importItem] at member
    split at member
    · exact full entry member
    · rcases Keyed.mem_of_mem_put member with rfl | known
      · obtain ⟨chars, letter, inside, other⟩ := named path List.mem_cons_self
        refine isFullName_trimSeparators ⟨fun c listed => ?_, letter, by simp [inside], other⟩
        rcases List.mem_append.mp listed with front | behind
        · exact plain c (Text.mem_of_mem_dropEndWhile front)
        · rcases List.mem_cons.mp behind with rfl | inPath
          · decide
          · exact chars c inPath
      · exact full entry known

/-- The items of an import statement enter full names. -/
theorem ImportsFullNames.enterAll {imports : Keyed Text} (full : ImportsFullNames imports)
    {stem : Text} (plain : ∀ c ∈ stem, isNameChar c = true) {items : List (List Text)}
    (named : ∀ item ∈ items, ∀ path ∈ item, IsNameText path) :
    ImportsFullNames (items.foldl (importItem stem) imports) := by
  induction items generalizing imports with
  | nil => exact full
  | cons item rest inductionHypothesis =>
    exact inductionHypothesis (full.enter plain (named item List.mem_cons_self))
      fun other member => named other (List.mem_cons_of_mem item member)

/-- An import statement enters full names only. -/
theorem ImportsFullNames.read {imports : Keyed Text} (full : ImportsFullNames imports)
    {tokens : List Token} (named : ∀ token ∈ tokens, token.kind = .name → IsNameText token.text) :
    ImportsFullNames (readImports imports tokens).1 := by
  simp only [readImports]
  split
  · exact full
  · rename_i first rest
    split
    · exact full
    split
    · exact full
    · have start : ImportList.IsNamed {} := ⟨by simp, by simp [ImportList.items]⟩
      have listed : (((first :: rest).takeWhile (!·.isMark ';')).foldl
          ImportList.add {}).IsNamed :=
        start.addAll fun token member => named token ((List.takeWhile_prefix _).subset member)
      exact full.enterAll listed.stem listed.items

/-- A scope whose namespace has no separator at its ends and whose aliases stand for full
names. -/
structure IsTidy (scope : Scope) : Prop where
  space : ClassName.trimSeparators scope.space = scope.space
  imports : ImportsFullNames scope.imports

/-- A namespace statement starts a tidy scope. -/
theorem isTidy_readNamespace (tokens : List Token) : IsTidy (readNamespace tokens).1 := by
  have nothing : ImportsFullNames [] := fun entry member => nomatch member
  cases tokens with
  | nil => exact ⟨rfl, nothing⟩
  | cons token rest =>
    simp only [readNamespace]
    split
    · exact ⟨Text.trimWhile_trimWhile token.text, nothing⟩
    · exact ⟨rfl, nothing⟩

/-- The points that the walk of a reader comes to: where it stands, and the tokens left. -/
inductive Walks (source : Text) (file : Option Text) : Position → List Token → Prop
  | start : Walks source file {} (tokens source)
  | step {position : Position} {token : Token} {rest : List Token}
      (walks : Walks source file position (token :: rest)) :
      Walks source file (step source file position token rest).position
        (step source file position token rest).left

/-- The scope behind a step is the one before it, that of a namespace statement, or the one
before it with more imports. -/
theorem step_scope (source : Text) (file : Option Text) (position : Position) (token : Token)
    (rest : List Token) :
    (step source file position token rest).position.scope = position.scope ∨
      (step source file position token rest).position.scope = (readNamespace rest).1 ∨
      (step source file position token rest).position.scope =
        { position.scope with imports := (readImports position.scope.imports rest).1 } := by
  simp only [step]
  split
  · exact .inl rfl
  split
  · exact .inl rfl
  split
  · exact .inl rfl
  split
  · split
    · exact .inl rfl
    · exact .inl rfl
  split
  · exact .inr (.inl rfl)
  split
  · exact .inr (.inr rfl)
  split
  · exact .inl rfl
  · exact .inl rfl

/-- A type is declared in the scope that it is read in. -/
theorem readType_scope {scope : Scope} {source : Text} {file : Option Text} {word : Text}
    {modifiers : List Text} {comment : Text} {tokens : List Token} {declaration : Declaration}
    (declared : (readType scope source file word modifiers comment tokens).1 =
      some declaration) : declaration.scope = scope := by
  cases tokens with
  | nil => cases declared
  | cons token rest =>
    simp only [readType] at declared
    split at declared
    · split at declared
      · cases declared
      · cases declared
        rfl
    · cases declared

/-- What a step declares is a type that is read there. -/
theorem step_declared {source : Text} {file : Option Text} {position : Position}
    {token : Token} {rest : List Token} {declaration : Declaration}
    (declared : (step source file position token rest).declared = some declaration) :
    ∃ word ∈ typeWords, (readType position.scope source file word position.modifiers
      position.comment rest).1 = some declaration := by
  rcases step_cases source file position token rest with ⟨-, none, -⟩ | ⟨-, none, -⟩ |
      ⟨-, -, none, -⟩ | ⟨-, none | ⟨introduces, read⟩⟩
  · cases none.symm.trans declared
  · cases none.symm.trans declared
  · cases none.symm.trans declared
  · cases none.symm.trans declared
  · rw [declared] at read
    exact ⟨_, introduces.2, congrArg Prod.fst read.symm⟩

/-- A step declares a type in the scope before it. -/
theorem step_declared_scope {source : Text} {file : Option Text} {position : Position}
    {token : Token} {rest : List Token} {declaration : Declaration}
    (declared : (step source file position token rest).declared = some declaration) :
    declaration.scope = position.scope := by
  obtain ⟨word, -, read⟩ := step_declared declared
  exact readType_scope read

/-- What a step leaves are last ones of the tokens behind its token. -/
theorem step_left_suffix (source : Text) (file : Option Text) (position : Position)
    (token : Token) (rest : List Token) :
    (step source file position token rest).left <:+ rest := by
  have agree : Agree source source id rest := fun _ _ _ _ => rfl
  have stops : (Fork.whole id).Stops
      (step source file position token ((Fork.whole id).first rest)).left :=
    Fork.stops_whole id _
  have steps := step_leaves file ⟨rfl, rfl, rfl, rfl⟩ agree stops
  simp only [Fork.first_whole, Fork.leaves_whole] at steps
  exact steps.1.1

/-- Wherever a walk comes to, its scope is tidy and the tokens left are last ones of the
source. -/
theorem Walks.isTidy {source : Text} {file : Option Text} {position : Position}
    {left : List Token} (walks : Walks source file position left) :
    IsTidy position.scope ∧ left <:+ tokens source := by
  induction walks with
  | start => exact ⟨⟨rfl, fun entry member => nomatch member⟩, List.suffix_refl _⟩
  | @step position token rest walks inductionHypothesis =>
    obtain ⟨tidy, within⟩ := inductionHypothesis
    have behind : rest <:+ tokens source := (List.suffix_cons token rest).trans within
    refine ⟨?_, (step_left_suffix source file position token rest).trans behind⟩
    rcases step_scope source file position token rest with same | space | imports
    · rw [same]
      exact tidy
    · rw [space]
      exact isTidy_readNamespace rest
    · rw [imports]
      exact ⟨tidy.space, tidy.imports.read fun token member =>
        isNameText_of_mem_tokens (behind.subset member)⟩

/-- The scopes that a reader builds on its walk over some source. -/
def IsReadFrom (source : Text) (scope : Scope) : Prop :=
  ∃ file position left, Walks source file position left ∧ position.scope = scope

/-- A scope that is read is tidy. -/
theorem IsReadFrom.isTidy {source : Text} {scope : Scope} (read : IsReadFrom source scope) :
    IsTidy scope := by
  obtain ⟨file, position, left, walks, rfl⟩ := read
  exact walks.isTidy.1

/-- Every declaration of a source is one that a step of the walk over it yields. -/
theorem exists_step_of_mem_declarations {source : Text} {file : Option Text}
    {declaration : Declaration} (member : declaration ∈ declarations source file) :
    ∃ position token rest, Walks source file position (token :: rest) ∧
      (step source file position token rest).declared = some declaration := by
  have onward {position : Position} {left : List Token}
      (walks : Walks source file position left)
      (yielded : declaration ∈ declarationsFrom source file position left) :
      ∃ position token rest, Walks source file position (token :: rest) ∧
        (step source file position token rest).declared = some declaration := by
    induction size : left.length using Nat.strongRecOn generalizing position left with
    | ind size inductionHypothesis =>
      cases left with
      | nil => simp [declarationsFrom] at yielded
      | cons token rest =>
        rw [declarationsFrom, List.mem_append] at yielded
        rcases yielded with now | later
        · exact ⟨position, token, rest, walks, by simpa using now⟩
        · have shorter := step_left_length_le source file position token rest
          exact inductionHypothesis _ (by simp only [List.length_cons] at size; omega) walks.step
            later rfl
  exact onward .start member

/-- The scope of a declaration is one that the reader builds. -/
theorem isReadFrom_of_mem_declarations {source : Text} {file : Option Text}
    {declaration : Declaration} (member : declaration ∈ declarations source file) :
    IsReadFrom source declaration.scope := by
  obtain ⟨position, token, rest, walks, declared⟩ := exists_step_of_mem_declarations member
  exact ⟨file, position, _, walks, (step_declared_scope declared).symm⟩

end Source
end Docblock
