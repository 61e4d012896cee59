import Docblock.Proofs.Source.Comments
import Docblock.Proofs.TypeName.Agreement

/-!
# Signatures that are read

Whatever a source holds, a method that is read from it is well formed: its comment is a
documentation comment of the source or empty, its modifiers are words for members, its
parameters are named by variables, and a type that it declares is not empty and has no
white space. The reader takes these texts from tokens, squeezes the types and trims the
default values, so it is enough to follow which tokens it takes them from.
-/

namespace Docblock.Source

/-- A text that is not empty and has no white space. -/
def IsSolid (text : Text) : Prop := text ≠ [] ∧ ∀ c ∈ text, Text.isBlank c = false

/-- A comment that is empty or a documentation comment of a source. -/
def IsCommentOf (source comment : Text) : Prop :=
  comment = [] ∨ ∃ token ∈ tokens source, token.kind = .doc ∧ token.text = comment ∧
    IsDocComment comment

/-- A parameter that is named by a variable, has a solid type or none, and has a default
value without white space at its ends or none. -/
structure Parameter.IsWellFormed (parameter : Parameter) : Prop where
  name : parameter.name.head? = some '$'
  type : ∀ text ∈ parameter.type, IsSolid text
  default : ∀ text ∈ parameter.default, Text.trim text = text

/-- A method that has a comment of a source or none, words for members as its modifiers,
well-formed parameters and a solid return type or none. -/
structure Method.IsWellFormed (source : Text) (method : Method) : Prop where
  comment : IsCommentOf source method.comment
  modifiers : ∀ word ∈ method.modifiers, word ∈ memberModifiers ∧ word ≠ "var".toList
  parameters : ∀ parameter ∈ method.parameters, parameter.IsWellFormed
  returnType : ∀ text ∈ method.returnType, IsSolid text

/-- The modifiers and the comment in front of a member that is still to be read. -/
structure IsAnnounced (source : Text) (modifiers : List Text) (comment : Text) : Prop where
  modifiers : ∀ word ∈ modifiers, word ∈ memberModifiers
  comment : IsCommentOf source comment

variable {scope : Scope} {source : Text}

section Tokens

variable {token : Token}

/-- A token of a source is cut out of it. -/
theorem isCut_of_mem_tokens (member : token ∈ tokens source) : token.IsCut source :=
  (tokens_tile source).2.1 token (List.mem_filter.mp member).1

/-- A comment that is taken from a token is one of the source. -/
theorem isCommentOf_of_mem_tokens (member : token ∈ tokens source) (doc : token.kind = .doc) :
    IsCommentOf source token.text :=
  .inr ⟨token, member, doc, rfl, (isCut_of_mem_tokens member).isDocComment doc⟩

/-- A token that is a variable starts with a dollar sign. -/
theorem head?_of_mem_tokens (member : token ∈ tokens source) (named : token.kind = .variable) :
    token.text.head? = some '$' := by
  have isCut := isCut_of_mem_tokens member
  have measured := isCut.measured
  rw [named] at measured
  have applied : variableLength _ = some _ := rule_of_measure (by simp [rules]) (by decide) measured
  have positive := (variableLength_measures _ _ applied).1
  rw [isCut.text, List.head?_take, if_neg (Nat.ne_of_gt positive)]
  unfold variableLength at applied
  split at applied
  · rename_i front
    rw [front, List.head?_cons]
  · cases applied

end Tokens

section Types

/-- A text of a name is solid. -/
theorem IsNameText.isSolid {text : Text} (isNameText : IsNameText text) : IsSolid text := by
  obtain ⟨plain, letter, inside, -⟩ := isNameText
  exact ⟨List.ne_nil_of_mem inside, fun c member => isBlank_of_isNameChar (plain c member)⟩

/-- A full name behind a separator is solid. -/
theorem IsFullName.isSolid {full : Text} (isFullName : IsFullName full) :
    IsSolid (ClassName.separator :: full) := by
  constructor
  · exact List.cons_ne_nil _ _
  · intro c member
    cases member with
    | head => decide
    | tail _ later => exact isBlank_of_isNameChar (isFullName.1 c later)

/-- A path stays solid when it is expanded. -/
theorem isSolid_expandPath (imports : ImportsFullNames scope.imports) {path : Text}
    (isNameText : IsNameText path) : IsSolid (expandPath scope path) := by
  rw [expandPath]
  split
  · exact isNameText.isSolid
  · split
    · rename_i full expanded
      exact (TypeName.isFullName_of_expandAlias? imports isNameText.1 expanded).isSolid
    · exact isNameText.isSolid

/-- Solid texts put together are solid. -/
theorem IsSolid.append {first second : Text} (solid : IsSolid first)
    (visible : ∀ c ∈ second, Text.isBlank c = false) : IsSolid (first ++ second) := by
  constructor
  · exact List.append_ne_nil_of_left_ne_nil solid.1 second
  · intro c member
    cases List.mem_append.mp member with
    | inl inFirst => exact solid.2 c inFirst
    | inr inSecond => exact visible c inSecond

/-- A text without white space has none when its paths are expanded, and is not empty if it
was not. -/
theorem expandPaths_visible (imports : ImportsFullNames scope.imports) {text : Text}
    (visible : ∀ c ∈ text, Text.isBlank c = false) :
    (∀ c ∈ expandPaths scope text, Text.isBlank c = false) ∧
      (text ≠ [] → expandPaths scope text ≠ []) := by
  fun_induction expandPaths scope text with
  | case1 => exact ⟨by simp, fun nonempty => nonempty⟩
  | case2 c rest width measured inductionHypothesis =>
    have positive := (pathLength_measures _ _ measured).1
    have front : (c :: rest).take width = c :: rest.take (width - 1) := by
      obtain ⟨shorter, rfl⟩ := Nat.exists_eq_succ_of_ne_zero (Nat.ne_of_gt positive)
      rfl
    have path : IsSolid (expandPath scope (c :: rest.take (width - 1))) := by
      rw [← front]
      exact isSolid_expandPath imports (isNameText_of_pathLength measured)
    obtain ⟨onward, -⟩ := inductionHypothesis fun d member =>
      visible d (List.mem_cons_of_mem c (List.mem_of_mem_drop member))
    have solid := path.append onward
    exact ⟨solid.2, fun _ => solid.1⟩
  | case3 c rest unmeasured inductionHypothesis =>
    obtain ⟨onward, -⟩ := inductionHypothesis fun d member =>
      visible d (List.mem_cons_of_mem c member)
    refine ⟨?_, fun _ => List.cons_ne_nil _ _⟩
    intro d member
    cases member with
    | head => exact visible c List.mem_cons_self
    | tail _ later => exact onward d later

/-- A declared type is solid. -/
theorem isSolid_declaredType? (imports : ImportsFullNames scope.imports) (written : Text) :
    ∀ text ∈ declaredType? scope written, IsSolid text := by
  intro text declared
  simp only [declaredType?] at declared
  split at declared
  · cases declared
  · rename_i nonempty
    cases declared
    have squeezed : ∀ c ∈ written.filter (!Text.isBlank ·), Text.isBlank c = false := by
      intro c member
      simpa using (List.mem_filter.mp member).2
    obtain ⟨visible, kept⟩ := expandPaths_visible imports squeezed
    exact ⟨kept nonempty, visible⟩

end Types

section Parameters

/-- The text of a span has no white space at its ends. -/
theorem trim_slice (span : List Token) : Text.trim (slice source span) = slice source span := by
  rw [slice]
  split
  · exact Text.trimWhile_trimWhile _
  · rfl

/-- A run of tokens of a source declares a well-formed parameter, if any. -/
theorem parameter?_wellFormed (imports : ImportsFullNames scope.imports) {run : List Token}
    (within : run ⊆ tokens source) {parameter : Parameter}
    (declared : parameter? scope source run = some parameter) : parameter.IsWellFormed := by
  simp only [parameter?] at declared
  split at declared
  · cases declared
  · rename_i named trailing behind
    cases declared
    have isVariable : named.kind = .variable := by
      have first := List.head?_dropWhile_not (fun token : Token => !token.kind == .variable)
        (run.dropWhile fun token => promotionModifiers.contains (Text.lower token.text))
      rw [behind] at first
      simpa using first
    have last : named :: trailing <:+ run := by
      rw [← behind]
      exact (List.dropWhile_suffix _).trans (List.dropWhile_suffix _)
    have member : named ∈ run := last.subset List.mem_cons_self
    constructor
    · exact head?_of_mem_tokens (within member) isVariable
    · exact isSolid_declaredType? imports _
    · intro text value
      simp only at value
      split at value
      · cases value
      · split at value
        · cases value
          exact trim_slice _
        · cases value

/-- The parameters that are listed behind the name of a method are well formed. -/
theorem parameterList_wellFormed (imports : ImportsFullNames scope.imports) {left : List Token}
    (within : left ⊆ tokens source) :
    ∀ parameter ∈ (parameterList scope source left).1, parameter.IsWellFormed := by
  cases left with
  | nil => simp [parameterList]
  | cons token rest =>
    simp only [parameterList]
    split
    · intro parameter member
      obtain ⟨run, listed, declared⟩ := List.mem_filterMap.mp member
      have splits := parameterRuns_splits 0 rest (Fork.stops_whole id _)
      simp only [Fork.first_whole] at splits
      refine parameter?_wellFormed imports ?_ declared
      exact List.Subset.trans (splits.within run listed) (List.subset_of_cons_subset within)
    · simp

end Parameters

section Members

/-- A method that is read from tokens of a source is well formed. -/
theorem readMethod_wellFormed (imports : ImportsFullNames scope.imports) {modifiers : List Text}
    {comment : Text} (announced : IsAnnounced source modifiers comment) {left : List Token}
    (within : left ⊆ tokens source) :
    ∀ method ∈ (readMethod scope source modifiers comment left).1, method.IsWellFormed source := by
  have unreferenced : skipReference left ⊆ left := by
    cases left with
    | nil => exact List.Subset.refl _
    | cons token rest => simp only [skipReference]; split <;> simp
  intro method read
  simp only [readMethod] at read
  split at read
  · cases read
  · rename_i token rest named
    rw [named] at unreferenced
    split at read
    · cases read
      constructor
      · exact announced.comment
      · intro word member
        obtain ⟨listed, other⟩ := List.mem_filter.mp member
        exact ⟨announced.modifiers word listed, by simpa using other⟩
      · exact parameterList_wellFormed imports
          (List.Subset.trans (List.subset_of_cons_subset unreferenced) within)
      · exact isSolid_declaredType? imports _
    · cases read

/-- A step among members of a source reads a well-formed method, if any, and leaves tokens of
the source behind the modifiers and the comment of a member. -/
theorem memberStep_wellFormed (imports : ImportsFullNames scope.imports) {modifiers : List Text}
    {comment : Text} (announced : IsAnnounced source modifiers comment) {token : Token}
    {rest : List Token} (within : token :: rest ⊆ tokens source) {next : MemberStep}
    (steps : memberStep scope source modifiers comment token rest = some next) :
    (∀ method ∈ next.method, method.IsWellFormed source) ∧
      IsAnnounced source next.modifiers next.comment ∧ next.left ⊆ tokens source := by
  have left : next.left ⊆ token :: rest := (memberStep_left_suffix steps).subset
  have plain : IsAnnounced source [] [] := ⟨by simp, .inl rfl⟩
  have started := token.starts_spec
  unfold memberStep at steps
  cases starts : token.starts with
  | comment =>
    simp only [starts, Option.some.injEq] at steps started
    subst steps
    refine ⟨by simp, ⟨announced.modifiers, ?_⟩, List.Subset.trans left within⟩
    exact isCommentOf_of_mem_tokens (within List.mem_cons_self) started
  | group =>
    simp only [starts, Option.some.injEq] at steps
    subst steps
    exact ⟨by simp, announced, List.Subset.trans left within⟩
  | closing => simp [starts] at steps
  | modifier =>
    simp only [starts, Option.some.injEq] at steps started
    subst steps
    refine ⟨by simp, ⟨?_, announced.comment⟩, List.Subset.trans left within⟩
    intro word member
    cases List.mem_append.mp member with
    | inl before => exact announced.modifiers word before
    | inr last =>
      rw [List.mem_singleton.mp last]
      exact started.2
  | method =>
    simp only [starts, Option.some.injEq] at steps
    subst steps
    exact ⟨readMethod_wellFormed imports announced (List.subset_of_cons_subset within), plain,
      List.Subset.trans left within⟩
  | statement =>
    simp only [starts, Option.some.injEq] at steps
    subst steps
    exact ⟨by simp, plain, List.Subset.trans left within⟩

/-- The methods that are read from the body of a type are well formed. The induction is on
the tokens left, as a step may skip many of them. -/
theorem readBody_wellFormed (imports : ImportsFullNames scope.imports) {modifiers : List Text}
    {comment : Text} (announced : IsAnnounced source modifiers comment) {left : List Token}
    (within : left ⊆ tokens source) :
    ∀ method ∈ (readBody scope source modifiers comment left).1, method.IsWellFormed source := by
  induction size : left.length using Nat.strongRecOn generalizing modifiers comment left with
  | ind size inductionHypothesis =>
    cases left with
    | nil => simp [readBody]
    | cons token rest =>
      rw [readBody_cons]
      cases steps : memberStep scope source modifiers comment token rest with
      | none => simp
      | some next =>
        obtain ⟨now, onward, leftOver⟩ := memberStep_wellFormed imports announced within steps
        have shorter := memberStep_length_le steps
        rw [List.length_cons] at size
        intro method member
        cases List.mem_append.mp member with
        | inl read => exact now method (Option.mem_toList.mp read)
        | inr later => exact inductionHypothesis _ (by omega) onward leftOver rfl method later

end Members

end Docblock.Source
