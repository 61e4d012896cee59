import Docblock.Proofs.Source.Terminals

/-!
# Printed files are cut where they were joined

The chunks of a printed file are set apart by blanks, part by part of the
grammar. So the tokens of the text of a file are the lexemes it was made of.
-/

namespace Docblock.Source.Printed

/-- A chunk of some parts and separators is the separator or belongs to a part. -/
theorem mem_separated {separator chunk : Chunk} {parts : List (List Chunk)}
    (member : chunk ∈ separated separator parts) :
    chunk = separator ∨ ∃ part ∈ parts, chunk ∈ part := by
  induction parts with
  | nil => cases member
  | cons part others inductionHypothesis =>
    cases others with
    | nil =>
      rw [separated, List.intercalate_singleton] at member
      exact .inr ⟨part, List.mem_cons_self, member⟩
    | cons next more =>
      rw [separated, List.intercalate_cons_cons, List.mem_append, List.mem_append,
        List.mem_singleton] at member
      rcases member with (inside | same) | later
      · exact .inr ⟨part, List.mem_cons_self, inside⟩
      · exact .inl same
      · rcases inductionHypothesis later with same | ⟨other, listed, inside⟩
        · exact .inl same
        · exact .inr ⟨other, List.mem_cons_of_mem _ listed, inside⟩

/-- Parts that are set apart by blanks stay so with a separator between them. -/
theorem separated_isApart {separator : String} (listed : separator ∈ marks)
    {parts : List (List Chunk)} (apart : ∀ part ∈ parts, ∀ chunk ∈ part, chunk.IsApart) :
    ∀ chunk ∈ separated (mark separator) parts, chunk.IsApart := by
  intro chunk member
  rcases mem_separated member with rfl | ⟨part, inside, place⟩
  · exact mark_isApart listed
  · exact apart part inside chunk place

/-- The chunks of a type are question marks, bars and class names. -/
theorem TypeExpression.forall_mem (type : TypeExpression) {property : Chunk → Prop}
    (nullable : property (mark "?")) (bar : property (mark "|"))
    (named : ∀ path : Path, property path.chunk) : ∀ chunk ∈ type.chunks, property chunk := by
  intro chunk member
  simp only [TypeExpression.chunks, List.mem_append, List.mem_cons, List.mem_flatMap,
    List.not_mem_nil, or_false] at member
  rcases member with marked | rfl | ⟨path, -, rfl | rfl⟩
  · cases wanted : type.isNullable <;> simp only [wanted, if_true] at marked
    · cases marked
    · rw [List.mem_singleton.mp marked]
      exact nullable
  · exact named type.first
  · exact bar
  · exact named path

/-- The chunks of a type are set apart by blanks. -/
theorem TypeExpression.isApart (type : TypeExpression) :
    ∀ chunk ∈ type.chunks, chunk.IsApart :=
  type.forall_mem (mark_isApart (by decide)) (mark_isApart (by decide)) fun path =>
    word_isApart path.isName

mutual

/-- The chunks of a default value are set apart by blanks. -/
theorem Literal.isApart (literal : Literal) : ∀ chunk ∈ literal.chunks, chunk.IsApart := by
  cases literal with
  | number value =>
    intro chunk member
    rw [Literal.chunks, List.mem_singleton] at member
    rw [member]
    exact value.isApart
  | quoted quotation =>
    intro chunk member
    rw [Literal.chunks, List.mem_singleton] at member
    rw [member]
    exact quotation.isApart
  | named path =>
    intro chunk member
    rw [Literal.chunks, List.mem_singleton] at member
    rw [member]
    exact word_isApart path.isName
  | list items =>
    intro chunk member
    rw [Literal.chunks, List.cons_append, List.mem_cons, List.mem_append,
      List.mem_singleton] at member
    rcases member with rfl | inside | rfl
    · exact mark_isApart (by decide)
    · exact separated_isApart (by decide) (Literal.parts_isApart items) chunk inside
    · exact mark_isApart (by decide)

/-- The chunks of some default values are set apart by blanks. -/
theorem Literal.parts_isApart (items : List Literal) :
    ∀ part ∈ Literal.parts items, ∀ chunk ∈ part, chunk.IsApart := by
  cases items with
  | nil => intro part member; cases member
  | cons item rest =>
    intro part member
    rw [Literal.parts, List.mem_cons] at member
    rcases member with rfl | later
    · exact Literal.isApart item
    · exact Literal.parts_isApart rest part later

end

/-- The marks between a type and a variable are ampersands and dots. -/
theorem Parameter.forall_mem_marks (parameter : Parameter) {property : Chunk → Prop}
    (reference : property (mark "&")) (repeated : property (mark "...")) :
    ∀ chunk ∈ parameter.marks, property chunk := by
  intro chunk member
  rw [Parameter.marks, List.mem_append] at member
  rcases member with marked | marked
  · cases wanted : parameter.isReference <;> simp only [wanted, if_true] at marked
    · cases marked
    · rw [List.mem_singleton.mp marked]
      exact reference
  · cases wanted : parameter.isVariadic <;> simp only [wanted, if_true] at marked
    · cases marked
    · rw [List.mem_singleton.mp marked]
      exact repeated

/-- What holds of the chunks of a type and of the marks behind it holds of all
chunks before the variable. -/
theorem Parameter.forall_mem_leading (parameter : Parameter) {property : Chunk → Prop}
    (nullable : property (mark "?")) (bar : property (mark "|"))
    (named : ∀ path : Path, property path.chunk) (reference : property (mark "&"))
    (repeated : property (mark "...")) :
    ∀ chunk ∈ (parameter.type.map TypeExpression.chunks).getD [] ++ parameter.marks,
      property chunk := by
  refine List.forall_mem_append.mpr ⟨?_, parameter.forall_mem_marks reference repeated⟩
  cases parameter.type with
  | none =>
    intro chunk member
    cases member
  | some type => exact type.forall_mem nullable bar named

/-- The chunks of a parameter are set apart by blanks. -/
theorem Parameter.isApart (parameter : Parameter) :
    ∀ chunk ∈ parameter.chunks, chunk.IsApart := by
  have leading := parameter.forall_mem_leading (mark_isApart (by decide)) (mark_isApart (by decide))
    (fun path => word_isApart path.isName) (mark_isApart (by decide)) (mark_isApart (by decide))
  rw [Parameter.chunks, List.forall_mem_append, List.forall_mem_cons]
  refine ⟨leading, parameter.name.variable_isApart, ?trailing⟩
  case trailing =>
    rw [Parameter.trailing]
    cases parameter.default with
    | none => intro chunk member; cases member
    | some value =>
      exact List.forall_mem_cons.mpr ⟨mark_isApart (by decide), value.isApart⟩

/-- A keyword is set apart by blanks. -/
theorem keyword_isApart {text : Text} (listed : text ∈ keywords) : (word text).IsApart := by
  have wellFormed : ∀ other ∈ keywords, isIdentifier other = true := by decide
  exact word_isApart (isName_of_isIdentifier (wellFormed text listed))

/-- The name of a declaration is set apart by blanks. -/
theorem Identifier.isApart (name : Identifier) : (word name.text).IsApart :=
  word_isApart (isName_of_isIdentifier name.wellFormed)

/-- The words before a method are keywords. -/
theorem mem_keywords_of_mem_memberModifiers {text : Text} (listed : text ∈ memberModifiers) :
    text ∈ keywords := by
  simp [keywords, listed]

/-- The words before a declaration are keywords. -/
theorem mem_keywords_of_mem_classModifiers {text : Text} (listed : text ∈ classModifiers) :
    text ∈ keywords := by
  simp [keywords, listed]

/-- The chunks of a method are set apart by blanks. -/
theorem Method.isApart (method : Method) : ∀ chunk ∈ method.chunks, chunk.IsApart := by
  simp only [Method.chunks, List.forall_mem_append, List.forall_mem_cons]
  refine ⟨?modifiers, keyword_isApart (by decide), method.name.isApart, mark_isApart (by decide),
    ?parameters, mark_isApart (by decide), ?returned, ?body⟩
  case modifiers =>
    intro chunk member
    obtain ⟨modifier, -, rfl⟩ := List.mem_map.mp member
    exact keyword_isApart (mem_keywords_of_mem_memberModifiers modifier.property)
  case parameters =>
    refine separated_isApart (by decide) fun part member => ?_
    obtain ⟨parameter, -, rfl⟩ := List.mem_map.mp member
    exact parameter.isApart
  case returned =>
    rw [Method.returned]
    cases method.returnType with
    | none => intro chunk member; cases member
    | some type => exact List.forall_mem_cons.mpr ⟨mark_isApart (by decide), type.isApart⟩
  case body =>
    rw [Method.body]
    have semicolon : (mark ";").IsApart := mark_isApart (by decide)
    have opening : (mark "\x7b").IsApart := mark_isApart (by decide)
    have closing : (mark "\x7d").IsApart := mark_isApart (by decide)
    cases method.hasBody <;> simp [semicolon, opening, closing]

/-- A list of names in a header is set apart by blanks. -/
theorem Heading.clause_isApart {introduced : String} (listed : introduced.toList ∈ keywords)
    (paths : List Path) : ∀ chunk ∈ clause introduced paths, chunk.IsApart := by
  rw [clause]
  split
  · intro chunk member
    cases member
  · refine List.forall_mem_cons.mpr ⟨keyword_isApart listed, ?_⟩
    refine separated_isApart (by decide) fun part member => ?_
    obtain ⟨path, -, rfl⟩ := List.mem_map.mp member
    intro chunk inside
    rw [List.mem_singleton.mp inside]
    exact word_isApart path.isName

/-- The chunks of a header are set apart by blanks. -/
theorem Heading.clauses_isApart (heading : Heading) :
    ∀ chunk ∈ heading.clauses, chunk.IsApart :=
  List.forall_mem_append.mpr
    ⟨clause_isApart (by decide) heading.extended, clause_isApart (by decide) heading.implemented⟩

/-- The word that introduces a declaration is a keyword. -/
theorem Heading.word_mem_typeWords (heading : Heading) : heading.word ∈ typeWords := by
  cases heading with
  | ofClass => exact (by decide : "class".toList ∈ typeWords)
  | ofInterface => exact (by decide : "interface".toList ∈ typeWords)
  | ofTrait => exact (by decide : "trait".toList ∈ typeWords)
  | ofEnumeration => exact (by decide : "enum".toList ∈ typeWords)

/-- The words that introduce declarations are keywords. -/
theorem mem_keywords_of_mem_typeWords {text : Text} (listed : text ∈ typeWords) :
    text ∈ keywords := by
  simp [keywords, listed]

/-- The chunks of a declaration are set apart by blanks. -/
theorem Declaration.isApart (declaration : Declaration) :
    ∀ chunk ∈ declaration.chunks, chunk.IsApart := by
  simp only [Declaration.chunks, List.forall_mem_append, List.forall_mem_cons]
  refine ⟨?modifiers, ?word, declaration.name.isApart, declaration.heading.clauses_isApart,
    mark_isApart (by decide), ?methods, mark_isApart (by decide), ?nothing⟩
  case modifiers =>
    intro chunk member
    obtain ⟨modifier, -, rfl⟩ := List.mem_map.mp member
    exact keyword_isApart (mem_keywords_of_mem_classModifiers modifier.property)
  case word =>
    exact keyword_isApart (mem_keywords_of_mem_typeWords declaration.heading.word_mem_typeWords)
  case methods =>
    intro chunk member
    obtain ⟨method, -, inside⟩ := List.mem_flatMap.mp member
    exact method.isApart chunk inside
  case nothing =>
    intro chunk member
    cases member

/-- The chunks of a file are set apart by blanks. -/
theorem File.isApart (file : File) : ∀ chunk ∈ file.chunks, chunk.IsApart := by
  refine List.forall_mem_append.mpr ⟨?statement, ?declarations⟩
  case statement =>
    rw [File.statement]
    cases file.space with
    | none => intro chunk member; cases member
    | some space =>
      have introduced : (word "namespace".toList).IsApart := keyword_isApart (by decide)
      have ended : (mark ";").IsApart := mark_isApart (by decide)
      simp only [List.forall_mem_cons]
      exact ⟨introduced, word_isApart space.isName, ended, by simp⟩
  case declarations =>
    intro chunk member
    obtain ⟨declaration, -, inside⟩ := List.mem_flatMap.mp member
    exact declaration.isApart chunk inside

/-- The tokens of a printed file are the lexemes of its chunks. -/
theorem File.occurs (file : File) : Occurs file.text file.chunks (tokens file.text) :=
  occurs_tokens file.chunks file.isApart

end Docblock.Source.Printed
