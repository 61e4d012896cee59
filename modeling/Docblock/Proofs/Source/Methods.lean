import Docblock.Proofs.Source.Parameters

/-!
# Reading printed methods and headers

Each reader of the body of a declaration takes exactly the tokens of its part of
a printed file and leaves those behind them: one lemma for each reader, with any
tokens following.
-/

namespace Docblock.Source.Printed

variable (space : Text) {source : Text} {found : List Token}

/-- Up to the end of a method the tokens of a type are the return type. -/
theorem span_type {ending : Token} (inert : AllInert found)
    (ends : endsReturnType ending = true) (rest : List Token) :
    (found ++ ending :: rest).takeWhile (!endsReturnType ·) = found ∧
      (found ++ ending :: rest).dropWhile (!endsReturnType ·) = ending :: rest := by
  have inside : ∀ token ∈ found, (!endsReturnType token) = true := by
    intro token member
    simp [endsReturnType, (inert token member).isMark '{' (by decide),
      (inert token member).isMark ';' (by decide)]
  have outside : (!endsReturnType ending) = false := by simp [ends]
  exact span_append inside outside rest

/-- The tokens of a printed return type, read up to the end of the method. -/
theorem Method.returned_read (method : Method) (occurs : Occurs source method.returned found)
    {ending : Token} (ends : endsReturnType ending = true) (rest : List Token) :
    ∃ typed, returnTokens (found ++ ending :: rest) = (typed, ending :: rest) ∧
      declaredType? { space } (slice source typed) =
        method.returnType.map TypeExpression.text := by
  rw [Method.returned] at occurs
  cases returned : method.returnType with
  | none =>
    rw [returned] at occurs
    rw [occurs.nil, List.nil_append]
    refine ⟨[], ?_, rfl⟩
    have uncoloned : ending.isMark ':' = false := by
      simp only [endsReturnType, Token.isMark, Bool.or_eq_true, beq_iff_eq] at ends ⊢
      rcases ends with text | text <;> rw [text] <;> decide
    rw [returnTokens, uncoloned]
    rfl
  | some type =>
    rw [returned] at occurs
    obtain ⟨colon, typed, rfl, -, text, onward⟩ := occurs.cons
    have inert : AllInert typed := onward.forall_mem IsInert type.isInert
    have coloned : colon.isMark ':' = true := by
      rw [Token.isMark, text]
      decide
    have split := span_type inert ends rest
    refine ⟨typed, ?_, declaredType?_printed (some type) onward⟩
    rw [List.cons_append, returnTokens, if_pos coloned, split.1, split.2]

/-- A printed body is passed over. -/
theorem Method.body_read (method : Method) (occurs : Occurs source method.body found)
    (rest : List Token) :
    ∃ ending more, found ++ rest = ending :: more ∧ endsReturnType ending = true ∧
      skipBody (ending :: more) = rest := by
  rw [Method.body] at occurs
  cases embodied : method.hasBody with
  | false =>
    rw [embodied] at occurs
    obtain ⟨semicolon, rfl, -, text⟩ := occurs.singleton
    refine ⟨semicolon, rest, rfl, ?_, ?_⟩
    · rw [endsReturnType, Token.isMark, Token.isMark, text]
      decide
    · have closed : semicolon.isMark '{' = false := by
        rw [Token.isMark, text]
        decide
      rw [skipBody, closed]
      rfl
  | true =>
    rw [embodied] at occurs
    obtain ⟨opening, others, rfl, -, openingText, onward⟩ := occurs.cons
    obtain ⟨closing, rfl, kind, closingText⟩ := onward.singleton
    have opened : opening.isMark '{' = true := by
      rw [Token.isMark, openingText]
      decide
    refine ⟨opening, closing :: rest, rfl, ?_, ?_⟩
    · rw [endsReturnType, opened]
      rfl
    · have ordinary : closing.kind ≠ .attributeOpening := by
        rw [kind]
        decide
      rw [skipBody, if_pos opened, skipBalanced, closingText]
      simp only [closerOf, ordinary, if_false]
      simp [skipBalanced]

/-- A printed method is read as declared, behind the word that introduces it. -/
theorem Method.read (method : Method) {modifiers : List Text}
    (occurs : Occurs source (word method.name.text :: mark "(" ::
      (separated (mark ",") (method.parameters.map Parameter.chunks) ++
        mark ")" :: (method.returned ++ method.body))) found) (rest : List Token)
    (given : modifiers = method.modifiers.map Subtype.val) :
    readMethod { space } source modifiers [] (found ++ rest) = (some method.declared, rest) := by
  obtain ⟨named, others, rfl, kind, text, onward⟩ := occurs.cons
  obtain ⟨opening, listed, rfl, -, openingText, inside⟩ := onward.cons
  obtain ⟨parameterTokens, behind, rfl, parametersOccur, tail⟩ := inside.append
  obtain ⟨closing, ended, rfl, closingKind, closingText, final⟩ := tail.cons
  obtain ⟨returned, body, rfl, returnedOccurs, bodyOccurs⟩ := final.append
  obtain ⟨ending, more, follows, ends, skipped⟩ := method.body_read bodyOccurs rest
  obtain ⟨typed, returns, type⟩ := method.returned_read space returnedOccurs ends more
  have ordinary : closing.kind ≠ .attributeOpening := by
    rw [closingKind]
    decide
  have isName : named.kind = .name := kind
  have unreferenced : named.isMark '&' = false := by
    rw [Token.isMark, text, beq_eq_false_iff_ne]
    exact (isName_of_isIdentifier method.name.wellFormed).ne_marks.1
  have opened : opening.isMark '(' = true := by
    rw [Token.isMark, openingText]
    decide
  have read := parameters_read space method.parameters parametersOccur ordinary
    closingText (returned ++ ending :: more)
  have regrouped : named :: opening :: (parameterTokens ++ closing :: (returned ++ body)) ++ rest =
      named :: opening :: (parameterTokens ++ closing :: (returned ++ ending :: more)) := by
    rw [← follows]
    simp
  rw [regrouped, readMethod, skipReference, unreferenced]
  simp only [Bool.false_eq_true, if_false, isName, if_true, parameterList, opened, read, returns,
    type, skipped, text, given]
  rfl

/-- A keyword is inert. -/
theorem keyword_isInert {text : Text} (listed : text ∈ keywords) : IsInert .name text := by
  have wellFormed : ∀ other ∈ keywords, isIdentifier other = true := by decide
  exact (isName_of_isIdentifier (wellFormed text listed)).isInert

/-- The words before a printed method are read as its modifiers. -/
theorem modifiers_read {scope : Scope} (modifiers : List { text : Text // text ∈ memberModifiers })
    (occurs : Occurs source (modifiers.map fun modifier => word modifier.val) found)
    (given : List Text) (rest : List Token) :
    readBody scope source given [] (found ++ rest) =
      readBody scope source (given ++ modifiers.map Subtype.val) [] rest := by
  induction modifiers generalizing found given with
  | nil => simp [occurs.nil]
  | cons modifier others inductionHypothesis =>
    obtain ⟨token, more, rfl, kind, text, onward⟩ := occurs.cons
    have listed := mem_keywords_of_mem_memberModifiers modifier.property
    have isName : token.kind = .name := kind
    have spelled : Text.lower token.text = modifier.val := by
      rw [text]
      exact lower_keyword listed
    have unclosed : token.isMark '}' = false := by
      rw [Token.isMark, text, beq_eq_false_iff_ne]
      exact (keyword_isInert listed).2 '}' (by decide)
    rw [List.cons_append, readBody]
    simp only [isName, unclosed, spelled, List.contains_iff_mem.mpr modifier.property]
    simp only [reduceCtorEq, if_false, if_true, true_and, Bool.false_eq_true]
    rw [inductionHypothesis onward]
    simp

/-- A printed method at the front of a body is read as declared. -/
theorem Method.readBody_eq (method : Method) (occurs : Occurs source method.chunks found)
    (rest : List Token) :
    readBody { space } source [] [] (found ++ rest) =
      (method.declared :: (readBody { space } source [] [] rest).1,
        (readBody { space } source [] [] rest).2) := by
  obtain ⟨before, others, rfl, modifiersOccur, behind⟩ := occurs.append
  obtain ⟨introducing, signature, rfl, kind, text, onward⟩ := behind.cons
  have isName : introducing.kind = .name := kind
  have spelled : Text.lower introducing.text = "function".toList := by
    rw [text]
    decide
  have unmarked : introducing.isMark '}' = false := by
    rw [Token.isMark, text]
    decide
  have other : memberModifiers.contains "function".toList = false := by decide
  have read := method.read space onward rest rfl
  rw [List.append_assoc, modifiers_read method.modifiers modifiersOccur, List.cons_append,
    readBody]
  simp only [isName, unmarked, spelled, other, read, List.nil_append]
  simp

/-- A printed body through its closing brace is read as its methods. -/
theorem methods_read (methods : List Method)
    (occurs : Occurs source (methods.flatMap Method.chunks) found) {closing : Token}
    (kind : closing.kind = .punctuation) (text : closing.text = ['}']) (rest : List Token) :
    readBody { space } source [] [] (found ++ closing :: rest) =
      (methods.map Method.declared, rest) := by
  induction methods generalizing found with
  | nil =>
    have closed : closing.isMark '}' = true := by
      rw [Token.isMark, text]
      decide
    rw [occurs.nil, List.nil_append, readBody]
    simp [kind, closed]
  | cons method others inductionHypothesis =>
    rw [List.flatMap_cons] at occurs
    obtain ⟨first, more, rfl, methodOccurs, onward⟩ := occurs.append
    rw [List.append_assoc, method.readBody_eq space methodOccurs, inductionHypothesis onward,
      List.map_cons]

/-- Segments start with a letter. -/
theorem Segments.exists_cons (segments : Segments) :
    ∃ c more, segments.text = c :: more ∧ (c == ClassName.separator) = false := by
  have wellFormed := segments.first.wellFormed
  cases name : segments.first.text with
  | nil => simp [name, isIdentifier] at wellFormed
  | cons c more =>
    rw [name, isIdentifier, Bool.and_eq_true] at wellFormed
    refine ⟨c, _, by rw [Segments.text, name, List.cons_append], ?_⟩
    rw [beq_eq_false_iff_ne]
    rintro rfl
    exact absurd wellFormed.1 (by decide)

/-- The full name of a class in a header where nothing is imported. -/
theorem Path.qualify_eq (path : Path) (space : Text) :
    Scope.qualify { space } path.text = path.full space := by
  obtain ⟨c, more, front, start⟩ := path.segments.exists_cons
  cases absolute : path.isAbsolute with
  | true =>
    have text : path.text = ClassName.separator :: path.segments.text := by
      simp [Path.text, absolute]
    have full : path.full space = path.segments.text := by simp [Path.full, absolute]
    rw [text, full, Scope.qualify, front]
    simp [List.dropWhile, start]
  | false =>
    have text : path.text = path.segments.text := by simp [Path.text, absolute]
    have full : path.full space = ClassName.below space path.segments.text := by
      simp [Path.full, absolute]
    have relative : path.segments.text.head? ≠ some ClassName.separator := by
      rw [front]
      simpa using start
    rw [text, full, Scope.qualify, if_neg relative]
    simp [Scope.expandAlias?, Keyed.find?]

/-- Adds names to the list that is being read. -/
def Header.listed (header : Header) (names : List Text) : Header :=
  match header.clause with
  | .none => header
  | .parents => { header with parents := header.parents ++ names }
  | .interfaces => { header with interfaces := header.interfaces ++ names }

/-- Adding no names changes nothing. -/
theorem Header.listed_nil (header : Header) : Header.listed header [] = header := by
  cases header with
  | mk clause parents interfaces => cases clause <;> simp [Header.listed]

/-- Names that are added one after the other are added together. -/
theorem Header.listed_listed (header : Header) (first second : List Text) :
    Header.listed (Header.listed header first) second = Header.listed header (first ++ second) := by
  cases header with
  | mk clause parents interfaces => cases clause <;> simp [Header.listed]

/-- A class name in a header is added to the list that is being read. -/
theorem Header.add_path (path : Path) {token : Token} (name : token.kind = .name)
    (written : token.text = path.text) (header : Header) :
    header.add { space } token = Header.listed header [path.full space] := by
  have free := path.free
  have unlike : ∀ other ∈ keywords, Text.lower token.text ≠ other := by
    rintro other listed same
    rw [← same, written] at listed
    exact free listed
  have uncoloned : token.isMark ':' = false := by
    rw [Token.isMark, written, beq_eq_false_iff_ne]
    intro same
    exact absurd (path.isName.forall_mem ':' (by simp [same])) (by decide)
  rw [Header.add, if_neg (unlike _ (by decide)), if_neg (unlike _ (by decide)), uncoloned, name]
  simp only [Bool.false_eq_true, if_false, if_true, written, path.qualify_eq]
  rfl

/-- A comma in a header changes nothing. -/
theorem Header.add_comma {token : Token} (punctuation : token.kind = .punctuation)
    (text : token.text = [',']) (scope : Scope) (header : Header) :
    header.add scope token = header := by
  have lowered : Text.lower token.text = [','] := by
    rw [text]
    decide
  have uncoloned : token.isMark ':' = false := by
    rw [Token.isMark, text]
    decide
  rw [Header.add, lowered, uncoloned, punctuation]
  simp

/-- A printed list of names in a header is added to the list that is being read. -/
theorem names_read (paths : List Path)
    (occurs : Occurs source (separated (mark ",") (paths.map fun path => [path.chunk])) found)
    (header : Header) :
    found.foldl (Header.add { space }) header =
      Header.listed header (paths.map (Path.full space)) := by
  induction paths generalizing found header with
  | nil => simp [occurs.nil, Header.listed_nil]
  | cons path others inductionHypothesis =>
    cases others with
    | nil =>
      rw [List.map_cons, List.map_nil, separated, List.intercalate_singleton] at occurs
      obtain ⟨token, rfl, kind, text⟩ := occurs.singleton
      exact Header.add_path space path kind text header
    | cons next more =>
      rw [List.map_cons, List.map_cons, separated, List.intercalate_cons_cons] at occurs
      obtain ⟨leading, later, rfl, front, back⟩ := occurs.append
      obtain ⟨token, commas, rfl, kind, text, between⟩ := front.cons
      obtain ⟨comma, rfl, commaKind, commaText⟩ := between.singleton
      rw [List.foldl_append, List.foldl_cons, List.foldl_cons, List.foldl_nil,
        Header.add_path space path kind text, Header.add_comma commaKind commaText,
        inductionHypothesis back, Header.listed_listed]
      rfl

/-- A printed list of names behind the word that opens it. -/
theorem clause_read (introduced : String) (paths : List Path) (clause : Clause)
    (opens : ∀ (token : Token) (header : Header), token.text = introduced.toList →
      header.add { space } token = { header with clause })
    (occurs : Occurs source (Heading.clause introduced paths) found) (header : Header) :
    ∃ last, found.foldl (Header.add { space }) header =
      { Header.listed { header with clause } (paths.map (Path.full space)) with
        clause := last } := by
  rw [Heading.clause] at occurs
  split at occurs
  · rename_i empty
    rw [occurs.nil, empty]
    refine ⟨header.clause, ?_⟩
    rw [List.map_nil, Header.listed_nil]
    rfl
  · obtain ⟨opening, names, rfl, -, text, onward⟩ := occurs.cons
    rw [List.foldl_cons, opens opening header text, names_read space paths onward]
    exact ⟨_, rfl⟩

/-- A printed header is read as its two lists of names. -/
theorem Heading.read (heading : Heading) (occurs : Occurs source heading.clauses found) :
    ∃ last, found.foldl (Header.add { space }) {} =
      { clause := last
        parents := heading.extended.map (Path.full space)
        interfaces := heading.implemented.map (Path.full space) } := by
  obtain ⟨first, second, rfl, extending, implementing⟩ := occurs.append
  obtain ⟨between, parents⟩ := clause_read space "extends" heading.extended .parents
    (by
      intro token header text
      rw [Header.add, text]
      rfl) extending {}
  obtain ⟨last, interfaces⟩ := clause_read space "implements" heading.implemented
    .interfaces
    (by
      intro token header text
      rw [Header.add, text]
      rfl) implementing (first.foldl (Header.add { space }) {})
  refine ⟨last, ?_⟩
  rw [List.foldl_append, interfaces, parents]
  simp [Header.listed]

/-- No brace opens before the body of a printed declaration. -/
theorem Heading.clauses_unbraced (heading : Heading)
    (occurs : Occurs source heading.clauses found) :
    ∀ token ∈ found, (!token.isMark '{') = true := by
  have clause : ∀ (introduced : String) (paths : List Path), introduced.toList ∈ keywords →
      ∀ chunk ∈ clause introduced paths,
        chunk.Each fun _ text => (!(text == ['{'])) = true := by
    intro introduced paths listed chunk member
    have unlike : ∀ {text : Text}, IsInert .name text → (!(text == ['{'])) = true := by
      intro text inert
      rw [beq_eq_false_iff_ne.mpr (inert.2 '{' (by decide))]
      rfl
    rw [Heading.clause] at member
    split at member
    · cases member
    rcases List.mem_cons.mp member with rfl | inside
    · exact Chunk.each_single.mpr (unlike (keyword_isInert listed))
    rcases mem_separated inside with rfl | ⟨part, written, place⟩
    · exact each_mark.mpr (by decide)
    · obtain ⟨path, -, rfl⟩ := List.mem_map.mp written
      rw [List.mem_singleton.mp place]
      exact Path.each_chunk.mpr (unlike path.isName.isInert)
  refine occurs.forall_mem (fun _ text => (!(text == ['{'])) = true) ?_
  exact List.forall_mem_append.mpr
    ⟨clause _ heading.extended (by decide), clause _ heading.implemented (by decide)⟩

/-- Whether a heading is that of an interface. -/
def Heading.isInterface : Heading → Bool
  | ofInterface _ => true
  | _ => false

/-- Whether a heading is that of an enumeration. -/
def Heading.isEnumeration : Heading → Bool
  | ofEnumeration _ => true
  | _ => false

/-- The word of an interface introduces interfaces only. -/
theorem Heading.decide_interface (heading : Heading) :
    decide (heading.word = "interface".toList) = heading.isInterface := by
  cases heading with
  | ofClass => exact (by decide : decide ("class".toList = "interface".toList) = false)
  | ofInterface => exact (by decide : decide ("interface".toList = "interface".toList) = true)
  | ofTrait => exact (by decide : decide ("trait".toList = "interface".toList) = false)
  | ofEnumeration => exact (by decide : decide ("enum".toList = "interface".toList) = false)

/-- The word of an enumeration introduces enumerations only. -/
theorem Heading.decide_enumeration (heading : Heading) :
    decide (heading.word = "enum".toList) = heading.isEnumeration := by
  cases heading with
  | ofClass => exact (by decide : decide ("class".toList = "enum".toList) = false)
  | ofInterface => exact (by decide : decide ("interface".toList = "enum".toList) = false)
  | ofTrait => exact (by decide : decide ("trait".toList = "enum".toList) = false)
  | ofEnumeration => exact (by decide : decide ("enum".toList = "enum".toList) = true)

/-- What a header and a body make, by the kind of the heading. -/
theorem Heading.declaration_eq (heading : Heading) (scope : Scope) (modifiers : List Text)
    (comment name : Text) (header : Header) (methods : List Source.Method) (file : Option Text) :
    declaration scope heading.word modifiers comment name header methods file =
      { name := ClassName.below scope.space name
        kind := bif heading.isEnumeration then "class".toList else heading.word
        scope, comment
        parent := bif heading.isInterface then none else header.parents.head?
        interfaces := bif heading.isInterface then header.parents else header.interfaces
        modifiers := bif heading.isEnumeration then modifiers ++ ["final".toList] else modifiers
        methods, file } := by
  rw [← heading.decide_interface, ← heading.decide_enumeration]
  simp only [declaration, Bool.cond_decide]

/-- The declaration that a printed header and body make. -/
theorem Declaration.declared_eq (declaration : Declaration) (file : Option Text) (last : Clause) :
    Source.declaration { space } declaration.heading.word
        (declaration.modifiers.map Subtype.val) [] declaration.name.text
        { clause := last
          parents := declaration.heading.extended.map (Path.full space)
          interfaces := declaration.heading.implemented.map (Path.full space) }
        (declaration.methods.map Method.declared) file =
      declaration.declared space file := by
  obtain ⟨modifiers, heading, name, methods⟩ := declaration
  have kind : (bif heading.isEnumeration then "class".toList else heading.word) =
      heading.kind := by
    cases heading <;> rfl
  have parent : (bif heading.isInterface then none
      else (heading.extended.map (Path.full space)).head?) =
      heading.parent.map (Path.full space) := by
    cases heading with
    | ofClass parent interfaces => cases parent <;> rfl
    | ofInterface | ofTrait | ofEnumeration => rfl
  have interfaces : (bif heading.isInterface then heading.extended.map (Path.full space)
      else heading.implemented.map (Path.full space)) =
      heading.interfaces.map (Path.full space) := by
    cases heading <;> rfl
  have added : (bif heading.isEnumeration then modifiers.map Subtype.val ++ ["final".toList]
      else modifiers.map Subtype.val) = modifiers.map Subtype.val ++ heading.modifiers := by
    cases heading <;> simp only [Heading.isEnumeration, Heading.modifiers, cond_false, cond_true,
      List.append_nil]
  rw [heading.declaration_eq, kind, parent, interfaces, added, Declaration.declared]

/-- A printed declaration is read as declared, behind the word that introduces it. -/
theorem Declaration.read (declaration : Declaration) (file : Option Text)
    (occurs : Occurs source (word declaration.name.text ::
      (declaration.heading.clauses ++
        mark "\x7b" :: (declaration.methods.flatMap Method.chunks ++ [mark "\x7d"]))) found)
    (rest : List Token) :
    readType { space } source file declaration.heading.word
        (declaration.modifiers.map Subtype.val) [] (found ++ rest) =
      (some (declaration.declared space file), rest) := by
  obtain ⟨named, others, rfl, kind, text, onward⟩ := occurs.cons
  obtain ⟨headed, behind, rfl, headingOccurs, tail⟩ := onward.append
  obtain ⟨opening, body, rfl, -, openingText, inside⟩ := tail.cons
  obtain ⟨methods, closed, rfl, methodsOccur, final⟩ := inside.append
  obtain ⟨closing, rfl, closingKind, closingText⟩ := final.singleton
  have isName : named.kind = .name := kind
  have opened : (!opening.isMark '{') = false := by
    rw [Token.isMark, openingText]
    decide
  have split := span_append (declaration.heading.clauses_unbraced headingOccurs) opened
    (methods ++ closing :: rest)
  obtain ⟨last, header⟩ := declaration.heading.read space headingOccurs
  have read := methods_read space declaration.methods methodsOccur closingKind
    closingText rest
  have regrouped : named :: (headed ++ opening :: (methods ++ [closing])) ++ rest =
      named :: (headed ++ opening :: (methods ++ closing :: rest)) := by simp
  rw [regrouped, readType]
  simp only [isName, if_true, split.1, List.drop_left, header, read, text,
    declaration.declared_eq]

end Docblock.Source.Printed
