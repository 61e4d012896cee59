import Docblock.Proofs.Source.Apart

/-!
# Reading printed parameters

A list of parameters is cut at its commas, those inside brackets apart. The
tokens of a parameter pass: they all go to one run, and what follows them is
read as if they were not there. For everything but default values this holds
because no bracket and no comma occurs; for default values it is an induction
on the value, in which the depth of the brackets grows by one for the items of a
list.
-/

namespace Docblock.Source.Printed

/-- The characters that end or enclose parts of a declaration. -/
def isStructural (c : Char) : Bool :=
  ['(', ')', '[', ']', '{', '}', ',', ';'].contains c

/-- A lexeme that ends and encloses nothing. -/
def IsInert (kind : Kind) (text : Text) : Prop :=
  kind ≠ .attributeOpening ∧ ∀ c, isStructural c = true → text ≠ [c]

/-- A text whose first character is not structural is inert. -/
theorem isInert_cons (kind : Kind) {c : Char} {rest : Text} (ordinary : kind ≠ .attributeOpening)
    (loose : isStructural c = false) : IsInert kind (c :: rest) := by
  refine ⟨ordinary, ?_⟩
  rintro d structural equal
  rw [(List.cons.inj equal).1, structural] at loose
  cases loose

/-- An identifier character is not structural. -/
theorem isStructural_of_isIdentifierChar {c : Char} (inside : isIdentifierChar c = true) :
    isStructural c = false := by
  have outside : ∀ d ∈ ['(', ')', '[', ']', '{', '}', ',', ';'],
      isIdentifierChar d = false := Text.forall_mem (by decide)
  rw [← Bool.not_eq_true]
  intro structural
  rw [outside c (List.contains_iff_mem.mp structural)] at inside
  cases inside

/-- A name is inert. -/
theorem IsName.isInert {text : Text} (isName : IsName text) : IsInert .name text := by
  obtain ⟨c, rest, front⟩ := List.exists_cons_of_ne_nil isName.ne_nil
  have loose : isStructural c = false := by
    rcases isName.forall_mem c (by simp [front]) with rfl | inside
    · decide
    · exact isStructural_of_isIdentifierChar inside
  rw [front]
  exact isInert_cons _ (by decide) loose

/-- Inert tokens, by their lexemes. -/
abbrev AllInert (found : List Token) : Prop := ∀ token ∈ found, IsInert token.kind token.text

/-- What holds of an operator or a bracket as a chunk. -/
theorem each_mark {property : Kind → Text → Prop} {text : String} :
    (mark text).Each property ↔ property .punctuation text.toList :=
  Chunk.each_single

/-- What holds of a class name as a chunk. -/
theorem Path.each_chunk {property : Kind → Text → Prop} {path : Path} :
    path.chunk.Each property ↔ property .name path.text :=
  Chunk.each_single

/-- An operator whose first character is not structural is inert. -/
theorem mark_isInert {text : String} (loose : text.toList.head?.any isStructural = false)
    (nonempty : text.toList ≠ []) : (mark text).Each IsInert := by
  obtain ⟨c, rest, front⟩ := List.exists_cons_of_ne_nil nonempty
  rw [each_mark, front]
  exact isInert_cons .punctuation (by decide) (by simpa [front] using loose)

/-- A class name is inert. -/
theorem Path.isInert (path : Path) : path.chunk.Each IsInert :=
  Path.each_chunk.mpr path.isName.isInert

/-- A number is inert. -/
theorem Number.isInert (number : Number) : number.chunk.Each IsInert := by
  refine number.forall_mem ?signs ?digits
  case signs =>
    have loose : ∀ c ∈ ['-', '+', '.'], isStructural c = false := Text.forall_mem (by decide)
    exact fun c listed => isInert_cons .other (by decide) (loose c listed)
  case digits =>
    intro digits
    have loose := isStructural_of_isIdentifierChar digits.isIdentifierChar_first
    exact isInert_cons .number (by decide) loose

/-- The chunks of a type are inert. -/
theorem TypeExpression.isInert (type : TypeExpression) :
    ∀ chunk ∈ type.chunks, chunk.Each IsInert :=
  type.forall_mem (mark_isInert (by decide) (by decide)) (mark_isInert (by decide) (by decide))
    Path.isInert

/-- A list is split in front of the first member outside of a class. -/
theorem span_append {α : Type} {p : α → Bool} {front : List α} {stop : α}
    (inside : ∀ member ∈ front, p member = true) (outside : p stop = false) (rest : List α) :
    (front ++ stop :: rest).takeWhile p = front ∧
      (front ++ stop :: rest).dropWhile p = stop :: rest := by
  constructor
  · rw [List.takeWhile_append_of_pos inside, List.takeWhile_cons, outside]
    simp
  · rw [List.dropWhile_append_of_pos inside, List.dropWhile_cons, outside]
    simp

/-- Tokens pass when they go to one run of a parameter list that is read at a depth
of brackets, whatever follows them. -/
def Passes (depth : Nat) (found : List Token) : Prop :=
  ∀ rest, parameterRuns depth (found ++ rest) = found.foldr consRun (parameterRuns depth rest)

/-- Parts that pass do so together. -/
theorem Passes.append {depth : Nat} {first second : List Token} (leading : Passes depth first)
    (trailing : Passes depth second) : Passes depth (first ++ second) := by
  intro rest
  rw [List.append_assoc, leading, trailing, List.foldr_append]

/-- Nothing passes. -/
theorem Passes.nil (depth : Nat) : Passes depth [] := fun _ => rfl

/-- A mark of one character is recognised by its text. -/
theorem isMark_eq {token : Token} {text : Text} (same : token.text = text) (c : Char) :
    token.isMark c = (text == [c]) := by
  rw [Token.isMark, same]

/-- An inert token is no structural mark. -/
theorem IsInert.isMark {token : Token} (inert : IsInert token.kind token.text) (c : Char)
    (structural : isStructural c = true) : token.isMark c = false :=
  beq_eq_false_iff_ne.mpr (inert.2 c structural)

/-- An inert token opens no bracket. -/
theorem IsInert.closerOf {token : Token} (inert : IsInert token.kind token.text) :
    closerOf token.text = none := by
  unfold Source.closerOf
  split
  · rename_i same
    exact absurd same (inert.2 '(' (by decide))
  · rename_i same
    exact absurd same (inert.2 '[' (by decide))
  · rename_i same
    exact absurd same (inert.2 '{' (by decide))
  · rfl

/-- An inert token passes. -/
theorem Passes.inert {depth : Nat} {found : List Token} (inert : AllInert found) :
    Passes depth found := by
  intro rest
  induction found with
  | nil => rfl
  | cons token others inductionHypothesis =>
    have first := inert token List.mem_cons_self
    have onward := inductionHypothesis fun other member =>
      inert other (List.mem_cons_of_mem _ member)
    rw [List.cons_append, parameterRuns]
    simp only [first.1, first.closerOf, first.isMark ')' (by decide),
      first.isMark ']' (by decide), first.isMark '}' (by decide),
      first.isMark ',' (by decide), onward]
    simp

/-- A comma inside brackets passes. -/
theorem Passes.comma {depth : Nat} {token : Token} (ordinary : token.kind ≠ .attributeOpening)
    (comma : token.text = [',']) : Passes (depth + 1) [token] := by
  intro rest
  rw [List.singleton_append, parameterRuns]
  simp [ordinary, isMark_eq comma, comma, closerOf]

/-- Brackets pass when what is inside them does. -/
theorem Passes.brackets {depth : Nat} {opening closing : Token} {inner : List Token}
    (ordinary : opening.kind ≠ .attributeOpening) (closed : closing.kind ≠ .attributeOpening)
    (opener : opening.text = ['[']) (closer : closing.text = [']'])
    (inside : Passes (depth + 1) inner) : Passes depth (opening :: (inner ++ [closing])) := by
  intro rest
  have ended : parameterRuns (depth + 1) (closing :: rest) =
      consRun closing (parameterRuns depth rest) := by
    rw [parameterRuns]
    simp [closed, isMark_eq closer, closer, closerOf]
  rw [List.cons_append, List.append_assoc, parameterRuns]
  simp only [ordinary, if_false, opener, closerOf, Option.isSome_some, if_true]
  rw [inside, List.singleton_append, ended]
  simp

mutual

/-- A default value passes. -/
theorem Literal.passes (literal : Literal) {source : Text} {found : List Token}
    (occurs : Occurs source literal.chunks found) (depth : Nat) : Passes depth found := by
  cases literal with
  | number value =>
    apply Passes.inert
    refine occurs.forall_mem IsInert ?_
    intro chunk member
    rw [Literal.chunks, List.mem_singleton] at member
    rw [member]
    exact value.isInert
  | quoted quotation =>
    apply Passes.inert
    refine occurs.forall_mem IsInert ?_
    intro chunk member
    rw [Literal.chunks, List.mem_singleton] at member
    rw [member]
    refine Chunk.each_single.mpr (isInert_cons .string (by decide) ?_)
    rcases quotation.isQuote with same | same <;> rw [same] <;> decide
  | named path =>
    apply Passes.inert
    refine occurs.forall_mem IsInert ?_
    intro chunk member
    rw [Literal.chunks, List.mem_singleton] at member
    rw [member]
    exact path.isInert
  | list items =>
    rw [Literal.chunks, List.cons_append] at occurs
    obtain ⟨opening, others, rfl, openingKind, openingText, onward⟩ := occurs.cons
    obtain ⟨inner, last, rfl, inside, ended⟩ := onward.append
    obtain ⟨closing, rfl, closingKind, closingText⟩ := ended.singleton
    refine Passes.brackets ?_ ?_ openingText closingText (Literal.parts_pass items inside depth)
    · rw [openingKind]
      decide
    · rw [closingKind]
      decide

/-- The items of a list pass at the depth inside its brackets. -/
theorem Literal.parts_pass (items : List Literal) {source : Text} {found : List Token}
    (occurs : Occurs source (separated (mark ",") (Literal.parts items)) found) (depth : Nat) :
    Passes (depth + 1) found := by
  match items with
  | [] =>
    rw [occurs.nil]
    exact Passes.nil _
  | [item] =>
    rw [separated, Literal.parts, Literal.parts, List.intercalate_singleton] at occurs
    exact Literal.passes item occurs (depth + 1)
  | item :: next :: rest =>
    rw [separated, Literal.parts, Literal.parts, List.intercalate_cons_cons] at occurs
    obtain ⟨leading, later, rfl, front, back⟩ := occurs.append
    obtain ⟨first, commas, rfl, itemOccurs, between⟩ := front.append
    obtain ⟨comma, rfl, kind, text⟩ := between.singleton
    have separator : Passes (depth + 1) [comma] := by
      refine Passes.comma ?_ text
      rw [kind]
      decide
    exact ((Literal.passes item itemOccurs (depth + 1)).append separator).append
      (Literal.parts_pass (next :: rest) back depth)

end

/-- A path expands to itself where nothing is imported. -/
theorem expandPath_unimported (space path : Text) : expandPath { space } path = path := by
  simp [expandPath, Scope.expandAlias?, Keyed.find?]

/-- The paths in a text expand to themselves where nothing is imported. -/
theorem expandPaths_unimported (space text : Text) : expandPaths { space } text = text := by
  induction text using expandPaths.induct with
  | case1 => rw [expandPaths]
  | case2 c rest width measured inductionHypothesis =>
    rw [expandPaths, measured]
    simp only
    rw [inductionHypothesis, expandPath_unimported, List.cons_append, List.take_append_drop]
  | case3 c rest unmeasured inductionHypothesis =>
    rw [expandPaths, unmeasured]
    simp only
    rw [inductionHypothesis]

/-- Joined visible texts without white space are the texts one after the other. -/
theorem filter_join {texts : List Text}
    (visible : ∀ text ∈ texts, ∀ c ∈ text, Text.isBlank c = false) :
    (Text.join [' '] texts).filter (!Text.isBlank ·) = texts.flatten := by
  induction texts with
  | nil => rfl
  | cons text rest inductionHypothesis =>
    have kept : text.filter (!Text.isBlank ·) = text := by
      rw [List.filter_eq_self]
      intro c member
      simp [visible text List.mem_cons_self c member]
    have onward := inductionHypothesis fun other member =>
      visible other (List.mem_cons_of_mem _ member)
    have blank : Text.isBlank ' ' = true := by decide
    cases rest with
    | nil => simp [Text.join, kept]
    | cons next others =>
      rw [Text.join, List.filter_append, List.filter_append, kept, onward]
      simp [blank]

/-- The chunks of a type are visible. -/
theorem TypeExpression.visible (type : TypeExpression) :
    ∀ chunk ∈ type.chunks, ∀ c ∈ chunk.text, Text.isBlank c = false := by
  refine type.forall_mem (Text.forall_mem (by decide)) (Text.forall_mem (by decide)) ?_
  intro path
  rw [Path.chunk, word, Chunk.text_single]
  exact path.isName.visible

/-- The type between two places of a printed file is read as written, without white
space; where nothing is written there is no type. -/
theorem declaredType?_printed (type : Option TypeExpression) {space source : Text}
    {found : List Token}
    (occurs : Occurs source ((type.map TypeExpression.chunks).getD []) found) :
    declaredType? { space } (slice source found) = type.map TypeExpression.text := by
  rw [occurs.slice_eq]
  cases type with
  | none => rfl
  | some type =>
    have visible : ∀ text ∈ type.chunks.map Chunk.text, ∀ c ∈ text, Text.isBlank c = false := by
      intro text member
      obtain ⟨chunk, listed, rfl⟩ := List.mem_map.mp member
      exact type.visible chunk listed
    have squeezed : (Text.join [' '] (type.chunks.map Chunk.text)).filter (!Text.isBlank ·) =
        type.text := by
      rw [filter_join visible, TypeExpression.text, List.flatMap_def]
    have nonempty : type.text ≠ [] := by
      have named := type.first.isName.ne_nil
      simp [TypeExpression.text, TypeExpression.chunks, Path.chunk, word, named]
    rw [declaredType?, Option.map_some, Option.getD_some, squeezed]
    simp only [nonempty, if_false, expandPaths_unimported, Option.map_some]

/-- The marks between a type and a variable are left out of the type. -/
theorem typeTokens_append {typed marked : List Token} (parameter : Parameter) {source : Text}
    (plain : ∀ token ∈ typed, token.text ≠ ['&'] ∧ token.text ≠ ['.', '.', '.'])
    (occurs : Occurs source parameter.marks marked) : typeTokens (typed ++ marked) = typed := by
  have kept : typed.filter (·.text != ['.', '.', '.']) = typed := by
    rw [List.filter_eq_self]
    intro token member
    simp [(plain token member).2]
  have unreferenced : typed.getLast?.any (·.isMark '&') = false := by
    cases last : typed.getLast? with
    | none => rfl
    | some token =>
      have text := (plain token (List.mem_of_getLast? last)).1
      simp [Token.isMark, text]
  have reference : ∀ token : Token, token.text = ['&'] →
      (token.text != ['.', '.', '.']) = true ∧ token.isMark '&' = true := by
    intro token text
    rw [Token.isMark, text]
    decide
  rw [Parameter.marks] at occurs
  cases referenced : parameter.isReference <;> cases repeated : parameter.isVariadic <;>
    simp only [referenced, repeated, if_true, Bool.false_eq_true, if_false, List.append_nil,
      List.nil_append, List.singleton_append] at occurs
  · rw [occurs.nil]
    simp [typeTokens, kept, unreferenced]
  · obtain ⟨dots, rfl, -, text⟩ := occurs.singleton
    have dropped : (dots.text != ['.', '.', '.']) = false := by
      rw [text]
      decide
    simp [typeTokens, kept, unreferenced, dropped]
  · obtain ⟨ampersand, rfl, -, text⟩ := occurs.singleton
    simp [typeTokens, kept, reference ampersand text]
  · obtain ⟨ampersand, others, rfl, -, text, onward⟩ := occurs.cons
    obtain ⟨dots, rfl, -, repeatedText⟩ := onward.singleton
    have dropped : (dots.text != ['.', '.', '.']) = false := by
      rw [repeatedText]
      decide
    simp [typeTokens, kept, reference ampersand text, dropped]

/-- A parameter passes. -/
theorem Parameter.passes (parameter : Parameter) {source : Text} {found : List Token}
    (occurs : Occurs source parameter.chunks found) : Passes 0 found := by
  obtain ⟨leading, others, rfl, before, behind⟩ := occurs.append
  obtain ⟨named, trailing, rfl, kind, text, onward⟩ := behind.cons
  have front : Passes 0 leading := by
    refine Passes.inert (before.forall_mem IsInert ?_)
    exact parameter.forall_mem_leading (mark_isInert (by decide) (by decide))
      (mark_isInert (by decide) (by decide)) Path.isInert
      (mark_isInert (by decide) (by decide)) (mark_isInert (by decide) (by decide))
  have middle : Passes 0 [named] := by
    apply Passes.inert
    intro token member
    rw [List.mem_singleton.mp member, kind, text]
    exact isInert_cons .variable (by decide) (by decide)
  have back : Passes 0 trailing := by
    rw [Parameter.trailing] at onward
    cases value : parameter.default with
    | none =>
      rw [value] at onward
      rw [onward.nil]
      exact Passes.nil 0
    | some literal =>
      rw [value] at onward
      obtain ⟨equals, valued, rfl, equalsKind, equalsText, rest⟩ := onward.cons
      have sign : Passes 0 [equals] := by
        apply Passes.inert
        intro token member
        rw [List.mem_singleton.mp member, equalsKind, equalsText]
        exact isInert_cons .punctuation (by decide) (by decide)
      exact sign.append (literal.passes rest 0)
  exact front.append (middle.append back)

/-- What stands behind the variable of a parameter is its default value. -/
theorem Parameter.default_read (parameter : Parameter) (source : Text) (trailing : List Token) :
    Occurs source parameter.trailing trailing →
    (match trailing with
      | [] => none
      | first :: value => if first.isMark '=' then some (slice source value) else none) =
      parameter.default.map Literal.text := by
  intro occurs
  rw [Parameter.trailing] at occurs
  cases value : parameter.default with
  | none =>
    rw [value] at occurs
    rw [occurs.nil]
    rfl
  | some literal =>
    rw [value] at occurs
    obtain ⟨equals, valued, rfl, -, text, onward⟩ := occurs.cons
    have sign : equals.isMark '=' = true := by
      rw [Token.isMark, text]
      decide
    simp only [sign, if_true, onward.slice_eq, Option.map_some, Literal.text]

/-- A name is neither an ampersand nor dots. -/
theorem IsName.ne_marks {text : Text} (isName : IsName text) :
    text ≠ ['&'] ∧ text ≠ ['.', '.', '.'] := by
  constructor
  · rintro rfl
    exact absurd (isName.forall_mem '&' (by simp)) (by decide)
  · rintro rfl
    exact absurd (isName.forall_mem '.' (by simp)) (by decide)

/-- A word of promotion is a keyword. -/
theorem mem_keywords_of_mem_promotionModifiers {text : Text}
    (listed : text ∈ promotionModifiers) : text ∈ keywords := by
  rw [keywords]
  exact List.mem_append_left _ (List.mem_append_right _ listed)

/-- The tokens of a printed parameter up to its variable are no words of promotion. -/
theorem Parameter.unpromoted (parameter : Parameter) {source : Text} {leading : List Token}
    (before : Occurs source
      ((parameter.type.map TypeExpression.chunks).getD [] ++ parameter.marks) leading) :
    ∀ token ∈ leading, promotionModifiers.contains (Text.lower token.text) = false := by
  refine before.forall_mem
    (fun _ text => promotionModifiers.contains (Text.lower text) = false) ?_
  refine parameter.forall_mem_leading (each_mark.mpr (by decide)) (each_mark.mpr (by decide)) ?_
    (each_mark.mpr (by decide)) (each_mark.mpr (by decide))
  intro path
  rw [Path.each_chunk, List.contains_eq_mem, decide_eq_false_iff_not]
  exact fun listed => path.free (mem_keywords_of_mem_promotionModifiers listed)

/-- A variable is no word of promotion. -/
theorem Identifier.unpromoted (name : Identifier) :
    promotionModifiers.contains (Text.lower ('$' :: name.text)) = false := by
  have undollared : ∀ word ∈ promotionModifiers, '$' ∉ word := by decide
  rw [List.contains_eq_mem, decide_eq_false_iff_not]
  intro listed
  exact undollared _ listed (mem_lowerFrom (by decide) (by decide) List.mem_cons_self [])

/-- The tokens of a printed parameter up to its variable are no variables. -/
theorem Parameter.invariable (parameter : Parameter) {source : Text} {leading : List Token}
    (before : Occurs source
      ((parameter.type.map TypeExpression.chunks).getD [] ++ parameter.marks) leading) :
    ∀ token ∈ leading, (!(token.kind == .variable)) = true := by
  refine before.forall_mem (fun kind _ => (!(kind == .variable)) = true) ?_
  exact parameter.forall_mem_leading (each_mark.mpr rfl) (each_mark.mpr rfl)
    (fun _ => Path.each_chunk.mpr rfl) (each_mark.mpr rfl) (each_mark.mpr rfl)

/-- The tokens of a printed type are neither ampersands nor dots. -/
theorem Parameter.type_ne_marks (parameter : Parameter) {source : Text} {typed : List Token}
    (occurs : Occurs source ((parameter.type.map TypeExpression.chunks).getD []) typed) :
    ∀ token ∈ typed, token.text ≠ ['&'] ∧ token.text ≠ ['.', '.', '.'] := by
  refine occurs.forall_mem (fun _ text => text ≠ ['&'] ∧ text ≠ ['.', '.', '.']) ?_
  cases parameter.type with
  | none =>
    intro chunk member
    cases member
  | some type =>
    exact type.forall_mem (each_mark.mpr (by decide)) (each_mark.mpr (by decide))
      fun path => Path.each_chunk.mpr path.isName.ne_marks

/-- A printed parameter is read as declared. -/
theorem Parameter.read (parameter : Parameter) (space : Text) {source : Text} {found : List Token}
    (occurs : Occurs source parameter.chunks found) :
    parameter? { space } source found = some parameter.declared := by
  obtain ⟨leading, others, rfl, before, behind⟩ := occurs.append
  obtain ⟨typed, marked, rfl, typeOccurs, marksOccur⟩ := before.append
  obtain ⟨named, trailing, rfl, kind, text, onward⟩ := behind.cons
  have isVariable : (!(named.kind == .variable)) = false := by
    rw [kind]
    rfl
  have bare : (typed ++ marked ++ named :: trailing).dropWhile
      (fun token => promotionModifiers.contains (Text.lower token.text)) =
      typed ++ marked ++ named :: trailing := by
    cases first : typed ++ marked with
    | nil =>
      refine List.dropWhile_cons_of_neg (ne_true_of_eq_false ?_)
      rw [text]
      exact parameter.name.unpromoted
    | cons token more =>
      have plain := parameter.unpromoted before token (by simp [first])
      exact List.dropWhile_cons_of_neg (ne_true_of_eq_false plain)
  have split := span_append (parameter.invariable before) isVariable trailing
  have plain := parameter.type_ne_marks typeOccurs
  rw [parameter?]
  simp only [bare, split.1, split.2, typeTokens_append parameter plain marksOccur,
    declaredType?_printed parameter.type typeOccurs, text]
  exact congrArg (fun default => some { parameter.declared with default })
    (parameter.default_read source trailing onward)

/-- Tokens in front of some runs belong to the first one. -/
theorem foldr_consRun (found run : List Token) (runs : List (List Token)) (rest : List Token) :
    found.foldr consRun (run :: runs, rest) = ((found ++ run) :: runs, rest) := by
  induction found with
  | nil => rfl
  | cons token others inductionHypothesis =>
    rw [List.foldr_cons, inductionHypothesis]
    rfl

/-- A closing parenthesis outside of brackets ends the runs. -/
theorem parameterRuns_closed {closing : Token} (ordinary : closing.kind ≠ .attributeOpening)
    (text : closing.text = [')']) (rest : List Token) :
    parameterRuns 0 (closing :: rest) = ([[]], rest) := by
  rw [parameterRuns]
  simp [ordinary, isMark_eq text, text, closerOf]

/-- A comma outside of brackets ends a run. -/
theorem parameterRuns_comma {comma : Token} (ordinary : comma.kind ≠ .attributeOpening)
    (text : comma.text = [',']) (rest : List Token) :
    parameterRuns 0 (comma :: rest) =
      ([] :: (parameterRuns 0 rest).1, (parameterRuns 0 rest).2) := by
  rw [parameterRuns]
  simp [ordinary, isMark_eq text, text, closerOf]

/-- A printed list of parameters through its closing parenthesis is read as declared,
and what follows it is left. -/
theorem parameters_read (space : Text) (declared : List Parameter) {source : Text}
    {found : List Token}
    (occurs : Occurs source (separated (mark ",") (declared.map Parameter.chunks)) found)
    {closing : Token} (ordinary : closing.kind ≠ .attributeOpening)
    (text : closing.text = [')']) (rest : List Token) :
    parameters { space } source (found ++ closing :: rest) =
      (declared.map Parameter.declared, rest) := by
  have ended := parameterRuns_closed ordinary text rest
  induction declared generalizing found with
  | nil =>
    rw [occurs.nil, List.nil_append, parameters, ended]
    rfl
  | cons first others inductionHypothesis =>
    cases others with
    | nil =>
      rw [List.map_cons, List.map_nil, separated, List.intercalate_singleton] at occurs
      rw [parameters, first.passes occurs, ended, foldr_consRun, List.append_nil]
      simp [first.read space occurs]
    | cons next more =>
      rw [List.map_cons, List.map_cons, separated, List.intercalate_cons_cons] at occurs
      obtain ⟨leading, later, rfl, front, back⟩ := occurs.append
      obtain ⟨run, commas, rfl, runOccurs, between⟩ := front.append
      obtain ⟨comma, rfl, kind, commaText⟩ := between.singleton
      have onward := inductionHypothesis back
      have plain : comma.kind ≠ .attributeOpening := by
        rw [kind]
        decide
      rw [parameters, Prod.mk.injEq] at onward
      rw [parameters, List.append_assoc, List.append_assoc, first.passes runOccurs,
        List.singleton_append, parameterRuns_comma plain commaText, foldr_consRun, List.append_nil,
        List.filterMap_cons_some (first.read space runOccurs), onward.1, onward.2, List.map_cons]
      rfl

end Docblock.Source.Printed
