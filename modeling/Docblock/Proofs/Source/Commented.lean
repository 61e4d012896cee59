import Docblock.Proofs.Source.Bodies
import Docblock.Proofs.Source.Parameters
import Docblock.Proofs.Source.Signatures

/-!
# Comments in front of parameters

Documentation comments are tokens, and a parameter list keeps them with the parameter that
they stand in front of. There a comment is taken for the start of the type: words that turn
a parameter into a property are dropped from the front of a parameter only, and the type is
cut out of the source from the first token that is left up to the variable.

So a comment in front of a parameter always changes its declared type, to a text that
starts with the comment, while names, default values and all other parameters stay as they
are. This is shown for every list and every place in it where a parameter starts. It does
not hold for other comments, which are no tokens.
-/

namespace Docblock.Source

section Types

variable {scope : Scope}

/-- White space at the ends of a text plays no part when white space is left out. -/
theorem filter_trim (text : Text) :
    (Text.trim text).filter (!Text.isBlank ·) = text.filter (!Text.isBlank ·) := by
  have front (text : Text) :
      (text.dropWhile Text.isBlank).filter (!Text.isBlank ·) = text.filter (!Text.isBlank ·) := by
    induction text with
    | nil => rfl
    | cons c rest inductionHypothesis =>
      by_cases blank : Text.isBlank c = true
      · rw [List.dropWhile_cons_of_pos blank, inductionHypothesis,
          List.filter_cons_of_neg (by simp [blank])]
      · rw [List.dropWhile_cons_of_neg blank]
  rw [Text.trim, Text.trimWhile, Text.dropEndWhile, List.filter_reverse, front,
    List.filter_reverse, List.reverse_reverse, front]

/-- A declared type is the same with white space at its ends. -/
theorem declaredType?_trim (written : Text) :
    declaredType? scope (Text.trim written) = declaredType? scope written := by
  simp only [declaredType?, filter_trim]

/-- Names are expanded apart in texts that no name goes on between. -/
theorem expandPaths_append (text : Text) {rest : Text} (stops : StopsName rest) :
    expandPaths scope (text ++ rest) = expandPaths scope text ++ expandPaths scope rest := by
  fun_induction expandPaths scope text with
  | case1 => rfl
  | case2 c more width measured inductionHypothesis =>
    have whole := pathLength_append_eq (c :: more) stops
    rw [measured, List.cons_append] at whole
    have inside := (pathLength_measures _ _ measured).2
    rw [List.length_cons] at inside
    rw [List.cons_append, expandPaths, whole]
    simp only
    rw [List.take_append_of_le_length (by omega), List.drop_append_of_le_length (by omega),
      inductionHypothesis, List.append_assoc]
  | case3 c more unmeasured inductionHypothesis =>
    have whole := pathLength_append_eq (c :: more) stops
    rw [unmeasured, List.cons_append] at whole
    rw [List.cons_append, expandPaths, whole]
    exact congrArg (c :: ·) inductionHypothesis

/-- A slash is no part of a name. -/
theorem stopsName_slash (rest : Text) : StopsName ('/' :: rest) :=
  stopsName_cons (by decide) rest

/-- A slash stays in front when names are expanded. -/
theorem expandPaths_slash (rest : Text) :
    expandPaths scope ('/' :: rest) = '/' :: expandPaths scope rest :=
  TypeName.expandPaths_append_of_forall ['/'] (Text.forall_mem (by decide)) rest

/-- Only a slash becomes a slash in front when names are expanded. -/
theorem eq_slash_of_expandPaths {text rest : Text}
    (expanded : expandPaths scope text = '/' :: rest) : ∃ more, text = '/' :: more := by
  cases text with
  | nil => simp [expandPaths] at expanded
  | cons c more =>
    cases measured : pathLength (c :: more) with
    | none =>
      rw [expandPaths, measured] at expanded
      exact ⟨more, by rw [(List.cons.inj expanded).1]⟩
    | some width =>
      have named : isNameChar c = true := by
        have positive := (pathLength_measures _ _ measured).1
        refine (isNameText_of_pathLength measured).1 c ?_
        obtain ⟨shorter, rfl⟩ := Nat.exists_eq_succ_of_ne_zero (Nat.ne_of_gt positive)
        exact List.mem_cons_self
      rw [expandPaths, measured] at expanded
      simp only [expandPath] at expanded
      split at expanded
      · rw [(List.cons.inj expanded).1] at named
        exact absurd named (by decide)
      · split at expanded
        · exact absurd (List.cons.inj expanded).1 (by decide)
        · rw [(List.cons.inj expanded).1] at named
          exact absurd named (by decide)

/-- A text that starts with a slash makes a difference in front of another one, also when
names are expanded. -/
theorem expandPaths_append_ne (front text : Text) :
    expandPaths scope ('/' :: front ++ text) ≠ expandPaths scope text := by
  intro same
  rw [List.cons_append, expandPaths_slash] at same
  obtain ⟨more, rfl⟩ := eq_slash_of_expandPaths same.symm
  rw [expandPaths_append front (stopsName_slash more)] at same
  have length := congrArg List.length same
  simp only [List.length_cons, List.length_append] at length
  omega

end Types

section Parameters

variable {scope : Scope} {source : Text} {doc : Token} {run : List Token}

/-- A documentation comment starts with a slash and ends with one. -/
theorem IsDocComment.slashes {comment : Text} (isDoc : IsDocComment comment) :
    ∃ inner, comment = '/' :: inner ++ ['/'] := by
  obtain ⟨rest, opened⟩ := isDoc.opens
  obtain ⟨none, ended⟩ := isDoc.ends.ends
  have behind := isDoc.ends.behind
  have width : (comment.drop (comment.length - 2)).length = 2 := by
    rw [List.length_drop]
    omega
  obtain rfl : none = [] := by
    have length := congrArg List.length ended
    simp only [List.length_append, List.length_cons, List.length_nil, width] at length
    exact List.length_eq_zero_iff.mp (by omega)
  have whole := List.take_append_drop (comment.length - 2) comment
  rw [← ended] at whole
  cases front : comment.take (comment.length - 2) with
  | nil =>
    have length := congrArg List.length front
    rw [List.length_take, List.length_nil] at length
    omega
  | cons c more =>
    rw [front, ← opened] at whole
    obtain ⟨rfl, -⟩ := List.cons.inj whole
    exact ⟨more ++ ['*'], by rw [← opened, ← whole]; simp⟩

/-- A token that is one mark is neither three dots nor the mark of a reference unless it is
that. -/
def Token.IsPlain (token : Token) : Prop := token.text ≠ ['.', '.', '.'] ∧ token.text ≠ ['&']

/-- Tokens that are neither dots nor marks of references stay in front of a type. -/
theorem typeTokens_append_plain {front : List Token} (plain : ∀ token ∈ front, token.IsPlain)
    (leading : List Token) : typeTokens (front ++ leading) = front ++ typeTokens leading := by
  have kept : front.filter (·.text != ['.', '.', '.']) = front := by
    rw [List.filter_eq_self]
    intro token member
    simp [(plain token member).1]
  have unreferenced : front.getLast?.any (·.isMark '&') = false := by
    cases last : front.getLast? with
    | none => rfl
    | some token => simp [Token.isMark, (plain token (List.mem_of_getLast? last)).2]
  simp only [typeTokens, List.filter_append, kept]
  generalize leading.filter (·.text != ['.', '.', '.']) = undotted
  rcases List.eq_nil_or_concat undotted with rfl | ⟨more, last, rfl⟩
  · simp [unreferenced]
  · rw [List.concat_eq_append, ← List.append_assoc, List.getLast?_concat, List.getLast?_concat,
      List.dropLast_concat, List.dropLast_concat]
    split <;> simp

/-- A text with a character that is small goes to no word without it. -/
theorem contains_lower_of_mem {words : List Text} {c : Char} {text : Text}
    (ascii : c.toNat < 128) (small : ('A' ≤ c && c ≤ 'Z') = false)
    (without : ∀ word ∈ words, c ∉ word) (member : c ∈ text) :
    words.contains (Text.lower text) = false := by
  rw [List.contains_eq_mem, decide_eq_false_iff_not]
  exact fun listed => without _ listed (Printed.mem_lowerFrom ascii small member [])

/-- The text between two offsets is cut in two at an offset between them. -/
theorem take_drop_append {start middle stop : Nat} (before : start ≤ middle)
    (behind : middle ≤ stop) (text : Text) :
    (text.drop start).take (stop - start) =
      (text.drop start).take (middle - start) ++ (text.drop middle).take (stop - middle) := by
  have width : stop - start = (middle - start) + (stop - middle) := by omega
  have place : start + (middle - start) = middle := by omega
  rw [width, List.take_add, List.drop_drop, place]

/-- A type that is cut out from a comment on is the text of the comment, what stands between,
and the type itself. -/
theorem declaredType?_slice_cons (cut : doc.IsCut source) (spans : doc.start ≤ doc.stop)
    {front typed : List Token}
    (behind : ∀ token ∈ front ++ typed, doc.stop ≤ token.start ∧ doc.stop ≤ token.stop) :
    ∃ between, declaredType? scope (slice source (doc :: (front ++ typed))) =
      declaredType? scope (doc.text ++ between ++ slice source typed) := by
  obtain ⟨last, ends⟩ : ∃ last, (doc :: (front ++ typed)).getLast? = some last :=
    ⟨_, List.getLast?_eq_some_getLast (List.cons_ne_nil _ _)⟩
  have reaches : doc.stop ≤ last.stop := by
    rcases List.mem_cons.mp (List.mem_of_getLast? ends) with rfl | later
    · exact Nat.le_refl _
    · exact (behind last later).2
  have whole : declaredType? scope (slice source (doc :: (front ++ typed))) =
      declaredType? scope (doc.text ++ (source.drop doc.stop).take (last.stop - doc.stop)) := by
    rw [slice, ends, List.head?_cons]
    simp only
    rw [declaredType?_trim, take_drop_append spans reaches, ← cut.text]
  cases starts : typed.head? with
  | none =>
    obtain rfl := List.head?_eq_none_iff.mp starts
    refine ⟨(source.drop doc.stop).take (last.stop - doc.stop), ?_⟩
    rw [whole, slice, List.head?_nil, List.append_nil]
  | some first =>
    have nonempty : typed ≠ [] := by
      rintro rfl
      cases starts
    have ending : typed.getLast? = some last := by
      rwa [← List.cons_append, List.getLast?_append_of_ne_nil _ nonempty] at ends
    have follows := (behind first (List.mem_append_right _ (List.mem_of_head? starts))).1
    have segment : slice source typed =
        Text.trim ((source.drop first.start).take (last.stop - first.start)) := by
      rw [slice, starts, ending]
    by_cases ordered : first.start ≤ last.stop
    · refine ⟨(source.drop doc.stop).take (first.start - doc.stop), ?_⟩
      rw [whole, take_drop_append follows ordered, segment]
      simp only [declaredType?, List.filter_append, filter_trim, List.append_assoc]
    · have nothing : last.stop - first.start = 0 := by omega
      refine ⟨(source.drop doc.stop).take (last.stop - doc.stop), ?_⟩
      have empty : slice source typed = [] := by
        rw [segment, nothing, List.take_zero]
        rfl
      rw [whole, empty, List.append_nil]

/-- A type that starts with a comment is declared, starts with what the comment declares, and
is not declared without the comment. -/
theorem declaredType?_commented {comment : Text} (isDoc : IsDocComment comment)
    (between written : Text) :
    ∃ front type, declaredType? scope comment = some front ∧ front <+: type ∧
      declaredType? scope (comment ++ between ++ written) = some type ∧
      declaredType? scope written ≠ some type := by
  obtain ⟨inner, rfl⟩ := isDoc.slashes
  have solid : Text.isBlank '/' = false := by decide
  let squeeze := fun text : Text => text.filter (!Text.isBlank ·)
  have squeezed : squeeze ('/' :: inner ++ ['/']) = '/' :: squeeze inner ++ ['/'] := by
    simp [squeeze, solid]
  have whole : squeeze ('/' :: inner ++ ['/'] ++ between ++ written) =
      '/' :: (squeeze inner ++ '/' :: squeeze between) ++ squeeze written := by
    simp [squeeze, solid]
  refine ⟨expandPaths scope ('/' :: squeeze inner ++ ['/']), expandPaths scope
    ('/' :: (squeeze inner ++ '/' :: squeeze between) ++ squeeze written), ?_, ?_, ?_, ?_⟩
  · rw [declaredType?, ← squeezed]
    simp [squeeze, solid]
  · have split (rest : Text) : expandPaths scope ('/' :: squeeze inner ++ '/' :: rest) =
        expandPaths scope ('/' :: squeeze inner) ++ '/' :: expandPaths scope rest := by
      rw [expandPaths_append _ (stopsName_slash rest), expandPaths_slash rest]
    have regrouped : '/' :: (squeeze inner ++ '/' :: squeeze between) ++ squeeze written =
        '/' :: squeeze inner ++ '/' :: (squeeze between ++ squeeze written) := by simp
    rw [regrouped, split, split]
    simp [expandPaths]
  · rw [declaredType?, ← whole]
    simp [squeeze, solid]
  · rw [declaredType?]
    split
    · simp
    · exact fun same => expandPaths_append_ne _ _ (Option.some.inj same).symm

/-- Whether a token turns a parameter into a property. -/
def Token.promotes (token : Token) : Bool :=
  promotionModifiers.contains (Text.lower token.text)

/-- Whether a token stands in front of the variable of a parameter. -/
def Token.leads (token : Token) : Bool := !(token.kind == .variable)

/-- The parameter of a type that the tokens from a variable on declare. -/
def namedParameter? (source : Text) (type : Option Text) : List Token → Option Parameter
  | [] => none
  | named :: trailing =>
    some {
      name := named.text
      type
      default :=
        match trailing with
        | [] => none
        | first :: value => if first.isMark '=' then some (slice source value) else none }

/-- A parameter has the type in front of its variable, and the rest behind it. -/
theorem parameter?_eq (run : List Token) :
    parameter? scope source run =
      let bare := run.dropWhile Token.promotes
      namedParameter? source
        (declaredType? scope (slice source (typeTokens (bare.takeWhile Token.leads))))
        (bare.dropWhile Token.leads) := by
  have leads : Token.leads = fun token => !(token.kind == .variable) := rfl
  have promotes : Token.promotes =
      fun token => promotionModifiers.contains (Text.lower token.text) := rfl
  simp only [parameter?, leads, promotes]
  cases (run.dropWhile fun token => promotionModifiers.contains (Text.lower token.text)).dropWhile
      fun token => !(token.kind == .variable) with
  | nil => rfl
  | cons named trailing => rfl

/-- Nothing but its type depends on the type of a parameter. -/
theorem namedParameter?_type (type other : Option Text) (tokens : List Token) :
    namedParameter? source other tokens =
        (namedParameter? source type tokens).map ({ · with type := other }) ∧
      ∀ parameter ∈ namedParameter? source type tokens, parameter.type = type := by
  cases tokens with
  | nil => simp [namedParameter?]
  | cons named trailing => simp [namedParameter?]

/-- A word of promotion among the tokens of a source is no variable, and is plain. -/
theorem Token.isPlain_of_promotes {token : Token} (promotes : token.promotes = true)
    (member : token ∈ tokens source) : token.leads = true ∧ token.IsPlain := by
  have without {c : Char} (ascii : c.toNat < 128) (small : ('A' ≤ c && c ≤ 'Z') = false)
      (plain : ∀ word ∈ promotionModifiers, c ∉ word) : c ∉ token.text := by
    intro inside
    rw [Token.promotes, contains_lower_of_mem ascii small plain inside] at promotes
    cases promotes
  refine ⟨?_, fun dots => ?_, fun reference => ?_⟩
  · have unnamed : token.kind ≠ .variable := fun named =>
      without (c := '$') (by decide) (by decide) (by decide)
        (List.mem_of_head? (head?_of_mem_tokens member named))
    simp [Token.leads, unnamed]
  · exact without (c := '.') (by decide) (by decide) (by decide) (by simp [dots])
  · exact without (c := '&') (by decide) (by decide) (by decide) (by simp [reference])

/-- A documentation comment is no word of promotion, no variable, and plain. -/
theorem Token.isPlain_of_doc (member : doc ∈ tokens source) (isDoc : doc.kind = .doc) :
    doc.promotes = false ∧ doc.leads = true ∧ doc.IsPlain := by
  obtain ⟨inner, text⟩ := ((isCut_of_mem_tokens member).isDocComment isDoc).slashes
  refine ⟨?_, by simp [Token.leads, isDoc], by simp [text], by simp [text]⟩
  exact contains_lower_of_mem (c := '/') (by decide) (by decide) (by decide) (by simp [text])

/-- With a comment in front the words of promotion go to the type, behind the comment. -/
theorem leading_commented (within : doc :: run ⊆ tokens source) (isDoc : doc.kind = .doc) :
    let words := run.takeWhile Token.promotes
    let bare := run.dropWhile Token.promotes
    (doc :: run).dropWhile Token.promotes = doc :: run ∧
      typeTokens ((doc :: run).takeWhile Token.leads) =
        doc :: (words ++ typeTokens (bare.takeWhile Token.leads)) ∧
      (doc :: run).dropWhile Token.leads = bare.dropWhile Token.leads := by
  intro words bare
  obtain ⟨known, others⟩ := List.cons_subset.mp within
  obtain ⟨kept, leads, plain⟩ := Token.isPlain_of_doc known isDoc
  have promoted : ∀ token ∈ words, token.leads = true ∧ token.IsPlain := by
    intro token member
    have promotes : token.promotes = true :=
      List.all_eq_true.mp (List.all_takeWhile (l := run)) token member
    exact Token.isPlain_of_promotes promotes (others ((List.takeWhile_prefix _).subset member))
  have split : doc :: run = (doc :: words) ++ bare := by
    rw [List.cons_append, List.takeWhile_append_dropWhile]
  have leading : ∀ token ∈ doc :: words, token.leads = true ∧ token.IsPlain :=
    List.forall_mem_cons.mpr ⟨⟨leads, plain⟩, promoted⟩
  refine ⟨List.dropWhile_cons_of_neg (ne_true_of_eq_false kept), ?_, ?_⟩
  · rw [split, List.takeWhile_append_of_pos fun token member => (leading token member).1,
      typeTokens_append_plain fun token member => (leading token member).2, List.cons_append]
  · rw [split, List.dropWhile_append_of_pos fun token member => (leading token member).1]

/-- With a comment in front a run of tokens declares the same parameter, but of a type that
starts with the comment, and so of another one. -/
theorem parameter?_commented (within : doc :: run ⊆ tokens source) (isDoc : doc.kind = .doc)
    (behind : ∀ token ∈ run, doc.stop ≤ token.start ∧ doc.stop ≤ token.stop) :
    ∃ comment type, declaredType? scope doc.text = some comment ∧ comment <+: type ∧
      parameter? scope source (doc :: run) =
        (parameter? scope source run).map ({ · with type := some type }) ∧
      ∀ parameter ∈ parameter? scope source run, parameter.type ≠ some type := by
  have known : doc ∈ tokens source := within List.mem_cons_self
  have isCut := isCut_of_mem_tokens known
  have spans := Nat.le_of_lt ((tokens_apart source).1 doc known).1
  obtain ⟨bare, typed, named⟩ := leading_commented within isDoc
  have inside : run.takeWhile Token.promotes ++
      typeTokens ((run.dropWhile Token.promotes).takeWhile Token.leads) ⊆ run := by
    refine List.append_subset.mpr ⟨(List.takeWhile_prefix _).subset, ?_⟩
    exact List.Subset.trans (typeTokens_subset _) (List.Subset.trans
      (List.takeWhile_prefix _).subset (List.dropWhile_suffix _).subset)
  obtain ⟨between, declared⟩ := @declaredType?_slice_cons scope source doc isCut spans _ _
    fun token member => behind token (inside member)
  obtain ⟨comment, type, own, starts, changed, differs⟩ :=
    @declaredType?_commented scope _ (isCut.isDocComment isDoc) between
      (slice source (typeTokens ((run.dropWhile Token.promotes).takeWhile Token.leads)))
  have types := @namedParameter?_type source (declaredType? scope
    (slice source (typeTokens ((run.dropWhile Token.promotes).takeWhile Token.leads)))) (some type)
    ((run.dropWhile Token.promotes).dropWhile Token.leads)
  refine ⟨comment, type, own, starts, ?_, ?_⟩
  · rw [parameter?_eq, parameter?_eq, bare]
    simp only
    rw [typed, named, declared, changed]
    exact types.1
  · intro parameter member
    rw [parameter?_eq] at member
    rw [types.2 parameter member]
    exact differs

end Parameters

section Runs

variable {scope : Scope} {source : Text} {doc : Token}

/-- The opening of an attribute group has two characters. -/
theorem text_of_attributeOpening {token : Token} (member : token ∈ tokens source)
    (group : token.kind = .attributeOpening) : token.text = ['#', '['] := by
  have isCut := isCut_of_mem_tokens member
  have measured := isCut.measured
  rw [group] at measured
  have applied : attributeLength _ = some _ :=
    rule_of_measure (by simp [rules]) (by decide) measured
  obtain ⟨mark, found, width⟩ := Option.map_eq_some_iff.mp applied
  obtain rfl := List.mem_singleton.mp (List.mem_of_find?_eq_some found)
  have stands := List.find?_some found
  obtain ⟨rest, opens⟩ := List.isPrefixOf_iff_prefix.mp stands
  rw [isCut.text, ← width, ← opens]
  rfl

/-- The tokens of a parameter list in front of a place where a parameter starts: none, or
balanced tokens and a comma. -/
inductive LeadsToParameter : List Token → Prop
  | first : LeadsToParameter []
  | next {front : List Token} {comma : Token} (balanced : IsBalanced front)
      (separates : comma.isMark ',' = true) : LeadsToParameter (front ++ [comma])

/-- What opens nothing is neither a bracket nor the opening of an attribute group. -/
theorem Token.closerOf_of_closer? {token : Token} (opens : token.closer? = none) :
    closerOf token.text = none ∧ token.kind ≠ .attributeOpening := by
  unfold Token.closer? at opens
  split at opens
  · cases opens
  · rename_i unbracketed
    split at opens
    · cases opens
    · exact ⟨unbracketed, by assumption⟩

/-- What is no closing bracket is none of the three marks. -/
theorem Token.isMark_closing {token : Token} (closes : token.text ∉ closingBrackets) :
    token.isMark ')' = false ∧ token.isMark ']' = false ∧ token.isMark '}' = false := by
  simpa [Token.isMark, closingBrackets] using closes

/-- A token that opens and closes nothing goes to the run before it, if it is no comma or
stands in brackets. -/
theorem parameterRuns_other {token : Token} {depth : Nat} (opens : token.closer? = none)
    (closes : token.text ∉ closingBrackets) (joins : token.isMark ',' = false ∨ depth ≠ 0)
    (rest : List Token) :
    parameterRuns depth (token :: rest) = consRun token (parameterRuns depth rest) := by
  obtain ⟨unbracketed, ordinary⟩ := Token.closerOf_of_closer? opens
  obtain ⟨parenthesis, bracket, brace⟩ := Token.isMark_closing closes
  have inside : (token.isMark ',' && decide (depth = 0)) = false := by
    rcases joins with other | deeper
    · rw [other, Bool.false_and]
    · rw [decide_eq_false deeper, Bool.and_false]
  rw [parameterRuns]
  simp only [ordinary, unbracketed, parenthesis, bracket, brace, inside, if_false,
    Option.isSome_none, Bool.or_self, Bool.false_eq_true]

/-- A bracket goes to the run before it, and what follows is read inside of it. -/
theorem parameterRuns_opening {token : Token} {closer : Text}
    (opens : closerOf token.text = some closer) (ordinary : token.kind ≠ .attributeOpening)
    (depth : Nat) (rest : List Token) :
    parameterRuns depth (token :: rest) = consRun token (parameterRuns (depth + 1) rest) := by
  rw [parameterRuns]
  simp only [ordinary, opens, if_false, Option.isSome_some, if_true]

/-- A bracket that is closed goes to the run before it. -/
theorem parameterRuns_closing {token : Token} {closer : Text} (closes : token.Closes closer)
    (bracket : closer ∈ closingBrackets) (depth : Nat) (rest : List Token) :
    parameterRuns (depth + 1) (token :: rest) = consRun token (parameterRuns depth rest) := by
  obtain ⟨unbracketed, ordinary⟩ := Token.closerOf_of_closer? closes.1
  have marked : (token.isMark ')' || token.isMark ']' || token.isMark '}') = true := by
    rw [← closes.2] at bracket
    simpa [Token.isMark, closingBrackets, or_assoc] using bracket
  rw [parameterRuns]
  simp [ordinary, unbracketed, marked]

/-- An attribute group is left out of a parameter list. -/
theorem parameterRuns_group {opening closing : Token} {inner : List Token}
    (opens : opening.kind = .attributeOpening) (enclosed : unclosed [[']']] inner = [[']']])
    (closes : closing.Closes [']']) (depth : Nat) (rest : List Token) :
    parameterRuns depth (opening :: (inner ++ closing :: rest)) = parameterRuns depth rest := by
  rw [parameterRuns, if_pos opens, skipAttribute, skipBalanced_enclosed enclosed closes,
    skipBalanced]

/-- What is closed again goes to one run if what is inside of it does; an attribute group is
left out. -/
theorem parameterRuns_nested {opening closing : Token} {closer : Text} {inner kept : List Token}
    {depth : Nat} (opens : opening.closer? = some closer) (closes : closing.Closes closer)
    (groups : opening.kind = .attributeOpening → closerOf opening.text = none)
    (balanced : IsBalanced inner) (within : kept ⊆ inner)
    (read : ∀ rest, parameterRuns (depth + 1) (inner ++ rest) =
      kept.foldr consRun (parameterRuns (depth + 1) rest)) :
    ∃ passed, passed ⊆ opening :: (inner ++ [closing]) ∧
      ∀ rest, parameterRuns depth (opening :: (inner ++ closing :: rest)) =
        passed.foldr consRun (parameterRuns depth rest) := by
  have bracketed := Token.closer?_mem opens
  by_cases group : opening.kind = .attributeOpening
  · have square : closer = [']'] := by
      simpa [Token.closer?, groups group, group] using opens.symm
    subst square
    exact ⟨[], List.nil_subset _,
      parameterRuns_group group (balanced.unclosed_eq bracketed []) closes depth⟩
  · have bracket : closerOf opening.text = some closer := by
      unfold Token.closer? at opens
      split at opens
      · rename_i found
        rw [found, opens]
      · rw [if_neg group] at opens
        cases opens
    refine ⟨opening :: (kept ++ [closing]), ?_, fun rest => ?_⟩
    · exact List.cons_subset_cons opening (List.append_subset.mpr
        ⟨List.subset_append_of_subset_left _ within, List.subset_append_right _ _⟩)
    · rw [parameterRuns_opening bracket group, read, parameterRuns_closing closes bracketed]
      simp only [List.foldr_cons, List.foldr_append, List.foldr_nil]

/-- Attribute groups are opened by tokens that are no brackets. -/
def OpensGroups (found : List Token) : Prop :=
  ∀ token ∈ found, token.kind = .attributeOpening → closerOf token.text = none

/-- Fewer tokens open groups as well. -/
theorem OpensGroups.mono {found fewer : List Token} (groups : OpensGroups found)
    (within : fewer ⊆ found) : OpensGroups fewer :=
  fun token member => groups token (within member)

/-- Among the tokens of a source attribute groups are opened by no brackets. -/
theorem opensGroups {found : List Token} (within : found ⊆ tokens source) : OpensGroups found := by
  intro token member group
  rw [text_of_attributeOpening (within member) group]
  rfl

/-- The parts of tokens that start with a group. -/
theorem nested_subset (opening closing : Token) (inner behind : List Token) :
    let whole := opening :: (inner ++ closing :: behind)
    inner ⊆ whole ∧ opening :: (inner ++ [closing]) ⊆ whole ∧ behind ⊆ whole := by
  refine ⟨?_, ?_, ?_⟩ <;> intro token member <;> simp at member ⊢ <;> tauto

/-- Balanced tokens inside brackets go to one run, attribute groups apart. -/
theorem IsBalanced.parameterRuns_inside {found : List Token} (balanced : IsBalanced found)
    (groups : OpensGroups found) (depth : Nat) :
    ∃ kept, kept ⊆ found ∧ ∀ rest, parameterRuns (depth + 1) (found ++ rest) =
      kept.foldr consRun (parameterRuns (depth + 1) rest) := by
  induction balanced generalizing depth with
  | nil => exact ⟨[], List.Subset.refl _, fun rest => rfl⟩
  | @other token behind opens closes _ inductionHypothesis =>
    obtain ⟨kept, within, read⟩ :=
      inductionHypothesis (groups.mono (List.subset_cons_self _ _)) depth
    refine ⟨token :: kept, List.cons_subset_cons token within, fun rest => ?_⟩
    rw [List.cons_append, parameterRuns_other opens closes (.inr (Nat.succ_ne_zero depth)), read,
      List.foldr_cons]
  | @group opening closing closer inner behind opens balanced closes _ inside outside =>
    obtain ⟨innerWithin, groupWithin, behindWithin⟩ := nested_subset opening closing inner behind
    obtain ⟨kept, within, read⟩ := inside (groups.mono innerWithin) (depth + 1)
    obtain ⟨passed, nested, readNested⟩ := parameterRuns_nested opens closes
      (groups opening List.mem_cons_self) balanced within read
    obtain ⟨keptBehind, withinBehind, readBehind⟩ := outside (groups.mono behindWithin) depth
    refine ⟨passed ++ keptBehind, ?_, fun rest => ?_⟩
    · exact List.append_subset.mpr ⟨List.Subset.trans nested groupWithin,
        List.Subset.trans withinBehind behindWithin⟩
    · rw [List.cons_append, List.append_assoc, List.cons_append, readNested, readBehind,
        List.foldr_append]

/-- Tokens in front of some runs make runs with them: they go to the first one. -/
theorem exists_runs_foldr {front behind : List Token} {runs : List (List Token)}
    (nonempty : runs ≠ []) {whole : List Token} (frontWithin : front ⊆ whole)
    (within : ∀ run ∈ runs, run ⊆ behind) (behindWithin : behind ⊆ whole) :
    ∃ more, more ≠ [] ∧ (∀ run ∈ more, run ⊆ whole) ∧
      ∀ others rest, front.foldr consRun (runs ++ others, rest) = (more ++ others, rest) := by
  obtain ⟨first, later, rfl⟩ := List.exists_cons_of_ne_nil nonempty
  obtain ⟨firstWithin, laterWithin⟩ := List.forall_mem_cons.mp within
  refine ⟨(front ++ first) :: later, List.cons_ne_nil _ _, ?_, fun others rest => ?_⟩
  · refine List.forall_mem_cons.mpr ⟨?_, fun run member => ?_⟩
    · exact List.append_subset.mpr ⟨frontWithin, List.Subset.trans firstWithin behindWithin⟩
    · exact List.Subset.trans (laterWithin run member) behindWithin
  · exact Printed.foldr_consRun front first (later ++ others) rest

/-- Balanced tokens and a comma are cut into runs that do not depend on what follows. -/
theorem IsBalanced.parameterRuns_comma {found : List Token} (balanced : IsBalanced found)
    (groups : OpensGroups found) {comma : Token} (ordinary : comma.kind ≠ .attributeOpening)
    (separates : comma.isMark ',' = true) :
    ∃ runs, runs ≠ [] ∧ (∀ run ∈ runs, run ⊆ found) ∧
      ∀ rest, parameterRuns 0 (found ++ comma :: rest) =
        (runs ++ (parameterRuns 0 rest).1, (parameterRuns 0 rest).2) := by
  have separated {token : Token} (plain : token.kind ≠ .attributeOpening)
      (mark : token.isMark ',' = true) (rest : List Token) :
      parameterRuns 0 (token :: rest) =
        ([] :: (parameterRuns 0 rest).1, (parameterRuns 0 rest).2) :=
    Printed.parameterRuns_comma plain (by simpa [Token.isMark] using mark) rest
  induction balanced with
  | nil => exact ⟨[[]], List.cons_ne_nil _ _, by simp, separated ordinary separates⟩
  | @other token behind opens closes _ inductionHypothesis =>
    have behindWithin := List.subset_cons_self token behind
    obtain ⟨runs, nonempty, within, read⟩ := inductionHypothesis (groups.mono behindWithin)
    by_cases mark : token.isMark ',' = true
    · refine ⟨[] :: runs, List.cons_ne_nil _ _, ?_, fun rest => ?_⟩
      · exact List.forall_mem_cons.mpr ⟨List.nil_subset _, fun run member =>
          List.Subset.trans (within run member) behindWithin⟩
      · rw [List.cons_append, separated (Token.closerOf_of_closer? opens).2 mark, read]
        rfl
    · obtain ⟨more, kept, inside, joined⟩ := exists_runs_foldr nonempty
        (List.cons_subset_cons token (List.nil_subset behind)) within behindWithin
      refine ⟨more, kept, inside, fun rest => ?_⟩
      rw [List.cons_append, parameterRuns_other opens closes (.inl (Bool.eq_false_iff.mpr mark)),
        read, ← joined]
      rfl
  | @group opening closing closer inner behind opens balanced closes _ _ outside =>
    obtain ⟨innerWithin, groupWithin, behindWithin⟩ := nested_subset opening closing inner behind
    obtain ⟨kept, within, read⟩ := balanced.parameterRuns_inside (groups.mono innerWithin) 0
    obtain ⟨passed, nested, readNested⟩ := parameterRuns_nested opens closes
      (groups opening List.mem_cons_self) balanced within read
    obtain ⟨runs, nonempty, runsWithin, readBehind⟩ := outside (groups.mono behindWithin)
    obtain ⟨more, keptMore, inside, joined⟩ := exists_runs_foldr nonempty
      (List.Subset.trans nested groupWithin) runsWithin behindWithin
    refine ⟨more, keptMore, inside, fun rest => ?_⟩
    rw [List.cons_append, List.append_assoc, List.cons_append, readNested, readBehind, joined]

/-- Some tokens in front of a parameter are cut into runs that do not depend on what
follows. -/
theorem LeadsToParameter.runs {front : List Token} (leads : LeadsToParameter front)
    (within : front ⊆ tokens source) :
    ∃ runs, (∀ run ∈ runs, run ⊆ front) ∧ ∀ rest, parameterRuns 0 (front ++ rest) =
      (runs ++ (parameterRuns 0 rest).1, (parameterRuns 0 rest).2) := by
  cases leads with
  | first => exact ⟨[], by simp, fun rest => rfl⟩
  | @next found comma balanced separates =>
    obtain ⟨foundWithin, commaWithin⟩ := List.append_subset.mp within
    have ordinary : comma.kind ≠ .attributeOpening := by
      intro group
      have text := text_of_attributeOpening (commaWithin List.mem_cons_self) group
      simp [Token.isMark, text] at separates
    obtain ⟨runs, -, inside, read⟩ := balanced.parameterRuns_comma
      (opensGroups foundWithin) ordinary separates
    refine ⟨runs, fun run member => ?_, fun rest => ?_⟩
    · exact List.Subset.trans (inside run member) (List.subset_append_left _ _)
    · rw [List.append_assoc]
      exact read rest

/-- There is always a run, which may be empty. -/
theorem parameterRuns_ne_nil (depth : Nat) (found : List Token) :
    (parameterRuns depth found).1 ≠ [] := by
  have extended (token : Token) (split : List (List Token) × List Token) :
      (consRun token split).1 ≠ [] := by
    unfold consRun
    split <;> simp
  fun_induction parameterRuns depth found with
  | case1 => simp
  | case2 _ _ _ _ inductionHypothesis => exact inductionHypothesis
  | case3 => exact extended _ _
  | case4 => simp
  | case5 => exact extended _ _
  | case6 => simp
  | case7 => exact extended _ _

/-- The parameter that starts where some tokens of a parameter list do; none if there is
none before the next comma or the end of the list. -/
def followingParameter? (scope : Scope) (source : Text) (left : List Token) : Option Parameter :=
  (parameterRuns 0 left).1.head?.bind (parameter? scope source)

/-- Tokens stop in front of those further back. -/
theorem places_beside {before behind : List Token} {token : Token}
    (whole : tokens source = before ++ token :: behind) :
    (∀ other ∈ before, other.stop ≤ token.start) ∧
      ∀ other ∈ behind, token.stop ≤ other.start ∧ token.stop ≤ other.stop := by
  obtain ⟨spans, apart⟩ := tokens_apart source
  rw [whole] at spans apart
  obtain ⟨-, ordered, earlier⟩ := List.pairwise_append.mp apart
  constructor
  · exact fun other member => earlier other member token List.mem_cons_self
  · intro other member
    have starts := (List.pairwise_cons.mp ordered).1 other member
    have span := (spans other (by simp [member])).1
    omega

/-- What the first member of a list gives comes first. -/
theorem filterMap_cons_toList {α β : Type} (f : α → Option β) (first : α) (rest : List α) :
    (first :: rest).filterMap f = (f first).toList ++ rest.filterMap f := by
  cases given : f first <;> simp [given]

/-- A documentation comment goes to the run that follows it. -/
theorem parameterRuns_doc (member : doc ∈ tokens source) (isDoc : doc.kind = .doc)
    (rest : List Token) :
    parameterRuns 0 (doc :: rest) = consRun doc (parameterRuns 0 rest) := by
  obtain ⟨inner, text⟩ := ((isCut_of_mem_tokens member).isDocComment isDoc).slashes
  refine parameterRuns_other ?_ ?_ (.inl ?_) rest
  · simp [Token.closer?, text, closerOf, isDoc]
  · simp [text, closingBrackets]
  · simp [Token.isMark, text]

/-- A comment in front of a parameter goes to its type, and leaves the other parameters and
what stands behind the list as they are. -/
theorem parameters_commented {other : Text} {shift : Nat → Nat} {front behind : List Token}
    (leads : LeadsToParameter front) (frontWithin : front ⊆ tokens source)
    (agreeFront : Agree source other id front) (agreeBehind : Agree source other shift behind)
    (within : doc :: behind.map (Token.moved shift) ⊆ tokens other) (isDoc : doc.kind = .doc)
    (follow : ∀ token ∈ behind.map (Token.moved shift),
      doc.stop ≤ token.start ∧ doc.stop ≤ token.stop) :
    let following := followingParameter? scope source behind
    let left := (parameters scope source (front ++ behind)).2
    ∃ earlier later comment type,
      declaredType? scope doc.text = some comment ∧ comment <+: type ∧
      parameters scope source (front ++ behind) =
        (earlier ++ following.toList ++ later, left) ∧
      parameters scope other (front ++ doc :: behind.map (Token.moved shift)) =
        (earlier ++ (following.map ({ · with type := some type })).toList ++ later,
          left.map (Token.moved shift)) ∧
      ∀ parameter ∈ following, parameter.type ≠ some type := by
  intro following left
  obtain ⟨runs, runsWithin, split⟩ := leads.runs frontWithin
  obtain ⟨run, others, listed⟩ := List.exists_cons_of_ne_nil (parameterRuns_ne_nil 0 behind)
  have moved := parameterRuns_splits 0 behind (Fork.stops_whole shift _)
  simp only [Fork.first_whole, Fork.second_whole] at moved
  have movedLeft := (Fork.leaves_whole.mp moved.leaves).2
  have movedRuns := moved.runs
  have runWithin := moved.within
  rw [listed, Fork.place_whole] at movedRuns
  rw [listed] at runWithin
  have movedWithin : run.map (Token.moved shift) ⊆ behind.map (Token.moved shift) :=
    List.map_subset _ (runWithin run List.mem_cons_self)
  have read (token : List Token) (member : token ∈ run :: others) :
      parameter? scope other (token.map (Token.moved shift)) = parameter? scope source token :=
    parameter?_moved (agreeBehind.mono (runWithin token member))
  obtain ⟨comment, type, declared, starts, changed, differs⟩ := @parameter?_commented scope other
    doc _ (List.Subset.trans (List.cons_subset_cons doc movedWithin) within) isDoc
    fun token member => follow token (movedWithin member)
  rw [read run List.mem_cons_self] at changed differs
  have first : following = parameter? scope source run := by
    simp only [following, followingParameter?, listed, List.head?_cons, Option.bind_some]
  refine ⟨runs.filterMap (parameter? scope source), others.filterMap (parameter? scope source),
    comment, type, declared, starts, ?_, ?_, first ▸ differs⟩
  · simp only [parameters, split, listed, first, left, List.filterMap_append, List.append_assoc,
      filterMap_cons_toList]
  · have known : doc ∈ tokens other := within List.mem_cons_self
    have sameEarlier : runs.filterMap (parameter? scope other) =
        runs.filterMap (parameter? scope source) := by
      refine List.filterMap_congr fun token member => ?_
      have kept : parameter? scope other (token.map (Token.moved id)) =
          parameter? scope source token :=
        parameter?_moved (agreeFront.mono (runsWithin token member))
      rwa [map_moved_id] at kept
    have sameLater : (others.map (List.map (Token.moved shift))).filterMap
        (parameter? scope other) = others.filterMap (parameter? scope source) := by
      rw [List.filterMap_map]
      exact List.filterMap_congr fun token member => read token (List.mem_cons_of_mem run member)
    simp only [parameters, split, parameterRuns_doc known isDoc, consRun, movedRuns,
      List.map_cons, List.filterMap_append, filterMap_cons_toList, sameEarlier, sameLater, changed,
      first, movedLeft, left, List.append_assoc]

end Runs

/-- **A comment in front of a parameter shows.** A documentation comment is put into a
parameter list where a parameter starts, and is a token there. Then

* the parameters are the same but for the one that follows the comment, and that one keeps its
  name and its default value;
* its declared type is another one: it starts with what the comment would declare by itself;
* so the parameters are the same only if none follows, as behind a last comma;
* what stands behind the list is the same. -/
theorem parameterList_commented {source inserted : Text} {before front after : List Token}
    {opening doc first : Token} (scope : Scope)
    (whole : tokens source = before ++ opening :: (front ++ first :: after))
    (opens : opening.isMark '(' = true) (leads : LeadsToParameter front)
    (isDoc : doc.kind = .doc) :
    let head := source.take first.start ++ inserted
    let shift := fun place => head.length + (place - first.start)
    let other := head ++ source.drop first.start
    tokens other =
      before ++ opening :: (front ++ doc :: (first :: after).map (Token.moved shift)) →
    let read := parameterList scope source (opening :: (front ++ first :: after))
    let commented := parameterList scope other
      (opening :: (front ++ doc :: (first :: after).map (Token.moved shift)))
    let following := followingParameter? scope source (first :: after)
    (∃ earlier later comment type,
      declaredType? scope doc.text = some comment ∧ comment <+: type ∧
      read.1 = earlier ++ following.toList ++ later ∧
      commented.1 = earlier ++ (following.map ({ · with type := some type })).toList ++ later ∧
      ∀ parameter ∈ following, parameter.type ≠ some type) ∧
    (commented.1 = read.1 ↔ following = none) ∧
    commented.1.map (fun parameter => (parameter.name, parameter.default)) =
      read.1.map (fun parameter => (parameter.name, parameter.default)) ∧
    commented.2 = read.2.map (Token.moved shift) := by
  intro head shift other given read commented following
  have ofSource : tokens source = (before ++ opening :: front) ++ first :: after := by
    rw [whole, List.append_assoc, List.cons_append]
  have ofOther : tokens other =
      (before ++ opening :: front) ++ doc :: (first :: after).map (Token.moved shift) := by
    rw [given, List.append_assoc, List.cons_append]
  obtain ⟨earlierPlaces, laterPlaces⟩ := places_beside ofSource
  have span := (tokens_apart source).1 first (by simp [whole])
  -- the text in front of the comment stays in place, and the text behind it is moved
  have agreeFront : Agree source other id front := by
    have kept : Agree source (source.take first.start ++ (inserted ++ source.drop first.start))
        id front :=
      agree_front (by omega) (fun token member => earlierPlaces token (by simp [member])) _
    rwa [← List.append_assoc] at kept
  have agreeBehind : Agree source other shift (first :: after) := by
    refine agree_back (fun token member => ?_) head
    rcases List.mem_cons.mp member with rfl | later
    · omega
    · have further := laterPlaces token later
      omega
  have changed := @parameters_commented scope source doc other shift front (first :: after) leads
    (by rw [whole]; intro token member; simp [member]) agreeFront agreeBehind
    (by rw [ofOther]; exact List.subset_append_right _ _) isDoc (places_beside ofOther).2
  obtain ⟨earlier, later, comment, type, declared, starts, same, shown, differs⟩ := changed
  have readEq : read = _ := (if_pos opens).trans same
  have commentedEq : commented = _ := (if_pos opens).trans shown
  rw [readEq, commentedEq]
  refine ⟨⟨earlier, later, comment, type, declared, starts, rfl, rfl, differs⟩, ?_, ?_, rfl⟩
  · change _ ↔ followingParameter? scope source (first :: after) = none
    cases next : followingParameter? scope source (first :: after) with
    | none => simp
    | some parameter =>
      have other := differs parameter next
      simp only [Option.map_some, Option.toList_some, reduceCtorEq, iff_false]
      intro equal
      rw [List.append_assoc, List.append_assoc] at equal
      have typed := congrArg Parameter.type (List.cons.inj (List.append_cancel_left equal)).1
      exact other typed.symm
  · cases followingParameter? scope source (first :: after) <;> simp

/-- A class with a method of two parameters, and a text in front of the second one. -/
def hoist (inserted : String) : Text :=
  ("class A \x7b function f(int $a, " ++ inserted ++
    "public C ...$c = [1, 2]) \x7b\x7d \x7d").toList

/-- The tokens from the parameter list of that method on. -/
def hoistList (inserted : String) : List Token := (tokens (hoist inserted)).drop 5

/-- The tokens of the list in front of the second parameter. -/
def hoistFront : List Token :=
  [⟨.name, "int".toList, 21, 24⟩, ⟨.variable, "$a".toList, 25, 27⟩] ++
    [⟨.punctuation, [','], 27, 28⟩]

/-- With a comment in front the second parameter is another one, while names and default
values are the same. -/
theorem hoist_commented :
    let read := (parameterList {} (hoist "") (hoistList "")).1
    let commented := (parameterList {} (hoist "/** C */ ") (hoistList "/** C */ ")).1
    LeadsToParameter hoistFront ∧ commented ≠ read ∧
      commented.map (fun parameter => (parameter.name, parameter.default)) =
        read.map (fun parameter => (parameter.name, parameter.default)) := by
  intro read commented
  have leads : LeadsToParameter hoistFront := .next (by decide) (by decide)
  have whole : tokens (hoist "") = (tokens (hoist "")).take 5 ++ ⟨.punctuation, ['('], 20, 21⟩ ::
      (hoistFront ++ ⟨.name, "public".toList, 29, 35⟩ :: (tokens (hoist "")).drop 10) := by
    decide +kernel
  have shows := @parameterList_commented (hoist "") "/** C */ ".toList _ hoistFront _ _
    ⟨.doc, "/** C */".toList, 29, 37⟩ _ {} whole (by decide) leads rfl (by decide +kernel)
  have text : (hoist "").take 29 ++ "/** C */ ".toList ++ (hoist "").drop 29 =
      hoist "/** C */ " := by decide +kernel
  have list : ⟨.punctuation, ['('], 20, 21⟩ :: (hoistFront ++ ⟨.name, "public".toList, 29, 35⟩ ::
      (tokens (hoist "")).drop 10) = hoistList "" := by decide +kernel
  have commentedList : ⟨.punctuation, ['('], 20, 21⟩ :: (hoistFront ++
      ⟨.doc, "/** C */".toList, 29, 37⟩ :: ((⟨.name, "public".toList, 29, 35⟩ : Token) ::
        (tokens (hoist "")).drop 10).map (Token.moved fun place =>
          ((hoist "").take 29 ++ "/** C */ ".toList).length + (place - 29))) =
      hoistList "/** C */ " := by decide +kernel
  rw [text, list, commentedList] at shows
  obtain ⟨-, same, kept, -⟩ := shows
  refine ⟨leads, fun equal => ?_, kept⟩
  have none := same.mp equal
  revert none
  decide +kernel

/-- A comment in front of a parameter changes its declared type: the type is cut out of the
source from the comment on. -/
theorem commentedParameter_differs :
    let parametersOf := fun inserted =>
      ((declarations (hoist inserted)).flatMap (·.methods)).flatMap (·.parameters)
    parametersOf "" = [⟨"$a".toList, some "int".toList, none⟩,
        ⟨"$c".toList, some "C".toList, some "[1, 2]".toList⟩] ∧
      parametersOf "/** C */ " = [⟨"$a".toList, some "int".toList, none⟩,
        ⟨"$c".toList, some "/**C*/publicC".toList, some "[1, 2]".toList⟩] := by
  decide +kernel

end Docblock.Source
