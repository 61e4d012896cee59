import Docblock.Proofs.Source.Layout
import Docblock.Proofs.Source.QualifiedNames
import Docblock.Proofs.Source.Scopes

/-!
# Three forms of class imports

Classes with a common start of their names can be imported by one statement with a group in
braces, by one statement with commas, or by one statement for each. Whichever form is
used, and however it is laid out, the reader comes out of it with the same imports: the full
name of each class is entered under its alias, or under its last segment. An import takes the
place of an earlier one of the same name.

Names may be of any script. A class without a namespace whose name is one of the words for
other imports is not covered, because the reader passes over it.
-/

namespace Docblock.Source

/-- A name with a separator is none of the words for other imports. -/
theorem isOtherImport_of_mem {name : Text} (separated : ClassName.separator ∈ name) :
    isOtherImport name = false := by
  have kept : ClassName.separator ∈ Text.lower name :=
    Printed.mem_lowerFrom (by decide) (by decide) separated []
  have differs (word : Text) (unseparated : ClassName.separator ∉ word) :
      (Text.lower name == word) = false := by
    rw [beq_eq_false_iff_ne]
    rintro same
    exact unseparated (same ▸ kept)
  simp only [isOtherImport, differs "function".toList (by decide),
    differs "const".toList (by decide), Bool.or_false]

/-- The import of a class: its name below a common start, which is not one of the words for
other imports, and an alias, if there is one. -/
structure ClassImport where
  name : QualifiedName
  renamed : Option Label
  free : isOtherImport name.first.text = false

namespace ClassImport

/-- The name under which the class is entered. -/
def entry (item : ClassImport) : Text := (item.renamed.getD item.name.last).text

/-- The words of an import whose class is written in some way. -/
def words (item : ClassImport) (written : Text) : List Text :=
  written :: item.renamed.elim [] fun label => ["as".toList, label.text]

/-- The name of a class is none of the words for other imports. -/
theorem isOtherImport_text (item : ClassImport) : isOtherImport item.name.text = false := by
  cases others : item.name.others with
  | nil => simpa [QualifiedName.text, others, Printed.segmented] using item.free
  | cons label rest =>
    exact isOtherImport_of_mem (by simp [QualifiedName.text, others, Printed.segmented])

/-- The words of an import enter its full name. -/
theorem importItem_words (item : ClassImport) (stem : QualifiedName) {start written : Text}
    (plain : isOtherImport written = false)
    (full : ClassName.trimSeparators
        (Text.dropEndWhile (· == ClassName.separator) start ++ ClassName.separator :: written) =
      (stem.below item.name).text) (known : Keyed Text) :
    importItem start known (item.words written) =
      Keyed.put item.entry (stem.below item.name).text known := by
  have lowered : Text.lower ['a', 's'] = ['a', 's'] := by decide
  have short := (stem.below item.name).getLast?_splitOn_text
  rw [QualifiedName.last_below] at short
  cases renamed : item.renamed with
  | none => simp [words, importItem, plain, full, short, entry, renamed]
  | some label => simp [words, importItem, plain, full, entry, renamed, lowered]

end ClassImport

/-- The imports after some classes below a common start were entered one after the other. -/
def entered (stem : QualifiedName) (imports : List ClassImport) (known : Keyed Text) :
    Keyed Text :=
  imports.foldl (fun known item => Keyed.put item.entry (stem.below item.name).text known) known

/-- What a name stands for after some classes were entered: the last of them that is entered
under it, or what it stood for before. -/
theorem find?_entered (stem : QualifiedName) (imports : List ClassImport) (known : Keyed Text)
    (name : Text) :
    Keyed.find? name (entered stem imports known) =
      ((imports.reverse.find? (·.entry == name)).map fun item =>
        (stem.below item.name).text).or (Keyed.find? name known) := by
  induction imports generalizing known with
  | nil => rfl
  | cons item rest inductionHypothesis =>
    rw [entered, List.foldl_cons, ← entered, inductionHypothesis, List.reverse_cons,
      List.find?_append, Option.map_or, Option.or_assoc]
    congr 1
    by_cases same : item.entry = name
    · simp [same, Keyed.find?_put_same]
    · rw [Keyed.find?_put_other _ _ _ _ (Ne.symm same)]
      simp [same]

/-- The part of a statement that is a name. -/
def namePart (text : Text) : Lexeme := ⟨.name, text⟩

/-- The part of a statement that is a mark. -/
def markPart (c : Char) : Lexeme := ⟨.punctuation, [c]⟩

/-- Words with commas between the items. -/
def commaParts (items : List (List Text)) : List Lexeme :=
  List.intercalate [markPart ','] (items.map (·.map namePart))

/-- A statement with a body behind the word that introduces imports. -/
def useStatement (body : List Lexeme) : List Lexeme :=
  namePart "use".toList :: (body ++ [markPart ';'])

/-- The body of an import statement with the common start before a group in braces. -/
def groupBody (stem : QualifiedName) (imports : List ClassImport) : List Lexeme :=
  namePart (stem.text ++ [ClassName.separator]) :: markPart '{' ::
    (commaParts (imports.map fun item => item.words item.name.text) ++ [markPart '}'])

/-- The body of an import statement with full names. -/
def listBody (stem : QualifiedName) (imports : List ClassImport) : List Lexeme :=
  commaParts (imports.map fun item => item.words (stem.below item.name).text)

/-- The forms in which some classes are imported: one statement with a group, one statement
with commas, and one statement for each. -/
inductive ImportForm
  | group | list | statements

/-- The parts of imports in a form. -/
def ImportForm.parts (stem : QualifiedName) (imports : List ClassImport) :
    ImportForm → List Lexeme
  | .group => useStatement (groupBody stem imports)
  | .list => useStatement (listBody stem imports)
  | .statements => imports.flatMap fun item => useStatement (listBody stem [item])

/-- Adds one part of an import statement. -/
def ImportList.addPart (list : ImportList) (part : Lexeme) : ImportList :=
  list.add ⟨part.kind, part.text, 0, 0⟩

/-- Where a token stands plays no part. -/
theorem ImportList.foldl_add (tokens : List Token) (list : ImportList) :
    tokens.foldl ImportList.add list =
      (tokens.map Token.lexeme).foldl ImportList.addPart list := by
  rw [List.foldl_map]
  rfl

/-- A body of an import statement reads as a change of the imports. -/
structure ReadsAs (body : List Lexeme) (change : Keyed Text → Keyed Text) : Prop where
  opened : ∃ first rest, body = first :: rest ∧ first.text ≠ ['('] ∧
    isOtherImport first.text = false
  unended : ∀ part ∈ body, part.text ≠ [';']
  entered : ∀ known, let list := body.foldl ImportList.addPart {}
    list.items.foldl (importItem list.stem) known = change known

/-- The tokens of a body and the semicolon behind it are read as the body reads. -/
theorem ReadsAs.readImports_eq {body : List Lexeme} {change : Keyed Text → Keyed Text}
    (reads : ReadsAs body change) {found : List Token} (parts : found.map Token.lexeme = body)
    {last : Token} (ended : last.text = [';']) (more : List Token) (known : Keyed Text) :
    readImports known (found ++ last :: more) = (change known, more) := by
  obtain ⟨first, rest, rfl, bracketless, plain⟩ := reads.opened
  obtain ⟨token, others, rfl, rfl, same⟩ := List.map_eq_cons_iff.mp parts
  have unended : ∀ other ∈ token :: others, (!other.isMark ';') = true := by
    intro other member
    have different := reads.unended other.lexeme (parts ▸ List.mem_map_of_mem member)
    simpa [Token.isMark, Token.lexeme] using different
  have statement : ((token :: others) ++ last :: more).takeWhile (!·.isMark ';') =
      token :: others := by
    rw [List.takeWhile_append_of_pos unended,
      List.takeWhile_cons_of_neg (by simp [Token.isMark, ended]), List.append_nil]
  have statementOpens : token.isMark '(' = false := by
    simpa [Token.isMark, Token.lexeme] using bracketless
  have other : isOtherImport token.text = false := plain
  have left : ((token :: others) ++ last :: more).drop ((token :: others).length + 1) = more := by
    rw [← List.drop_drop, List.drop_left]
    rfl
  have change := reads.entered known
  rw [← parts, ← ImportList.foldl_add] at change
  rw [List.cons_append] at statement left ⊢
  simp only [readImports, statementOpens, other, Bool.false_eq_true, if_false, statement, left,
    change]

/-- Words with characters of names only. -/
def AreNames (words : List Text) : Prop := ∀ word ∈ words, ∀ c ∈ word, isNameChar c = true

/-- The words of an import are names. -/
theorem ClassImport.areNames_words (item : ClassImport) (name : QualifiedName) :
    AreNames (item.words name.text) := by
  have path (other : QualifiedName) : ∀ c ∈ other.text, isNameChar c = true := by
    have named := (isNameText_of_nameLength other.nameLength_text).1
    rwa [List.take_length] at named
  intro word member
  rcases List.mem_cons.mp member with rfl | later
  · exact path name
  · cases renamed : item.renamed with
    | none => simp [renamed] at later
    | some label =>
      rw [renamed, Option.elim_some] at later
      rcases List.mem_pair.mp later with rfl | rfl
      · exact Text.forall_mem (by decide)
      · obtain ⟨-, -, -, -, words⟩ := label.exists_cons
        exact fun c inside => isNameChar_of_isWordChar (words c inside)

/-- A word with characters of names only is no mark. -/
theorem ne_singleton_of_isNameChar {word : Text} (named : ∀ c ∈ word, isNameChar c = true)
    {d : Char} (outside : isNameChar d = false) : word ≠ [d] := by
  rintro rfl
  rw [named d List.mem_cons_self] at outside
  cases outside

/-- Names go to the item that is being read. -/
theorem ImportList.foldl_names {words : List Text} (named : AreNames words) (list : ImportList) :
    (words.map namePart).foldl ImportList.addPart list =
      { list with current := list.current ++ words } := by
  induction words generalizing list with
  | nil => simp
  | cons word rest inductionHypothesis =>
    have first := named word List.mem_cons_self
    have opening : (word == ['{']) = false :=
      beq_eq_false_iff_ne.mpr (ne_singleton_of_isNameChar first (by decide +kernel))
    have comma : (word == [',']) = false :=
      beq_eq_false_iff_ne.mpr (ne_singleton_of_isNameChar first (by decide +kernel))
    have added : list.addPart (namePart word) =
        { list with current := list.current ++ [word] } := by
      simp [ImportList.addPart, ImportList.add, namePart, Token.isMark, opening, comma]
    rw [List.map_cons, List.foldl_cons, added,
      inductionHypothesis fun other member => named other (List.mem_cons_of_mem word member)]
    simp

/-- A comma stands between the first item and the others. -/
theorem commaParts_cons_cons (first next : List Text) (rest : List (List Text)) :
    commaParts (first :: next :: rest) =
      first.map namePart ++ markPart ',' :: commaParts (next :: rest) := by
  simp [commaParts, List.intercalate_cons_cons]

/-- Words with commas between the items are read as these items. -/
theorem ImportList.foldl_commaParts {items : List (List Text)} (nonempty : items ≠ [])
    (named : ∀ item ∈ items, AreNames item) {list : ImportList} (fresh : list.current = []) :
    ((commaParts items).foldl ImportList.addPart list).stem = list.stem ∧
      ((commaParts items).foldl ImportList.addPart list).items = list.done ++ items := by
  induction items generalizing list with
  | nil => exact absurd rfl nonempty
  | cons first rest inductionHypothesis =>
    have read := ImportList.foldl_names (named first List.mem_cons_self) list
    rw [fresh, List.nil_append] at read
    cases rest with
    | nil =>
      have alone : commaParts [first] = first.map namePart := by simp [commaParts]
      rw [alone, read]
      exact ⟨rfl, rfl⟩
    | cons next others =>
      have onward := @inductionHypothesis (List.cons_ne_nil next others)
        (fun item member => named item (List.mem_cons_of_mem first member))
        { list with done := list.done ++ [first], current := [] } rfl
      rw [commaParts_cons_cons, List.foldl_append, List.foldl_cons, read]
      refine ⟨onward.1, onward.2.trans ?_⟩
      simp

/-- The parts of words with commas between them. -/
theorem mem_commaParts {items : List (List Text)} {part : Lexeme}
    (member : part ∈ commaParts items) :
    part = markPart ',' ∨ ∃ item ∈ items, ∃ word ∈ item, part = namePart word := by
  induction items with
  | nil => cases member
  | cons first rest inductionHypothesis =>
    have own (listed : part ∈ first.map namePart) :
        ∃ item ∈ first :: rest, ∃ word ∈ item, part = namePart word := by
      obtain ⟨word, inside, rfl⟩ := List.mem_map.mp listed
      exact ⟨first, List.mem_cons_self, word, inside, rfl⟩
    cases rest with
    | nil =>
      have alone : commaParts [first] = first.map namePart := by simp [commaParts]
      exact .inr (own (alone ▸ member))
    | cons next others =>
      rw [commaParts_cons_cons, List.mem_append] at member
      rcases member with listed | later
      · exact .inr (own listed)
      · rcases List.mem_cons.mp later with comma | further
        · exact .inl comma
        · rcases inductionHypothesis further with comma | ⟨item, listed, found⟩
          · exact .inl comma
          · exact .inr ⟨item, List.mem_cons_of_mem first listed, found⟩

/-- No semicolon stands among names and commas. -/
theorem unended_commaParts {items : List (List Text)} (named : ∀ item ∈ items, AreNames item) :
    ∀ part ∈ commaParts items, part.text ≠ [';'] := by
  intro part member
  rcases mem_commaParts member with rfl | ⟨item, listed, word, inside, rfl⟩
  · simp [markPart]
  · exact ne_singleton_of_isNameChar (named item listed word inside) (by decide +kernel)

/-- Words with commas between the items start with the first word. -/
theorem exists_commaParts (word : Text) (words : List Text) (rest : List (List Text)) :
    ∃ more, commaParts ((word :: words) :: rest) = namePart word :: more := by
  cases rest with
  | nil => exact ⟨words.map namePart, by simp [commaParts]⟩
  | cons next others => exact ⟨_, commaParts_cons_cons (word :: words) next others⟩

section Forms

variable (stem : QualifiedName) {imports : List ClassImport} (nonempty : imports ≠ [])

include nonempty

/-- One statement with full names enters the classes. -/
theorem readsAs_listBody : ReadsAs (listBody stem imports) (entered stem imports) := by
  have named : ∀ item ∈ imports.map fun item => item.words (stem.below item.name).text,
      AreNames item := by
    intro words listed
    obtain ⟨item, -, rfl⟩ := List.mem_map.mp listed
    exact item.areNames_words _
  have plain (item : ClassImport) : isOtherImport (stem.below item.name).text = false :=
    isOtherImport_of_mem (by simp [QualifiedName.text_below])
  refine ⟨?_, unended_commaParts named, fun known => ?_⟩
  · obtain ⟨item, rest, rfl⟩ := List.exists_cons_of_ne_nil nonempty
    obtain ⟨more, parts⟩ := exists_commaParts (stem.below item.name).text _
      (rest.map fun item => item.words (stem.below item.name).text)
    exact ⟨_, more, parts, ne_singleton_of_isNameChar
      (item.areNames_words (stem.below item.name) _ List.mem_cons_self) (by decide +kernel),
      plain item⟩
  · obtain ⟨start, items⟩ := @ImportList.foldl_commaParts _ (by simpa using nonempty) named {} rfl
    simp only [listBody, start, items]
    rw [List.nil_append, List.foldl_map, entered]
    congr 1
    funext known item
    exact @ClassImport.importItem_words item stem [] _ (plain item)
      (stem.below item.name).trimSeparators_cons known

/-- One statement with a group enters the classes. -/
theorem readsAs_groupBody : ReadsAs (groupBody stem imports) (entered stem imports) := by
  have named : ∀ item ∈ imports.map fun item => item.words item.name.text, AreNames item := by
    intro words listed
    obtain ⟨item, -, rfl⟩ := List.mem_map.mp listed
    exact item.areNames_words _
  have opening : ∀ c ∈ stem.text ++ [ClassName.separator], isNameChar c = true := by
    have whole := (isNameText_of_nameLength stem.nameLength_concat).1
    rwa [List.take_length] at whole
  refine ⟨⟨_, _, rfl, ne_singleton_of_isNameChar opening (by decide +kernel),
    isOtherImport_of_mem (by simp [namePart])⟩, ?_, fun known => ?_⟩
  · intro part member
    rcases List.mem_cons.mp member with rfl | later
    · exact ne_singleton_of_isNameChar opening (by decide +kernel)
    rcases List.mem_cons.mp later with rfl | later
    · simp [markPart]
    rcases List.mem_append.mp later with inside | last
    · exact unended_commaParts named part inside
    · rw [List.mem_singleton.mp last]
      simp [markPart]
  · have first := @ImportList.foldl_names [stem.text ++ [ClassName.separator]]
      (by simpa [AreNames] using opening) {}
    rw [List.map_singleton, List.foldl_cons, List.foldl_nil, List.nil_append] at first
    have braced : (ImportList.addPart { current := [stem.text ++ [ClassName.separator]] }
        (markPart '{')) = { stem := stem.text ++ [ClassName.separator] } := rfl
    have closed (list : ImportList) : list.addPart (markPart '}') = list := rfl
    obtain ⟨start, items⟩ := @ImportList.foldl_commaParts _ (by simpa using nonempty) named
      { stem := stem.text ++ [ClassName.separator] } rfl
    simp only [groupBody, List.foldl_cons, List.foldl_append, List.foldl_nil, first, braced, closed,
      start, items]
    rw [List.foldl_map, entered]
    congr 1
    funext known item
    refine item.importItem_words stem item.isOtherImport_text ?_ known
    rw [stem.dropEndWhile_concat, ← QualifiedName.text_below]
    exact (stem.below item.name).trimSeparators_text

end Forms

/-- A step at the word that introduces imports reads them and changes nothing else of the
scope. -/
theorem step_use (source : Text) (file : Option Text) (position : Position) {token : Token}
    (part : token.lexeme = namePart "use".toList) (rest : List Token) :
    (step source file position token rest).position.scope =
        { position.scope with imports := (readImports position.scope.imports rest).1 } ∧
      (step source file position token rest).left =
        (readImports position.scope.imports rest).2 := by
  have kind : token.kind = .name := congrArg Lexeme.kind part
  have text : token.text = "use".toList := congrArg Lexeme.text part
  have word : Text.lower token.text = "use".toList := by
    rw [text]
    decide
  have modifier : classModifiers.contains "use".toList = false := by decide
  have introducer : typeWords.contains "use".toList = false := by decide
  simp only [step, kind, word, modifier, introducer]
  exact ⟨rfl, rfl⟩

/-- Wherever a walk comes to an import statement, it goes on behind it with the imports that
the statement enters. -/
theorem Walks.useStatement {body : List Lexeme} {change : Keyed Text → Keyed Text}
    (reads : ReadsAs body change) {source : Text} {file : Option Text} {position : Position}
    {offset : Nat} {text behind : Text} (laid : IsLaidOut behind (useStatement body) text)
    (walks : Walks source file position (tokensAt offset (text ++ behind))) :
    ∃ further, Walks source file further (tokensAt (offset + text.length) behind) ∧
      further.scope = { position.scope with imports := change position.scope.imports } := by
  obtain ⟨found, same, parts⟩ := laid.tokensAt_eq offset
  obtain ⟨token, others, rfl, introduces, within⟩ := List.map_eq_cons_iff.mp parts
  obtain ⟨inside, closing, rfl, bodyParts, closes⟩ := List.map_eq_append_iff.mp within
  obtain ⟨last, rfl, ended⟩ := List.map_eq_singleton_iff.mp closes
  rw [same, List.cons_append, List.append_assoc, List.singleton_append] at walks
  have read := reads.readImports_eq bodyParts (congrArg Lexeme.text ended)
    (tokensAt (offset + text.length) behind) position.scope.imports
  obtain ⟨scope, left⟩ := step_use source file position introduces
    (inside ++ last :: tokensAt (offset + text.length) behind)
  rw [read] at scope left
  have onward := walks.step
  rw [left] at onward
  exact ⟨_, onward, scope⟩

/-- One statement for each import enters them one after the other. -/
theorem Walks.useStatements (stem : QualifiedName) {imports : List ClassImport} {source : Text}
    {file : Option Text} {position : Position} {offset : Nat} {text behind : Text}
    (laid : IsLaidOut behind (ImportForm.statements.parts stem imports) text)
    (walks : Walks source file position (tokensAt offset (text ++ behind))) :
    ∃ further, Walks source file further (tokensAt (offset + text.length) behind) ∧
      further.scope =
        { position.scope with imports := entered stem imports position.scope.imports } := by
  induction imports generalizing position offset text with
  | nil =>
    obtain rfl : text = [] := laid
    exact ⟨position, walks, rfl⟩
  | cons item rest inductionHypothesis =>
    obtain ⟨front, back, rfl, laidFront, laidBack⟩ := IsLaidOut.append laid
    rw [List.append_assoc] at walks
    obtain ⟨next, onward, scope⟩ :=
      walks.useStatement (readsAs_listBody stem (List.cons_ne_nil item [])) laidFront
    obtain ⟨further, reached, same⟩ := inductionHypothesis laidBack onward
    rw [Nat.add_assoc, ← List.length_append] at reached
    refine ⟨further, reached, ?_⟩
    rw [same, scope]
    rfl

/-- **Three forms, the same imports.** Let some classes be imported in one of the three forms,
laid out in any way. Wherever a walk comes to them, it goes on behind them, and all that has
changed of its scope are the imports: the classes were entered one after the other. So each
name stands for the last class that is entered under it, or for what it stood for before.
None of this depends on the form. -/
theorem Walks.importForms (form : ImportForm) (stem : QualifiedName) (imports : List ClassImport)
    (nonempty : imports ≠ []) {source : Text} {file : Option Text} {position : Position}
    {offset : Nat} {text behind : Text} (laid : IsLaidOut behind (form.parts stem imports) text)
    (walks : Walks source file position (tokensAt offset (text ++ behind))) :
    ∃ further, Walks source file further (tokensAt (offset + text.length) behind) ∧
      further.scope =
        { position.scope with imports := entered stem imports position.scope.imports } ∧
      ∀ name, Keyed.find? name further.scope.imports =
        ((imports.reverse.find? (·.entry == name)).map fun item =>
          stem.text ++ ClassName.separator :: item.name.text).or
            (Keyed.find? name position.scope.imports) := by
  obtain ⟨further, reached, scope⟩ : ∃ further,
      Walks source file further (tokensAt (offset + text.length) behind) ∧
      further.scope =
        { position.scope with imports := entered stem imports position.scope.imports } := by
    cases form with
    | group => exact walks.useStatement (readsAs_groupBody stem nonempty) laid
    | list => exact walks.useStatement (readsAs_listBody stem nonempty) laid
    | statements => exact walks.useStatements stem laid
  refine ⟨further, reached, scope, fun name => ?_⟩
  simp only [scope, find?_entered, QualifiedName.text_below]

/-- The common start of some imports. -/
def quay : QualifiedName where
  first := ⟨"Quay".toList, by decide +kernel⟩
  others := []

/-- Two classes that are entered under the same name, and one with an alias. -/
def quayImports : List ClassImport := [
  { name := ⟨⟨"Crane".toList, by decide +kernel⟩, []⟩, renamed := none, free := by decide +kernel },
  { name := ⟨⟨"Buoy".toList, by decide +kernel⟩, []⟩
    renamed := some ⟨"Float".toList, by decide +kernel⟩, free := by decide +kernel },
  { name := ⟨⟨"Heavy".toList, by decide +kernel⟩, [⟨"Crane".toList, by decide +kernel⟩]⟩
    renamed := none, free := by decide +kernel }]

/-- The imports in the three forms, each laid out in another way. -/
def quayText : ImportForm → Text
  | .group => " use Quay\\\x7b Crane, Buoy as Float,\n  Heavy\\Crane\x7d;".toList
  | .list => "\nuse Quay\\Crane, Quay\\Buoy as Float, Quay\\Heavy\\Crane ;".toList
  | .statements =>
    "\nuse Quay\\Crane;\nuse Quay\\Buoy as Float;use Quay\\Heavy\\Crane;".toList

/-- What stands behind the imports. -/
def quayEnd : Text := " class Dock extends Crane \x7b\x7d".toList

/-- A source with the imports in a form. -/
def quaySource (form : ImportForm) : Text := openingTag ++ (quayText form ++ quayEnd)

/-- Where the imports end. -/
def quayOffset (form : ImportForm) : Nat := openingTag.length + (quayText form).length

/-- The three forms are read to the same imports, and in all of them the later crane takes the
place of the earlier one. -/
theorem quay_importForms :
    quayImports ≠ [] ∧
    (IsLaidOut quayEnd (ImportForm.group.parts quay quayImports) (quayText .group) ∧
      IsLaidOut quayEnd (ImportForm.list.parts quay quayImports) (quayText .list) ∧
      IsLaidOut quayEnd (ImportForm.statements.parts quay quayImports) (quayText .statements)) ∧
    ∃ group list statements,
      Walks (quaySource .group) none group (tokensAt (quayOffset .group) quayEnd) ∧
      Walks (quaySource .list) none list (tokensAt (quayOffset .list) quayEnd) ∧
      Walks (quaySource .statements) none statements
        (tokensAt (quayOffset .statements) quayEnd) ∧
      group.scope = list.scope ∧ list.scope = statements.scope ∧
      statements.scope.imports =
        [("Crane".toList, "Quay\\Heavy\\Crane".toList), ("Float".toList, "Quay\\Buoy".toList)] := by
  have laid (form : ImportForm) :
      IsLaidOut quayEnd (form.parts quay quayImports) (quayText form) := by
    cases form <;> decide +kernel
  have ends (form : ImportForm) : ∃ further,
      Walks (quaySource form) none further (tokensAt (quayOffset form) quayEnd) ∧
      further.scope = { imports := entered quay quayImports [] } := by
    have begun : tokens (quaySource form) =
        tokensAt openingTag.length (quayText form ++ quayEnd) := by
      cases form <;> decide +kernel
    have walks := @Walks.start (quaySource form) none
    rw [begun] at walks
    obtain ⟨further, reached, scope, -⟩ :=
      walks.importForms form quay quayImports (List.cons_ne_nil _ _) (laid form)
    exact ⟨further, reached, scope⟩
  obtain ⟨group, groupWalks, groupScope⟩ := ends .group
  obtain ⟨list, listWalks, listScope⟩ := ends .list
  obtain ⟨statements, statementsWalks, statementsScope⟩ := ends .statements
  refine ⟨List.cons_ne_nil _ _, ⟨laid .group, laid .list, laid .statements⟩, group, list,
    statements, groupWalks, listWalks, statementsWalks, groupScope.trans listScope.symm,
    listScope.trans statementsScope.symm, ?_⟩
  rw [statementsScope]
  decide +kernel

end Docblock.Source
