import Docblock.Comment.Prose
import Docblock.Documented.Entity
import Docblock.Source.Declaration

/-!
# Which methods are documented, and how

The rules that turn the declaration of a method and its comment into its
documentation: which methods are kept, where each part of the documentation is
taken from, and how the words and types of an overridden method fill in what
the comment leaves open. Finding the overridden method is not part of it.
-/

namespace Docblock.Resolve

/-- Which methods are kept: those that have one of the listed modifiers, if any
are listed, and whose names are selected. -/
structure MemberFilter where
  modifiers : Option (List Text) := none
  selects : Text → Bool := fun _ => true

/-- The settings under which declarations become documentation. -/
structure Rules where
  filter : MemberFilter := {}
  builtIns : List Text := []
  guessesReturnTypes : Bool := true

/-- The words that say who may call a method, the widest first. -/
def visibilities : List Text := ["public", "protected", "private"].map String.toList

/-- The modifiers of a method: those declared, in lower case; the methods of an
interface are abstract, and a method without a visibility is public. -/
def memberModifiers (raw : Source.Declaration) (member : Source.Method) : List Text :=
  let declared := member.modifiers.map Text.lower
  let declared :=
    if raw.kind = "interface".toList then declared ++ ["abstract".toList] else declared
  if visibilities.any declared.contains then declared else declared ++ ["public".toList]

/-- Whether a filter keeps a method. -/
def MemberFilter.keeps (filter : MemberFilter) (name : Text) (modifiers : List Text) : Bool :=
  (match filter.modifiers with
    | none => true
    | some listed => modifiers.any listed.contains) &&
  filter.selects name

/-- The tags of a comment that stands in a declaration. -/
def tagsIn (rules : Rules) (raw : Source.Declaration) (comment : Text) : Comment.Tags :=
  Comment.tags rules.builtIns raw.scope comment

/-- The tags of a method that is documented; none if the filter or the comment
leaves it out. -/
def keptTags? (rules : Rules) (raw : Source.Declaration) (member : Source.Method) :
    Option Comment.Tags :=
  if rules.filter.keeps member.name (memberModifiers raw member) then
    let tags := tagsIn rules raw member.comment
    if Comment.isIgnored tags then none else some tags
  else none

/-- The words of a method, with gaps filled in from the overridden one. -/
def filledProse (own : Prose) (inherited : Option Documented.Method) : Prose :=
  match inherited with
  | none => own
  | some source =>
    { own with
      description := if own.description = [] then source.prose.description else own.description
      exampleCode := if own.exampleCode = [] then source.prose.exampleCode else own.exampleCode
      references := if own.references = [] then source.prose.references else own.references
      deprecation := own.deprecation.or source.prose.deprecation }

/-- The full form of a type declared in a scope. -/
def qualified (rules : Rules) (raw : Source.Declaration) (declared : Text) : Text :=
  TypeName.qualify rules.builtIns raw.scope declared

/-- A documented parameter, with the built-in class that its type names. -/
def parameterWith (rules : Rules) (name type description : Text) (default : Option Text) :
    Documented.Parameter :=
  { name, type, description, default, builtIn := TypeName.firstBuiltIn? rules.builtIns type }

/-- The documentation of a declared parameter. The comment counts first, then
the overridden method, then the declaration; a comment that leaves the type open
takes the declared one. -/
def documentParameter (rules : Rules) (raw : Source.Declaration)
    (documented : Keyed Comment.ParameterTag) (inherited : Option Documented.Method)
    (parameter : Source.Parameter) : Documented.Parameter :=
  let declared := (parameter.type.filter (· ≠ [])).map (qualified rules raw)
  let declared := declared.filter (· ≠ [])
  match Keyed.find? parameter.name documented with
  | some entry =>
    let type := if entry.type = "mixed".toList then declared.getD entry.type else entry.type
    parameterWith rules parameter.name type entry.description parameter.default
  | none =>
    let overridden := inherited.bind fun method =>
      method.parameters.reverse.find? (·.name == parameter.name)
    match overridden with
    | some source =>
      parameterWith rules parameter.name source.type source.description parameter.default
    | none =>
      parameterWith rules parameter.name (declared.getD "mixed".toList) [] parameter.default

/-- The parameters of a method: the declared ones, or those of the comment if
none are declared. -/
def documentParameters (rules : Rules) (raw : Source.Declaration) (member : Source.Method)
    (documented : Keyed Comment.ParameterTag) (inherited : Option Documented.Method) :
    List Documented.Parameter :=
  if member.parameters = [] then
    (Keyed.values documented).map fun entry =>
      parameterWith rules entry.name entry.type entry.description entry.default
  else member.parameters.map (documentParameter rules raw documented inherited)

/-- A text if it is given and not empty. -/
def given (text : Option Text) : Option Text := text.filter (· ≠ [])

/-- The return type of a method: that of the comment, of the overridden method,
of the declaration, or one guessed from the name. -/
def documentReturnType (rules : Rules) (raw : Source.Declaration) (member : Source.Method)
    (tags : Comment.Tags) (inherited : Option Documented.Method) : Option Text :=
  let documented := Comment.returnTypeOf tags
  if documented ≠ [] then some (qualified rules raw documented)
  else
    match given (inherited.bind (·.returnType)) with
    | some type => some type
    | none =>
      match given member.returnType with
      | some type => some (qualified rules raw type)
      | none =>
        if rules.guessesReturnTypes then some (Documented.guessedReturnType member.name)
        else none

/-- The documentation of a method, given its tags and the method it takes
inherited words from. -/
def documentMethod (rules : Rules) (raw : Source.Declaration) (member : Source.Method)
    (tags : Comment.Tags) (inherited : Option Documented.Method) : Documented.Method :=
  let modifiers := memberModifiers raw member
  let returnType := documentReturnType rules raw member tags inherited
  { name := member.name
    owner := raw.name
    prose := filledProse (Comment.prose tags) inherited
    parameters := documentParameters rules raw member (Comment.parametersOf tags) inherited
    returnType
    visibility := (visibilities.find? modifiers.contains).getD "public".toList
    isAbstract := modifiers.contains "abstract".toList
    isFinal := modifiers.contains "final".toList
    isStatic := modifiers.contains "static".toList
    returnsBuiltIn := ((returnType.bind (TypeName.firstBuiltIn? rules.builtIns)).isSome) }

/-- The documentation of a type with the given methods. -/
def documentType (rules : Rules) (raw : Source.Declaration) (methods : List Documented.Method) :
    Documented.Entity :=
  let tags := tagsIn rules raw raw.comment
  { name := raw.name
    kind := raw.kind
    parent := (given raw.parent).map ClassName.clean
    interfaces := raw.interfaces.map ClassName.clean
    prose := Comment.prose tags
    isAbstract := raw.modifiers.contains "abstract".toList
    isFinal := raw.modifiers.contains "final".toList
    isIgnored := Comment.isIgnored tags
    methods }

/-- The types in which an overridden method is looked for: the interfaces, then
the parent. -/
def ancestors (raw : Source.Declaration) : List Text :=
  raw.interfaces.map ClassName.clean ++
    (given ((given raw.parent).map ClassName.clean)).toList

/-- A parent that is looked up is one of the types in which overridden methods are
looked for. -/
theorem parent_mem_ancestors {raw : Source.Declaration} {parent : Text}
    (above : (given raw.parent).map ClassName.clean = some parent) (named : parent ≠ []) :
    parent ∈ ancestors raw := by
  refine List.mem_append_right _ ?_
  rw [above]
  simp [given, named]

end Docblock.Resolve
