import Docblock.Proofs.Links.Addresses
import Docblock.Proofs.Source.Scopes
import Docblock.Proofs.TypeName.Members

/-!
# Documented and declared types

The name of a class is resolved in three places: in the header of a declaration, in a
documented type, and in a declared type, whose imported names are expanded when it is read
and which is then treated like a documented one. In every scope that is read they agree on
identifiers that are neither pseudo types nor built-in classes. A documented type keeps a
built-in class even where an import gives its name to another class, so there, and only
there, it differs from the declared type.
-/

namespace Docblock
namespace TypeName

open Source (isNameChar StopsName IsFullName ImportsFullNames IsReadFrom expandPath expandPaths
  declaredType?)

section Classes

/-- A plain name is a class name unless it is listed among those that never are. -/
theorem isClass_eq_of_isPlain {name : Text} (isPlain : IsPlain name) :
    isClass name = !scalarNames.contains (Text.lower name) := by
  have trimmed : Text.trim name = name := Text.trim_eq_self fun c inside => isPlain.isBlank inside
  have simple : name.any isCompound = false := by
    rw [List.any_eq_false]
    intro c inside compound
    have other : ∀ d, isCompound d = true → isNameChar d = false ∧ d ≠ '$' := by
      intro d listed
      simp only [isCompound, Bool.or_eq_true, beq_iff_eq] at listed
      rcases listed with ((((((rfl | rfl) | rfl) | rfl) | rfl) | rfl) | rfl) | rfl <;> decide
    exact isPlain.notMem (other c compound).1 (other c compound).2 inside
  -- lower-casing makes no mark that was not there
  have unmarked {c : Char} (inside : c ∈ Text.lower name) : c ≠ '?' ∧ c ≠ '[' ∧ c ≠ ']' := by
    refine ⟨?_, ?_, ?_⟩ <;> rintro rfl <;>
      exact isPlain.notMem (by decide) (by decide)
        (Text.mem_of_mem_lower (by decide) (by decide) inside)
  have front : (Text.lower name).dropWhile (· == '?') = Text.lower name :=
    Text.dropWhile_eq_self fun c inside => beq_eq_false_iff_ne.mpr (unmarked inside).1
  have back : Text.dropEndWhile (fun c => c == '[' || c == ']') (Text.lower name) =
      Text.lower name :=
    Text.dropEndWhile_eq_self fun c inside => by simp [unmarked inside]
  simp [isClass, trimmed, simple, front, back, isPlain.1]

/-- A plain name has no marks to take off. -/
theorem bare_of_isPlain {name : Text} (isPlain : IsPlain name) : bare name = name := by
  have trimmed : Text.trim name = name := Text.trim_eq_self fun c inside => isPlain.isBlank inside
  have front : name.dropWhile (· == '?') = name := Text.dropWhile_eq_self fun c inside =>
    beq_eq_false_iff_ne.mpr fun same => isPlain.notMem (c := '?') (by decide) (by decide)
      (same ▸ inside)
  have unmarked : '[' ∉ name := isPlain.notMem (by decide) (by decide)
  rw [bare, trimmed, front]
  clear trimmed front isPlain
  induction name with
  | nil => rw [Text.replaceAll]
  | cons c rest inductionHypothesis =>
    rw [List.mem_cons, not_or] at unmarked
    have other : ¬ (arrayMark ≠ [] ∧ arrayMark.isPrefixOf (c :: rest) = true) := by
      simp [arrayMark, unmarked.1]
    rw [Text.replaceAll, if_neg other, inductionHypothesis unmarked.2]

/-- A built-in class among plain names. -/
theorem isBuiltIn_of_isPlain (builtIns : List Text) {name : Text} (isPlain : IsPlain name) :
    isBuiltIn builtIns name = (isClass name && builtIns.contains (ClassName.key name)) := by
  rw [isBuiltIn, bare_of_isPlain isPlain]

/-- A full name is plain. -/
theorem isPlain_of_isFullName {full : Text} (isFullName : IsFullName full) : IsPlain full := by
  obtain ⟨chars, c, more, rfl, -⟩ := isFullName
  exact ⟨List.cons_ne_nil c more, fun d inside => .inl (chars d inside)⟩

/-- A full name behind a separator is plain. -/
theorem isPlain_separator_cons {full : Text} (isFullName : IsFullName full) :
    IsPlain (ClassName.separator :: full) := by
  refine ⟨List.cons_ne_nil _ _, fun c inside => .inl ?_⟩
  rcases List.mem_cons.mp inside with rfl | own
  · decide
  · exact isFullName.1 c own

/-- A full name behind a separator is a class name. -/
theorem isClass_separator_cons {full : Text} (isFullName : IsFullName full) :
    isClass (ClassName.separator :: full) = true := by
  have unseparated : ∀ name ∈ scalarNames, ClassName.separator ∉ name := by decide
  rw [isClass_eq_of_isPlain (isPlain_separator_cons isFullName), Bool.not_eq_true',
    List.contains_eq_mem, decide_eq_false_iff_not]
  intro listed
  exact unseparated _ listed
    (Source.Printed.mem_lowerFrom (by decide) (by decide) List.mem_cons_self [])

/-- A full name behind a separator has itself as its full form. -/
theorem fullName_separator_cons (builtIns : List Text) (scope : Scope) {full : Text}
    (isFullName : IsFullName full) :
    fullName builtIns scope (ClassName.separator :: full) = full := by
  obtain ⟨c, more, rfl, other⟩ := isFullName.2
  rw [fullName, if_pos (isClass_separator_cons isFullName), qualifyName, if_pos List.head?_cons]
  simp [other]

/-- The pseudo type that is no identifier names no class. -/
theorem isClass_receiver : isClass receiver = false := by decide +kernel

/-- A class name among the names of types is a text of a name. -/
theorem IsTypeName.isNameText {name : Text} (isTypeName : IsTypeName name)
    (class? : isClass name = true) : Source.IsNameText name := by
  rcases isTypeName with isPath | rfl
  · exact isNameText_of_isPath isPath
  · rw [isClass_receiver] at class?
    cases class?

end Classes

section Expansion

variable {scope : Scope}

/-- An alias stands for a full name in front of further segments. -/
theorem isFullName_of_expandAlias? (imports : ImportsFullNames scope.imports) {name full : Text}
    (plain : ∀ c ∈ name, isNameChar c = true) (expanded : scope.expandAlias? name = some full) :
    IsFullName full := by
  obtain ⟨stem, found, rfl⟩ := Option.map_eq_some_iff.mp expanded
  have isFullName : IsFullName stem := imports _ (Keyed.mem_of_find? found)
  simp only
  split
  · exact isFullName
  · obtain ⟨chars, c, more, rfl, other⟩ := isFullName
    refine ⟨fun d inside => ?_, c, _, rfl, other⟩
    rcases List.mem_append.mp inside with own | behind
    · exact chars d own
    · rcases List.mem_cons.mp behind with rfl | further
      · decide
      · exact plain d ((List.dropWhile_sublist _).subset (List.mem_of_mem_drop further))

/-- A class name that is not full already is expanded to a full name if its first segment is
an alias, and any other name stays. -/
theorem expandPath_cases (imports : ImportsFullNames scope.imports) {name : Text}
    (isTypeName : IsTypeName name) :
    (isClass name = true ∧ name.head? ≠ some ClassName.separator ∧
      ∃ full, scope.expandAlias? name = some full ∧ IsFullName full ∧
        expandPath scope name = ClassName.separator :: full) ∨
    ((isClass name = true → name.head? ≠ some ClassName.separator →
        scope.expandAlias? name = none) ∧ expandPath scope name = name) := by
  rw [expandPath]
  cases class? : isClass name with
  | false => exact .inr ⟨nofun, rfl⟩
  | true =>
    by_cases rooted : name.head? = some ClassName.separator
    · exact .inr ⟨fun _ unrooted => absurd rooted unrooted, by simp [rooted]⟩
    · cases expanded : scope.expandAlias? name with
      | none => exact .inr ⟨fun _ _ => rfl, by simp⟩
      | some full =>
        have isFullName :=
          isFullName_of_expandAlias? imports (isTypeName.isNameText class?).1 expanded
        exact .inl ⟨rfl, rooted, full, rfl, isFullName, by simp [rooted]⟩

/-- Characters outside of names are not touched. -/
theorem expandPaths_append_of_forall (front : Text)
    (outside : ∀ c ∈ front, isNameChar c = false) (rest : Text) :
    expandPaths scope (front ++ rest) = front ++ expandPaths scope rest := by
  induction front with
  | nil => rfl
  | cons c more inductionHypothesis =>
    have stops : StopsName (c :: (more ++ rest)) :=
      Source.stopsName_cons (outside c List.mem_cons_self) _
    have unmeasured : Source.pathLength (c :: (more ++ rest)) = none :=
      Source.pathLength_append_eq [] stops
    rw [List.cons_append, expandPaths, unmeasured]
    exact congrArg (c :: ·) (inductionHypothesis fun d inside =>
      outside d (List.mem_cons_of_mem c inside))

/-- A path is expanded as a whole. -/
theorem expandPaths_append_of_isPath {name : Text}
    (isPath : Source.pathLength name = some name.length) {rest : Text} (stops : StopsName rest) :
    expandPaths scope (name ++ rest) = expandPath scope name ++ expandPaths scope rest := by
  have measured := Source.pathLength_append_eq name stops
  rw [isPath] at measured
  cases name with
  | nil => cases isPath
  | cons c more =>
    rw [List.cons_append] at measured ⊢
    rw [expandPaths, measured]
    simp

/-- Array marks are outside of names. -/
theorem isNameChar_of_mem_arrayMarks {depth : Nat} {c : Char} (inside : c ∈ arrayMarks depth) :
    isNameChar c = false := by
  obtain ⟨mark, listed, own⟩ := List.mem_flatten.mp inside
  rw [List.eq_of_mem_replicate listed] at own
  have outside : ∀ d ∈ arrayMark, isNameChar d = false := Text.forall_mem (by decide)
  exact outside c own

/-- A name stops in front of array marks. -/
theorem stopsName_arrayMarks_append (depth : Nat) {rest : Text} (stops : StopsName rest) :
    StopsName (arrayMarks depth ++ rest) := by
  cases marks : arrayMarks depth with
  | nil => exact stops
  | cons first others =>
    exact Source.stopsName_cons (isNameChar_of_mem_arrayMarks (marks ▸ List.mem_cons_self)) _

/-- The name of a type is expanded as a whole. -/
theorem expandPaths_append_of_isTypeName {name : Text} (isTypeName : IsTypeName name)
    (unimported : name = receiver → scope.expandAlias? "this".toList = none) {rest : Text}
    (stops : StopsName rest) :
    expandPaths scope (name ++ rest) = expandPath scope name ++ expandPaths scope rest := by
  rcases isTypeName with isPath | rfl
  · exact expandPaths_append_of_isPath isPath stops
  · have kept : expandPath scope receiver = receiver := by simp [expandPath, isClass_receiver]
    -- behind the dollar sign stands a path, which no import has as its alias
    have measured : Source.pathLength "this".toList = some "this".toList.length := by
      decide +kernel
    have inner : expandPath scope "this".toList = "this".toList := by
      rw [expandPath, unimported rfl]
      split <;> rfl
    rw [kept, receiver, List.cons_append, ← List.singleton_append,
      expandPaths_append_of_forall ['$'] (Text.forall_mem (by decide)),
      expandPaths_append_of_isPath measured stops, inner]
    rfl

/-- A member is expanded by its name alone. -/
theorem expandPaths_dress_append (member : Member)
    (unimported : member.name = receiver → scope.expandAlias? "this".toList = none) {rest : Text}
    (stops : StopsName rest) :
    expandPaths scope (member.dress member.name ++ rest) =
      member.dress (expandPath scope member.name) ++ expandPaths scope rest := by
  have named := expandPaths_append_of_isTypeName member.isTypeName unimported
    (stopsName_arrayMarks_append member.depth stops)
  rw [expandPaths_append_of_forall _ (fun c => isNameChar_of_mem_arrayMarks) rest] at named
  rw [Member.dress, Member.dress, List.append_assoc, List.append_assoc, List.append_assoc,
    List.append_assoc, ← named]
  cases member.isNullable with
  | true => exact expandPaths_append_of_forall ['?'] (Text.forall_mem (by decide)) _
  | false => rfl

/-- A union is expanded name by name. -/
theorem expandPaths_union {members : List Member}
    (unimported : ∀ member ∈ members, member.name = receiver →
      scope.expandAlias? "this".toList = none) :
    expandPaths scope (union members Member.name) =
      union members fun member => expandPath scope member.name := by
  induction members with
  | nil => rw [union, List.map_nil, Text.join, expandPaths]; rfl
  | cons first rest inductionHypothesis =>
    have onward := inductionHypothesis fun member later =>
      unimported member (List.mem_cons_of_mem first later)
    have own (behind : Text) (stops : StopsName behind) :=
      expandPaths_dress_append first (unimported first List.mem_cons_self) stops
    cases rest with
    | nil =>
      have alone := own [] Source.stopsName_nil
      rw [List.append_nil, expandPaths, List.append_nil] at alone
      exact alone
    | cons next more =>
      have step := own ('|' :: union (next :: more) Member.name)
        (Source.stopsName_cons (by decide) _)
      have between : expandPaths scope ('|' :: union (next :: more) Member.name) =
          '|' :: expandPaths scope (union (next :: more) Member.name) :=
        expandPaths_append_of_forall ['|'] (Text.forall_mem (by decide)) _
      rw [union_cons_cons, union_cons_cons, step, ← onward]
      exact congrArg _ between

/-- A declared union has its class paths expanded when it is read. -/
theorem declaredType?_union {members : List Member} (nonempty : members ≠ [])
    (unimported : ∀ member ∈ members, member.name = receiver →
      scope.expandAlias? "this".toList = none) :
    declaredType? scope (union members Member.name) =
      some (union members fun member => expandPath scope member.name) := by
  have squeezed : (union members Member.name).filter (!Text.isBlank ·) =
      union members Member.name := by
    rw [List.filter_eq_self]
    intro c inside
    simp [isBlank_union (fun member _ => member.isTypeName.isPlain) inside]
  have written : union members Member.name ≠ [] :=
    union_ne_nil nonempty fun member _ => member.isTypeName.isPlain
  simp only [declaredType?, squeezed, if_neg written, expandPaths_union unimported]

end Expansion

section Agreement

variable {scope : Scope}

/-- A built-in class whose name an import gives to another class. -/
def IsShadowed (builtIns : List Text) (scope : Scope) (name : Text) : Prop :=
  isBuiltIn builtIns name = true ∧ name.head? ≠ some ClassName.separator ∧
    ∃ full, scope.expandAlias? name = some full ∧ full ≠ name

/-- An expanded name is plain. -/
theorem isPlain_expandPath (imports : ImportsFullNames scope.imports) {name : Text}
    (isTypeName : IsTypeName name) : IsPlain (expandPath scope name) := by
  rcases expandPath_cases imports isTypeName with
    ⟨-, -, full, -, isFullName, rewritten⟩ | ⟨-, same⟩
  · rw [rewritten]
    exact isPlain_separator_cons isFullName
  · rw [same]
    exact isTypeName.isPlain

/-- The full form of a name is that of the expanded name, unless it is a built-in class that
an import shadows. -/
theorem fullName_expandPath (builtIns : List Text) (imports : ImportsFullNames scope.imports)
    {name : Text} (isTypeName : IsTypeName name)
    (unshadowed : ¬ IsShadowed builtIns scope name) :
    fullName builtIns scope (expandPath scope name) = fullName builtIns scope name := by
  rcases expandPath_cases imports isTypeName with
    ⟨class?, unrooted, full, expanded, isFullName, rewritten⟩ | ⟨-, same⟩
  · rw [rewritten, fullName_separator_cons builtIns scope isFullName, fullName, if_pos class?,
      qualifyName, if_neg unrooted]
    split
    · rename_i builtIn
      by_contra differs
      exact unshadowed ⟨builtIn, unrooted, full, expanded, differs⟩
    · rw [expanded]
  · rw [same]

/-- A shadowed built-in class keeps its name, and the expanded name has the imported one. -/
theorem fullName_of_isShadowed {builtIns : List Text} (imports : ImportsFullNames scope.imports)
    {name : Text} (isTypeName : IsTypeName name) (shadowed : IsShadowed builtIns scope name) :
    fullName builtIns scope name = name ∧ ∃ full, IsFullName full ∧ full ≠ name ∧
      fullName builtIns scope (expandPath scope name) = full := by
  obtain ⟨builtIn, unrooted, full, expanded, differs⟩ := shadowed
  have class? : isClass name = true := (Bool.and_eq_true_iff.mp builtIn).1
  constructor
  · rw [fullName, if_pos class?, qualifyName, if_neg unrooted, if_pos builtIn]
  · rcases expandPath_cases imports isTypeName with
      ⟨-, -, other, found, isFullName, rewritten⟩ | ⟨absent, -⟩
    · obtain rfl : other = full := Option.some.inj (found.symm.trans expanded)
      rw [rewritten, fullName_separator_cons builtIns scope isFullName]
      exact ⟨other, isFullName, differs, rfl⟩
    · rw [absent class? unrooted] at expanded
      cases expanded

/-- A name has the same full form when it is expanded first, if and only if it is no built-in
class that an import shadows. -/
theorem fullName_expandPath_iff (builtIns : List Text) (imports : ImportsFullNames scope.imports)
    {name : Text} (isTypeName : IsTypeName name) :
    fullName builtIns scope (expandPath scope name) = fullName builtIns scope name ↔
      ¬ IsShadowed builtIns scope name := by
  constructor
  · intro same shadowed
    obtain ⟨kept, full, -, differs, other⟩ := fullName_of_isShadowed imports isTypeName shadowed
    rw [kept, other] at same
    exact differs same
  · exact fullName_expandPath builtIns imports isTypeName

/-- A union has the same full form as a declared type and as a documented one, if and only if
no member is a built-in class that an import shadows. -/
theorem qualify_declaredType?_iff (builtIns : List Text)
    (imports : ImportsFullNames scope.imports) {members : List Member} (nonempty : members ≠ [])
    (unimported : ∀ member ∈ members, member.name = receiver →
      scope.expandAlias? "this".toList = none) :
    (declaredType? scope (union members Member.name)).map (qualify builtIns scope) =
        some (qualify builtIns scope (union members Member.name)) ↔
      ∀ member ∈ members, ¬ IsShadowed builtIns scope member.name := by
  rw [declaredType?_union nonempty unimported, Option.map_some, Option.some.injEq,
    qualify_union _ _ nonempty fun member _ => isPlain_expandPath imports member.isTypeName,
    qualify_union _ _ nonempty fun member _ => member.isTypeName.isPlain, union_eq_iff]
  · exact forall₂_congr fun member _ =>
      fullName_expandPath_iff builtIns imports member.isTypeName
  · intro member _ differs
    have shadowed := not_not.mp
      (mt (fullName_expandPath_iff builtIns imports member.isTypeName).mpr differs)
    obtain ⟨kept, full, isFullName, -, other⟩ :=
      fullName_of_isShadowed imports member.isTypeName shadowed
    rw [kept, other]
    exact ⟨isPlain_of_isFullName isFullName, member.isTypeName.isPlain⟩

/-- A source that imports a class under a name of its own, one under that of a built-in class,
and one under the word of a pseudo type. -/
def harbourSource : Text :=
  ("<?php namespace Acme; use Vendor\\Crane; use Vendor\\Exception; use Vendor\\this; " ++
    "class Dock \x7b\x7d").toList

/-- The scope of the class in that source. -/
def harbour : Scope where
  space := "Acme".toList
  imports := [("Crane".toList, "Vendor\\Crane".toList),
    ("Exception".toList, "Vendor\\Exception".toList), ("this".toList, "Vendor\\this".toList)]

/-- The scope is read from that source. -/
theorem harbour_isReadFrom : IsReadFrom harbourSource harbour := by
  have scopes : (Source.declarations harbourSource).map (·.scope) = [harbour] := by decide +kernel
  obtain ⟨dock, member, same⟩ := List.mem_map.mp (scopes ▸ List.mem_singleton_self harbour)
  rw [← same]
  exact Source.isReadFrom_of_mem_declarations member

/-- A setting with one built-in class. -/
def exceptions : List Text := ["Exception".toList]

/-- Nullable and with one array mark: `?Crane[]`. -/
def cranes : Member where
  isNullable := true
  name := "Crane".toList
  depth := 1
  isTypeName := .inl (by decide +kernel)

/-- A class that is not imported: `Ship`. -/
def ship : Member where
  name := "Ship".toList
  isTypeName := .inl (by decide +kernel)

/-- The built-in class by its full name: `\Exception`. -/
def failure : Member where
  name := "\\Exception".toList
  isTypeName := .inl (by decide +kernel)

/-- In every namespace and under all imports that are read, documented and declared unions
name the same classes, if and only if no member is a built-in class that an import shadows. -/
theorem declared_agrees_iff_unshadowed {source : Text} (read : IsReadFrom source scope)
    (space : Text) (builtIns : List Text) {members : List Member} (nonempty : members ≠ [])
    (unimported : ∀ member ∈ members, member.name = receiver →
      scope.expandAlias? "this".toList = none) :
    (declaredType? { scope with space } (union members Member.name)).map
        (qualify builtIns { scope with space }) =
        some (qualify builtIns { scope with space } (union members Member.name)) ↔
      ∀ member ∈ members, ¬ IsShadowed builtIns { scope with space } member.name :=
  @qualify_declaredType?_iff { scope with space } builtIns read.isTidy.imports _ nonempty unimported

/-- `Crane` is no built-in class and `\Exception` is full already, so their union names the same
classes in another namespace too, however it is resolved. -/
theorem yard_agrees_on_failures :
    (declaredType? { harbour with space := "Yard".toList }
        (union [cranes, failure] Member.name)).map
        (qualify (builtInKeys exceptions) { harbour with space := "Yard".toList }) =
      some (qualify (builtInKeys exceptions) { harbour with space := "Yard".toList }
        (union [cranes, failure] Member.name)) := by
  refine (declared_agrees_iff_unshadowed harbour_isReadFrom _ _ (by simp) ?_).mpr ?_
  · decide +kernel
  · rintro member listed ⟨builtIn, unrooted, -⟩
    rcases List.mem_pair.mp listed with rfl | rfl
    · exact absurd builtIn (by decide +kernel)
    · exact unrooted (by decide +kernel)

/-- Where an import gives the name `Exception` to another class, a declared type names that
class, and a documented type names the built-in one. Where an import has the alias `this`, a
declared type has it expanded behind the dollar sign of `$this`. -/
theorem harbour_declared_differs :
    IsReadFrom harbourSource harbour ∧
      (declaredType? harbour "Exception".toList).map
          (qualify (builtInKeys exceptions) harbour) ≠
        some (qualify (builtInKeys exceptions) harbour "Exception".toList) ∧
      (declaredType? harbour receiver).map (qualify (builtInKeys exceptions) harbour) ≠
        some (qualify (builtInKeys exceptions) harbour receiver) :=
  ⟨harbour_isReadFrom, by decide +kernel, by decide +kernel⟩

end Agreement

section Headers

variable {scope : Scope} {name : Text}
  (isIdentifier : Source.identifierLength name = some name.length)
include isIdentifier

/-- An identifier does not start with a separator. -/
theorem head?_ne_separator : name.head? ≠ some ClassName.separator := fun rooted =>
  Source.separator_notMem isIdentifier (List.mem_of_mem_head? rooted)

/-- An identifier is the name of a type. -/
theorem isTypeName_of_isIdentifier : IsTypeName name := by
  have unrooted : name.head? ≠ some '\\' := head?_ne_separator isIdentifier
  left
  simp only [Source.pathLength, if_neg unrooted, List.drop_zero,
    isIdentifier, Option.map_some, Nat.zero_add, List.drop_length, Source.segmentsLength,
    Nat.add_zero]

/-- An identifier that is neither a pseudo type nor a built-in class has in a type the name
that a header gives it. -/
theorem fullName_eq_qualify {builtIns : List Text} (tidy : Source.IsTidy scope)
    (class? : Text.lower name ∉ scalarNames) (declared : ClassName.key name ∉ builtIns) :
    fullName builtIns scope name = scope.qualify name := by
  have isPlain := (isTypeName_of_isIdentifier isIdentifier).isPlain
  have isClassName : isClass name = true := by simp [isClass_eq_of_isPlain isPlain, class?]
  have other : isBuiltIn builtIns name = false := by
    simp [isBuiltIn_of_isPlain builtIns isPlain, declared]
  have unrooted := head?_ne_separator isIdentifier
  have unseparated : name.contains ClassName.separator = false := by
    simp [Source.separator_notMem isIdentifier]
  rw [fullName, if_pos isClassName, qualifyName, if_neg unrooted, other, Scope.qualify,
    if_neg unrooted, ClassName.below, unseparated, tidy.space]
  cases scope.expandAlias? name with
  | some full => rfl
  | none => simp

end Headers

/-- Unions of identifiers that are neither pseudo types nor built-in classes: in a documented
type and in a declared type, each has the name that a header gives it, and all marks and the
order of the members are kept. -/
theorem qualify_eq_headers {source : Text} {scope : Scope} (read : IsReadFrom source scope)
    (builtIns : List Text) {members : List Member} (nonempty : members ≠ [])
    (identifiers : ∀ member ∈ members,
      Source.identifierLength member.name = some member.name.length)
    (classes : ∀ member ∈ members, Text.lower member.name ∉ scalarNames)
    (declared : ∀ member ∈ members, ClassName.key member.name ∉ builtIns) :
    qualify builtIns scope (union members Member.name) =
        union members (fun member => scope.qualify member.name) ∧
      (declaredType? scope (union members Member.name)).map (qualify builtIns scope) =
        some (union members fun member => scope.qualify member.name) := by
  have tidy := read.isTidy
  have headed : ∀ member ∈ members,
      fullName builtIns scope member.name = scope.qualify member.name := fun member listed =>
    fullName_eq_qualify (identifiers member listed) tidy (classes member listed)
      (declared member listed)
  have documented : qualify builtIns scope (union members Member.name) =
      union members fun member => scope.qualify member.name := by
    rw [qualify_union builtIns scope nonempty fun member _ => member.isTypeName.isPlain]
    exact union_congr headed
  have unimported : ∀ member ∈ members, member.name = receiver →
      scope.expandAlias? "this".toList = none := by
    intro member listed same
    have measured := identifiers member listed
    rw [same] at measured
    exact absurd measured (by decide +kernel)
  have unshadowed : ∀ member ∈ members, ¬ IsShadowed builtIns scope member.name := by
    rintro member listed ⟨builtIn, -⟩
    rw [isBuiltIn_of_isPlain builtIns member.isTypeName.isPlain, Bool.and_eq_true] at builtIn
    exact declared member listed (by simpa using builtIn.2)
  refine ⟨documented, ?_⟩
  rw [(qualify_declaredType?_iff builtIns tidy.imports nonempty unimported).mpr unshadowed,
    documented]

/-- `?Crane[]|Ship` names the imported class and the one of the namespace, as a header does. -/
theorem harbour_names_cranes :
    qualify (builtInKeys exceptions) harbour "?Crane[]|Ship".toList =
        "?Vendor\\Crane[]|Acme\\Ship".toList ∧
      (declaredType? harbour "?Crane[]|Ship".toList).map
          (qualify (builtInKeys exceptions) harbour) =
        some "?Vendor\\Crane[]|Acme\\Ship".toList := by
  have written : union [cranes, ship] Member.name = "?Crane[]|Ship".toList := by decide +kernel
  have headed : union [cranes, ship] (fun member => harbour.qualify member.name) =
      "?Vendor\\Crane[]|Acme\\Ship".toList := by decide +kernel
  rw [← written, ← headed]
  apply qualify_eq_headers harbour_isReadFrom
  · exact List.cons_ne_nil _ _
  all_goals
    simp only [List.forall_mem_cons]
    decide +kernel

end TypeName
end Docblock
