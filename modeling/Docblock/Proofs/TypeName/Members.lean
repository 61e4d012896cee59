import Docblock.Proofs.Links.Lines
import Docblock.Proofs.Source.Names
import Docblock.TypeName.Qualify

/-!
# Unions of decorated names

A type is written as a union: names between bars, each with a question mark in front of it
or array marks behind it. The full form of a union keeps the bars, the order of the members
and all their marks, and gives each name that names a class its full name.
-/

namespace Docblock

namespace TypeName

open Source (isNameChar)

/-- The pseudo type that is no identifier. -/
def receiver : Text := '$' :: "this".toList

/-- A class name or a scalar name: a path of identifiers, or the pseudo type that is none. -/
def IsTypeName (name : Text) : Prop :=
  Source.pathLength name = some name.length ∨ name = receiver

/-- A member of a union: a name, whether it is nullable, and its array marks. -/
structure Member where
  isNullable : Bool := false
  name : Text
  depth : Nat := 0
  isTypeName : IsTypeName name

/-- Some array marks. -/
def arrayMarks (depth : Nat) : Text := (List.replicate depth arrayMark).flatten

/-- A name with the marks of a member. -/
def Member.dress (member : Member) (name : Text) : Text :=
  (if member.isNullable then ['?'] else []) ++ (name ++ arrayMarks member.depth)

/-- The union of some members, with a name for each. -/
def union (members : List Member) (name : Member → Text) : Text :=
  Text.join ['|'] (members.map fun member => member.dress (name member))

/-- The union of several members: the first one, a bar, and the union of the others. -/
theorem union_cons_cons (first next : Member) (more : List Member) (name : Member → Text) :
    union (first :: next :: more) name =
      first.dress (name first) ++ '|' :: union (next :: more) name := by
  rw [union, List.map_cons, List.map_cons, Text.join, List.append_assoc]
  rfl

/-- A name that no mark belongs to. -/
def IsPlain (name : Text) : Prop := name ≠ [] ∧ ∀ c ∈ name, isNameChar c = true ∨ c = '$'

/-- A text of a name is plain. -/
theorem isPlain_of_isNameText {name : Text} (isNameText : Source.IsNameText name) :
    IsPlain name := by
  obtain ⟨plain, letter, inside, -⟩ := isNameText
  exact ⟨List.ne_nil_of_mem inside, fun c member => .inl (plain c member)⟩

/-- A path is a text of a name. -/
theorem isNameText_of_isPath {name : Text} (isPath : Source.pathLength name = some name.length) :
    Source.IsNameText name := by
  have whole := Source.isNameText_of_pathLength isPath
  rwa [List.take_length] at whole

/-- The name of a type is plain. -/
theorem IsTypeName.isPlain {name : Text} (isTypeName : IsTypeName name) : IsPlain name := by
  rcases isTypeName with isPath | rfl
  · exact isPlain_of_isNameText (isNameText_of_isPath isPath)
  · exact ⟨List.cons_ne_nil _ _, Text.forall_mem (by decide)⟩

section Plain

variable {name : Text} (isPlain : IsPlain name)
include isPlain

/-- A plain name has no other characters than those of names and the dollar sign. -/
theorem IsPlain.notMem {c : Char} (other : isNameChar c = false) (free : c ≠ '$') :
    c ∉ name := by
  intro member
  rcases isPlain.2 c member with named | dollar
  · rw [named] at other
    cases other
  · exact free dollar

/-- A plain name has no white space. -/
theorem IsPlain.isBlank {c : Char} (member : c ∈ name) : Text.isBlank c = false := by
  rcases isPlain.2 c member with named | rfl
  · exact Source.isBlank_of_isNameChar named
  · decide

end Plain

/-- The characters of a name with its marks. -/
theorem Member.mem_dress {member : Member} {name : Text} {c : Char}
    (inside : c ∈ member.dress name) : c ∈ name ∨ c = '?' ∨ c = '[' ∨ c = ']' := by
  rw [dress, List.mem_append, List.mem_append] at inside
  rcases inside with mark | own | marks
  · split at mark
    · exact .inr (.inl (List.mem_singleton.mp mark))
    · cases mark
  · exact .inl own
  · obtain ⟨mark, listed, own⟩ := List.mem_flatten.mp marks
    rw [List.eq_of_mem_replicate listed] at own
    rw [arrayMark, List.mem_pair] at own
    exact .inr (.inr own)

/-- A plain name with its marks has no white space. -/
theorem Member.isBlank_dress {member : Member} {name : Text} (isPlain : IsPlain name) {c : Char}
    (inside : c ∈ member.dress name) : Text.isBlank c = false := by
  rcases mem_dress inside with own | rfl | rfl | rfl
  · exact isPlain.isBlank own
  · decide
  · decide
  · decide

/-- A plain name with its marks has no bar. -/
theorem Member.bar_notMem_dress {member : Member} {name : Text} (isPlain : IsPlain name) :
    '|' ∉ member.dress name := by
  intro inside
  rcases mem_dress inside with own | same | same | same
  · exact isPlain.notMem (by decide) (by decide) own
  · exact absurd same (by decide)
  · exact absurd same (by decide)
  · exact absurd same (by decide)

/-- A union of plain names has no white space. -/
theorem isBlank_union {members : List Member} {name : Member → Text}
    (plain : ∀ member ∈ members, IsPlain (name member)) {c : Char}
    (inside : c ∈ union members name) : Text.isBlank c = false := by
  induction members with
  | nil => cases inside
  | cons first rest inductionHypothesis =>
    have own := @Member.isBlank_dress first _ (plain first List.mem_cons_self) c
    cases rest with
    | nil => exact own inside
    | cons next more =>
      rw [union_cons_cons, List.mem_append, List.mem_cons] at inside
      rcases inside with front | rfl | behind
      · exact own front
      · decide
      · exact inductionHypothesis (fun member later =>
          plain member (List.mem_cons_of_mem first later)) behind

/-- A plain name with its marks is not empty. -/
theorem Member.dress_ne_nil {member : Member} {name : Text} (isPlain : IsPlain name) :
    member.dress name ≠ [] := by
  simp [dress, isPlain.1]

/-- A union of plain names is not empty. -/
theorem union_ne_nil {members : List Member} (nonempty : members ≠ []) {name : Member → Text}
    (plain : ∀ member ∈ members, IsPlain (name member)) : union members name ≠ [] := by
  obtain ⟨first, rest, rfl⟩ := List.exists_cons_of_ne_nil nonempty
  have opened : first.dress (name first) ≠ [] :=
    Member.dress_ne_nil (plain first List.mem_cons_self)
  cases rest with
  | nil => exact opened
  | cons next more =>
    rw [union_cons_cons]
    exact List.append_ne_nil_of_left_ne_nil opened _

/-- Names with the same marks are told from each other. -/
theorem Member.dress_inj {member : Member} {name other : Text} :
    member.dress name = member.dress other ↔ name = other := by
  rw [dress, dress, List.append_cancel_left_eq, List.append_cancel_right_eq]

/-- The same names with the same marks make the same union. -/
theorem union_congr {members : List Member} {name other : Member → Text}
    (same : ∀ member ∈ members, name member = other member) :
    union members name = union members other :=
  congrArg (Text.join ['|']) (List.map_congr_left fun member listed =>
    congrArg member.dress (same member listed))

/-- Two unions with the same marks differ if and only if a name differs, where names that
differ are plain. -/
theorem union_eq_iff {members : List Member} {name other : Member → Text}
    (plain : ∀ member ∈ members, name member ≠ other member →
      IsPlain (name member) ∧ IsPlain (other member)) :
    union members name = union members other ↔
      ∀ member ∈ members, name member = other member := by
  constructor
  · intro same
    induction members with
    | nil => exact nofun
    | cons first rest inductionHypothesis =>
      cases rest with
      | nil =>
        intro member listed
        rw [List.mem_singleton.mp listed]
        exact Member.dress_inj.mp same
      | cons next more =>
        rw [union_cons_cons, union_cons_cons] at same
        -- plain names end where the first bar stands
        have here : name first = other first := by
          by_contra differs
          obtain ⟨named, others⟩ := plain first List.mem_cons_self differs
          have cut := congrArg (Text.splitOn '|') same
          rw [Text.splitOn_append_cons, Text.splitOn_append_cons,
            Text.splitOn_of_notMem (Member.bar_notMem_dress named),
            Text.splitOn_of_notMem (Member.bar_notMem_dress others)] at cut
          exact differs (Member.dress_inj.mp (List.cons.inj cut).1)
        rw [here, List.append_cancel_left_eq] at same
        have onward := inductionHypothesis
          (fun member later => plain member (List.mem_cons_of_mem first later))
          (List.cons.inj same).2
        intro member listed
        rcases List.mem_cons.mp listed with rfl | later
        · exact here
        · exact onward member later
  · exact union_congr

/-- The array marks behind a name are told from the name. -/
theorem splitArrayMarks_append {name : Text} (isPlain : IsPlain name) (depth : Nat) :
    splitArrayMarks (name ++ arrayMarks depth) = (name, arrayMarks depth) := by
  induction depth with
  | zero =>
    have unmarked : ¬ arrayMark.isSuffixOf name = true := by
      rw [List.isSuffixOf_iff_suffix]
      intro marked
      exact isPlain.notMem (c := ']') (by decide) (by decide) (marked.subset (by decide))
    rw [arrayMarks, List.replicate_zero, List.flatten_nil, List.append_nil, splitArrayMarks,
      if_neg unmarked]
  | succ depth inductionHypothesis =>
    have last : arrayMarks (depth + 1) = arrayMarks depth ++ arrayMark := by
      simp [arrayMarks, List.replicate_succ']
    have marked : arrayMark.isSuffixOf (name ++ arrayMarks depth ++ arrayMark) = true :=
      List.isSuffixOf_iff_suffix.mpr (List.suffix_append _ _)
    rw [last, ← List.append_assoc, splitArrayMarks, if_pos marked]
    have before : (name ++ arrayMarks depth ++ arrayMark).take
        ((name ++ arrayMarks depth ++ arrayMark).length - 2) = name ++ arrayMarks depth := by
      rw [List.length_append]
      exact List.take_left
    rw [before, inductionHypothesis]

/-- A plain name does not start with a question mark. -/
theorem IsPlain.head?_append {name : Text} (isPlain : IsPlain name) (rest : Text) :
    (name ++ rest).head? ≠ some '?' := by
  obtain ⟨c, more, rfl⟩ := List.exists_cons_of_ne_nil isPlain.1
  intro marked
  rw [List.cons_append, List.head?_cons, Option.some.injEq] at marked
  exact isPlain.notMem (c := '?') (by decide) (by decide) (marked ▸ List.mem_cons_self)

/-- The full form of a name: only class names are given another one. -/
def fullName (builtIns : List Text) (scope : Scope) (name : Text) : Text :=
  if isClass name then qualifyName builtIns scope name else name

/-- The full form of a member keeps its marks. -/
theorem qualifyMember_dress (builtIns : List Text) (scope : Scope) (member : Member)
    {name : Text} (isPlain : IsPlain name) :
    qualifyMember builtIns scope (member.dress name) =
      member.dress (fullName builtIns scope name) := by
  have trimmed : Text.trim (member.dress name) = member.dress name :=
    Text.trim_eq_self fun c inside => Member.isBlank_dress isPlain inside
  have split := splitArrayMarks_append isPlain member.depth
  have cut : (if (member.dress name).head? = some '?' then (['?'], (member.dress name).drop 1)
      else ([], member.dress name)) =
      (if member.isNullable then ['?'] else [], name ++ arrayMarks member.depth) := by
    rw [Member.dress]
    cases member.isNullable with
    | true => rfl
    | false => exact if_neg (isPlain.head?_append _)
  simp only [qualifyMember, trimmed, cut, split, isPlain.1, decide_false, Bool.false_or]
  rw [fullName, Member.dress]
  cases isClass name <;> simp

/-- The full form of a union of plain names is the union of their full forms. -/
theorem qualify_union (builtIns : List Text) (scope : Scope) {members : List Member}
    (nonempty : members ≠ []) {name : Member → Text}
    (plain : ∀ member ∈ members, IsPlain (name member)) :
    qualify builtIns scope (union members name) =
      union members fun member => fullName builtIns scope (name member) := by
  have apart : ∀ member ∈ members,
      Text.splitOn '|' (member.dress (name member)) = [member.dress (name member)] :=
    fun member listed => Text.splitOn_of_notMem (Member.bar_notMem_dress (plain member listed))
  rw [qualify, union, union, Text.splitOn_join '|' (by simpa using nonempty), List.flatMap_map,
    List.flatMap_congr apart, List.map_flatMap]
  simp only [List.map_singleton]
  rw [← List.map_eq_flatMap]
  exact congrArg _ (List.map_congr_left fun member listed =>
    qualifyMember_dress builtIns scope member (plain member listed))

end TypeName
end Docblock
