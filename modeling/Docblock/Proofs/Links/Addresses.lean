import Docblock.Document.Assembly
import Docblock.Proofs.Links.Anchors

/-!
# Addresses of built-in classes

Under the standard template the address of a built-in class is a fixed start, the
slug of the class, and a fixed end; lower-casing makes no slash, angle, bracket or
line feed that the name did not have. Every link of a document leads to the section
of a type or to such an address.
-/

namespace Docblock

/-- The small letters beyond the basic Latin alphabet are no control characters,
digits or punctuation marks of it. -/
theorem Text.smallOf_ge {n : Nat} (beyond : 128 ≤ n) : 97 ≤ Text.smallOf n := by
  have runs : ∀ run ∈ Text.caseRuns, 97 ≤ (run.first : Int) + run.distance := by
    decide +kernel
  rw [Text.smallOf]
  split
  · rename_i run found
    have listed := List.mem_of_find?_eq_some found
    have holds := List.find?_some found
    simp only [Bool.and_eq_true, decide_eq_true_eq] at holds
    have bound := runs run listed
    have started := holds.1.1
    have whole : Int.ofNat n = (n : Int) := rfl
    rw [whole]
    omega
  · omega

/-- The code point of a character made of a number is that number, or zero if there
is no such character. -/
theorem Text.toNat_ofNat (n : Nat) : (Char.ofNat n).toNat = n ∨ (Char.ofNat n).toNat = 0 := by
  by_cases valid : n.isValidChar
  · left
    rw [Char.ofNat, dif_pos valid]
    rfl
  · right
    rw [Char.ofNat, dif_neg valid]
    rfl

/-- Lower-casing makes no character below the small letters that was not there. -/
theorem Text.eq_of_mem_lowerChar {earlier later : Text} {c d : Char} (positive : 0 < d.toNat)
    (below : d.toNat < 97) (member : d ∈ Text.lowerChar earlier c later) : d = c := by
  have code : ∀ n, 97 ≤ n → d ≠ Char.ofNat n := by
    rintro n bound rfl
    rcases Text.toNat_ofNat n with same | none
    · omega
    · omega
  rw [Text.lowerChar] at member
  split at member
  · rw [List.mem_singleton] at member
    split at member
    · rename_i ascii capital
      refine absurd member (code _ ?_)
      rw [Bool.and_eq_true, decide_eq_true_eq, decide_eq_true_eq] at capital
      have start : 65 ≤ c.toNat := capital.1
      omega
    · exact member
  · rename_i beyond
    split at member
    · simp only [List.mem_cons, List.not_mem_nil, or_false] at member
      rcases member with rfl | dot
      · exact absurd below (by decide)
      · exact absurd dot (code _ (by decide))
    · split at member
      · rw [List.mem_singleton] at member
        refine absurd member (code _ ?_)
        split <;> decide
      · rw [List.mem_singleton] at member
        exact absurd member (code _ (Text.smallOf_ge (Nat.le_of_not_lt beyond)))

/-- A character below the small letters in a lower-cased text was there before. -/
theorem Text.mem_of_mem_lower {s : Text} {d : Char} (positive : 0 < d.toNat)
    (below : d.toNat < 97) (member : d ∈ Text.lower s) : d ∈ s := by
  have general : ∀ earlier, d ∈ Text.lowerFrom earlier s → d ∈ s := by
    clear member
    induction s with
    | nil => exact fun _ inside => inside
    | cons c rest inductionHypothesis =>
      intro earlier inside
      rw [Text.lowerFrom, List.mem_append] at inside
      rcases inside with first | later
      · rw [Text.eq_of_mem_lowerChar positive below first]
        exact List.mem_cons_self
      · exact List.mem_cons_of_mem c (inductionHypothesis (c :: earlier) later)
  exact general [] member

namespace Document

open Documented

/-- A template is copied up to its first brace. -/
theorem fillFields_append {fillFormat : Text → Except TemplateFault Text} {value plain : Text}
    (braceless : ∀ c ∈ plain, c ≠ '{' ∧ c ≠ '}') (rest : Text) :
    Template.fillFields fillFormat value (plain ++ rest) =
      (Template.fillFields fillFormat value rest).map (plain ++ ·) := by
  induction plain with
  | nil =>
    rw [List.nil_append]
    cases Template.fillFields fillFormat value rest <;> rfl
  | cons c others inductionHypothesis =>
    have onward := inductionHypothesis fun d member => braceless d (List.mem_cons_of_mem c member)
    have first := braceless c List.mem_cons_self
    rw [List.cons_append, Template.fillFields, if_pos first, onward]
    cases Template.fillFields fillFormat value rest <;> rfl

/-- A format that says nothing leaves a text as it is. -/
theorem formatted_nil (value : Text) : Template.formatted [] value = .ok value := by
  have read : Template.Format.read [] = .ok {} := rfl
  rw [Template.formatted, read]
  simp [Except.map, Template.aligned]

/-- The field that is called name stands for the value as it is. -/
theorem fieldValue_name (value : Text) : Template.fieldValue value "name".toList = .ok value := by
  rfl

/-- The standard template filled with a slug is its address. -/
theorem fill_standard (slug : Text) :
    Template.fill Template.standard slug = .ok (standardAddress slug) := by
  have start : ∀ c ∈ "https://php.net/manual/en/class.".toList, c ≠ '{' ∧ c ≠ '}' :=
    Text.forall_mem (by decide)
  have ending : ∀ c ∈ ".php".toList, c ≠ '{' ∧ c ≠ '}' :=
    Text.forall_mem (by decide)
  have field : Template.readField ("name".toList ++ '}' :: ".php".toList) =
      .ok (⟨"name".toList, none, []⟩, 5) := rfl
  have rest : ("name".toList ++ '}' :: ".php".toList).drop 5 = ".php".toList := rfl
  unfold Template.fill Template.standard
  generalize Template.fillFields (fun _ => .error .malformed) slug = fillFormat
  have copied : Template.fillFields fillFormat slug ".php".toList = .ok ".php".toList := by
    have whole : Template.fillFields fillFormat slug (".php".toList ++ []) = _ :=
      fillFields_append ending []
    rwa [List.append_nil, Template.fillFields] at whole
  have filled : Template.fillFields fillFormat slug
      ('{' :: ("name".toList ++ '}' :: ".php".toList)) = .ok (slug ++ ".php".toList) := by
    rw [Template.fillFields, if_neg (by decide), if_neg (by decide), if_neg (by decide), field]
    simp only [bind, Except.bind, pure, Except.pure]
    rw [fieldValue_name, rest, copied]
    simp only [Template.converted]
    have plain : ([] : Text).contains '{' = false := rfl
    rw [plain]
    simp only [Bool.false_eq_true, if_false]
    rw [formatted_nil]
  rw [List.append_assoc, List.cons_append, fillFields_append start, filled]
  simp only [Except.map]
  unfold standardAddress
  rw [List.append_assoc]

/-- The slug of a built-in class in its address: its name without brackets of arrays
and separators, in lower case. -/
def addressSlug (name : Text) : Text :=
  Text.lower ((Text.replaceAll TypeName.arrayMark [] name).filter (· != ClassName.separator))

/-- The address of a built-in class under the standard template. -/
theorem addressOf_standard {settings : DocumentSettings}
    (standard : settings.template = Template.standard) (name : Text) :
    addressOf settings name = .ok (standardAddress (addressSlug name)) := by
  rw [addressOf, standard, fill_standard]
  rfl

/-- A character below the small letters in the slug of a class is in its name. -/
theorem mem_of_mem_addressSlug {name : Text} {c : Char} (positive : 0 < c.toNat)
    (below : c.toNat < 97) (member : c ∈ addressSlug name) : c ∈ name := by
  have lowered := Text.mem_of_mem_lower positive below member
  rcases Text.mem_of_mem_replaceAll (List.mem_filter.mp lowered).1 with inside | new
  · exact inside
  · cases new

/-- The slug of a class has no character that starts a mark. -/
theorem IsClassName.any_startsMark_addressSlug {name : Text} (isName : IsClassName name) :
    (addressSlug name).any startsMark = false := by
  refine any_startsMark ?_ ?_
  · intro member
    exact isName.notMem (by decide) (mem_of_mem_addressSlug (by decide) (by decide) member)
  · intro member
    exact isName.notMem (by decide) (mem_of_mem_addressSlug (by decide) (by decide) member)

section Signatures

variable {settings : DocumentSettings}

/-- Linking a built-in class changes nothing where there is none, and else enters its address. -/
theorem linkBuiltIn_cases {links linked : Keyed Text} {name : Option Text}
    (entered : linkBuiltIn settings links name = .ok linked) :
    (name.filter (· ≠ []) = none ∧ linked = links) ∨
      ∃ builtIn address, name.filter (· ≠ []) = some builtIn ∧
        addressOf settings builtIn = .ok address ∧
        linked = Keyed.putNew builtIn address links := by
  rw [linkBuiltIn] at entered
  split at entered
  · rename_i unnamed
    exact .inl ⟨unnamed, (Except.ok.inj entered).symm⟩
  · rename_i builtIn named
    obtain ⟨address, filled, rfl⟩ := exists_of_map_eq_ok entered
    exact .inr ⟨builtIn, address, named, filled, rfl⟩

/-- Sections that were written are that of the first type and those of the others, which were
written with the links that the first one leaves. -/
theorem sections_cons_cases {resolver : Resolver} {anchors : Keyed Text} {single : Bool}
    {entity : Entity} {rest : List Entity} {links linked : Keyed Text} {table : MemberTable}
    {texts : List Text}
    (written : (sections settings resolver anchors single (entity :: rest) links table).1 =
      .ok (texts, linked)) :
    ∃ next others, linkSignatures settings resolver entity links = .ok next ∧
      (sections settings resolver anchors single rest next (fillTable settings entity table)).1 =
        .ok (others, linked) ∧
      texts = typeSection anchors settings.showsReferences single entity
        (fillTable settings entity table).toText :: others := by
  rw [sections] at written
  split at written
  · cases written
  · rename_i next entered
    obtain ⟨⟨others, all⟩, following, same⟩ := exists_of_map_eq_ok written
    obtain ⟨rfl, rfl⟩ := Prod.mk.inj same
    exact ⟨next, others, entered, following, rfl⟩

variable (holds : Keyed Text → Prop)

/-- What entering an address preserves, linking a built-in class preserves. -/
theorem linkBuiltIn_preserves
    (entering : ∀ links name address, holds links → addressOf settings name = .ok address →
      holds (Keyed.putNew name address links))
    {links linked : Keyed Text} {name : Option Text} (before : holds links)
    (entered : linkBuiltIn settings links name = .ok linked) : holds linked := by
  obtain ⟨-, rfl⟩ | ⟨builtIn, address, -, filled, rfl⟩ := linkBuiltIn_cases entered
  · exact before
  · exact entering links builtIn address before filled

/-- What entering an address preserves, linking the built-in classes of some
signatures preserves. -/
theorem linkAll_preserves
    (entering : ∀ links name address, holds links → addressOf settings name = .ok address →
      holds (Keyed.putNew name address links))
    {links linked : Keyed Text} {names : List (Option Text)} (before : holds links)
    (entered : names.foldlM (linkBuiltIn settings) links = .ok linked) : holds linked := by
  induction names generalizing links with
  | nil =>
    cases entered
    exact before
  | cons name rest inductionHypothesis =>
    rw [List.foldlM_cons] at entered
    obtain ⟨next, first, following⟩ := exists_of_bind_eq_ok entered
    exact inductionHypothesis (linkBuiltIn_preserves holds entering before first) following

/-- The names of built-in classes that the signatures of shown methods give, in order. -/
def signatureNames (settings : DocumentSettings) (resolver : Resolver) (entities : List Entity) :
    List (Option Text) :=
  entities.flatMap fun entity => (shownMethods settings entity).flatMap (builtInsOf resolver)

/-- Writing the sections of a document links the built-in classes of all its signatures. -/
theorem linkAll_of_sections {resolver : Resolver} {anchors : Keyed Text} {single : Bool}
    {entities : List Entity} {links linked : Keyed Text} {table : MemberTable} {texts : List Text}
    (written : (sections settings resolver anchors single entities links table).1 =
      .ok (texts, linked)) :
    (signatureNames settings resolver entities).foldlM (linkBuiltIn settings) links =
      .ok linked := by
  induction entities generalizing links table texts with
  | nil =>
    cases written
    rfl
  | cons entity rest inductionHypothesis =>
    obtain ⟨next, others, entered, following, rfl⟩ := sections_cons_cases written
    rw [signatureNames, List.flatMap_cons, List.foldlM_append, ← linkSignatures, entered]
    exact inductionHypothesis following

/-- What entering an address preserves holds after the last section of a document. -/
theorem sections_preserves {resolver : Resolver} {anchors : Keyed Text} {single : Bool}
    (entering : ∀ links name address, holds links → addressOf settings name = .ok address →
      holds (Keyed.putNew name address links))
    {entities : List Entity} {links linked : Keyed Text} {table : MemberTable} {texts : List Text}
    (before : holds links)
    (written : (sections settings resolver anchors single entities links table).1 =
      .ok (texts, linked)) :
    holds linked :=
  linkAll_preserves holds entering before (linkAll_of_sections written)

end Signatures

/-- The target of a name in a document: the section of a documented type, or the
address of a built-in class. -/
def IsTarget (anchors : Keyed Text) (name target : Text) : Prop :=
  (∃ anchor, (name, anchor) ∈ anchors ∧ target = '#' :: anchor) ∨
    target = standardAddress (addressSlug name)

/-- Under the standard template every link of a document has its target. -/
theorem isTarget_of_sections {settings : DocumentSettings} {resolver : Resolver}
    {anchors links : Keyed Text} {single : Bool} {entities : List Entity} {table : MemberTable}
    {texts : List Text} (standard : settings.template = Template.standard)
    (written : (sections settings resolver anchors single entities (sectionLinks anchors)
      table).1 = .ok (texts, links)) :
    ∀ entry ∈ links, IsTarget anchors entry.1 entry.2 := by
  refine sections_preserves (fun links => ∀ entry ∈ links, IsTarget anchors entry.1 entry.2)
    ?_ ?_ written
  · intro before name address targets found entry member
    rcases Keyed.mem_of_mem_putNew member with rfl | inside
    · rw [addressOf_standard standard] at found
      cases found
      exact .inr rfl
    · exact targets entry inside
  · intro entry member
    obtain ⟨⟨name, anchor⟩, listed, rfl⟩ := List.mem_map.mp member
    exact .inl ⟨anchor, listed, rfl⟩

/-- The documented types stay linked to their sections. -/
theorem mem_links_of_sections {settings : DocumentSettings} {resolver : Resolver}
    {anchors links : Keyed Text} {single : Bool} {entities : List Entity} {table : MemberTable}
    {texts : List Text}
    (written : (sections settings resolver anchors single entities (sectionLinks anchors)
      table).1 = .ok (texts, links)) :
    ∀ entry ∈ sectionLinks anchors, entry ∈ links := by
  intro entry member
  refine sections_preserves (fun links => entry ∈ links) ?_ member written
  intro before name address inside _
  exact Keyed.mem_putNew inside

/-- A target holds no line feed and no square bracket that its name does not hold. -/
theorem IsTarget.notMem {entities : List Entity} {name target : Text} {c : Char}
    (isTarget : IsTarget (anchorsOf entities) name target) (either : c = '\n' ∨ c = '[')
    (absent : c ∉ name) : c ∉ target := by
  intro member
  rcases isTarget with ⟨anchor, listed, rfl⟩ | rfl
  · rcases List.mem_cons.mp member with hash | inside
    · rcases either with rfl | rfl <;> exact absurd hash (by decide)
    · have known := forall_mem_anchorsOf entities _ listed c inside
      rcases either with rfl | rfl <;> exact absurd known (by decide)
  · have opening : ∀ d ∈ "https://php.net/manual/en/class.".toList, d ≠ '\n' ∧ d ≠ '[' :=
      Text.forall_mem (by decide)
    have ending : ∀ d ∈ ".php".toList, d ≠ '\n' ∧ d ≠ '[' :=
      Text.forall_mem (by decide)
    have inSlug : c ∉ addressSlug name := fun inside =>
      absent (mem_of_mem_addressSlug (by rcases either with rfl | rfl <;> decide)
        (by rcases either with rfl | rfl <;> decide) inside)
    unfold standardAddress at member
    rw [List.mem_append, List.mem_append] at member
    rcases member with (start | inside) | last
    · exact either.elim (opening c start).1 (opening c start).2
    · exact inSlug inside
    · exact either.elim (ending c last).1 (ending c last).2

end Document
end Docblock
