import Docblock.Proofs.Links.Pass

/-!
# Targets of links

The names are linked one after the other, so a later name meets the links that
earlier ones have set. `between` cuts a text at the places where the targets of
one name are put. Later names are linked in each of these pieces by itself and
leave the targets alone, unless one of them strikes the target: it occurs behind
a mark inside the target, or it holds the seam between the label of a link and
its target.
-/

namespace Docblock.Document

/-- What stands in a link between the label and the target. -/
def seam : Text := [']', '(']

/-- Puts a text in front of the first of some pieces. -/
def prepend (front : Text) : List Text → List Text
  | [] => [front]
  | piece :: rest => (front ++ piece) :: rest

/-- The pieces of a linked text around the targets of the links of one name. -/
def between (name : Text) : Text → List Text
  | [] => [[]]
  | c :: rest =>
    match markBefore? name (c :: rest) with
    | some mark =>
      (mark ++ '[' :: name ++ seam) ::
        prepend [')'] (between name (rest.drop (mark.length + name.length - 1)))
    | none => prepend [c] (between name rest)
termination_by s => s.length
decreasing_by
  · simp only [List.length_drop, List.length_cons]; omega
  · simp

/-- Whether a name can reach into the seam of a link. -/
def HoldsSeam (name : Text) : Prop := seam <:+: name ++ ['(']

/-- Whether a name can be linked where a target stands. -/
def Strikes (name target : Text) : Prop :=
  HoldsSeam name ∨
    ∃ tail, tail ≠ [] ∧ tail <:+ target ∧
      ∃ behind, (markBefore? name (tail ++ ')' :: behind)).isSome = true

/-- Links some names one after the other. -/
def linkInOrder (entries : List (Text × Text)) (s : Text) : Text :=
  entries.foldl (fun text entry => linkName entry.1 entry.2 text) s

/-- The names of a list are linked in the order of their length and spelling. -/
theorem linkNames_eq (links : Keyed Text) (s : Text) :
    linkNames links s = linkInOrder (links.mergeSort goesFirst) s := rfl

/-- The first name is linked before the others. -/
theorem linkInOrder_cons (entry : Text × Text) (rest : List (Text × Text)) (s : Text) :
    linkInOrder (entry :: rest) s = linkInOrder rest (linkName entry.1 entry.2 s) := rfl

/-- A text keeps its square brackets while names are linked. -/
theorem bracket_linkInOrder {entries : List (Text × Text)} {s : Text} (member : '[' ∈ s) :
    '[' ∈ linkInOrder entries s := by
  induction entries generalizing s with
  | nil => exact member
  | cons entry rest inductionHypothesis =>
    rw [linkInOrder_cons]
    exact inductionHypothesis (bracket_linkName entry.2 member)

/-- A text in which none of some names is linked stays. -/
theorem linkInOrder_of_not_hits {entries : List (Text × Text)} {s : Text}
    (free : ∀ entry ∈ entries, ¬Hits entry.1 s) : linkInOrder entries s = s := by
  induction entries with
  | nil => rfl
  | cons entry rest inductionHypothesis =>
    have here := linkName_of_not_hits entry.2 (free entry List.mem_cons_self)
    rw [linkInOrder_cons, here]
    exact inductionHypothesis fun other member => free other (List.mem_cons_of_mem entry member)

/-- Where there is no square bracket after names were linked, none of them was. -/
theorem linkInOrder_of_no_bracket {entries : List (Text × Text)} {s : Text}
    (plain : '[' ∉ linkInOrder entries s) :
    (∀ entry ∈ entries, ¬Hits entry.1 s) ∧ linkInOrder entries s = s := by
  induction entries generalizing s with
  | nil => exact ⟨by simp, rfl⟩
  | cons entry rest inductionHypothesis =>
    rw [linkInOrder_cons] at plain ⊢
    obtain ⟨free, same⟩ :=
      linkName_of_no_bracket fun member => plain (bracket_linkInOrder member)
    rw [same] at plain ⊢
    obtain ⟨onward, kept⟩ := inductionHypothesis plain
    refine ⟨?_, kept⟩
    intro other member
    rcases List.mem_cons.mp member with rfl | later
    · exact free
    · exact onward other later

/-- A text without square brackets stays exactly when no name is linked in it. -/
theorem linkInOrder_eq_self_iff {entries : List (Text × Text)} {s : Text} (plain : '[' ∉ s) :
    linkInOrder entries s = s ↔ ∀ entry ∈ entries, ¬Hits entry.1 s := by
  constructor
  · intro same
    exact (linkInOrder_of_no_bracket (same.symm ▸ plain)).1
  · exact linkInOrder_of_not_hits

/-- A text without square brackets is among some linked texts exactly when it was
among them before and no name is linked in it. -/
theorem mem_map_linkInOrder {entries : List (Text × Text)} {s : Text} {texts : List Text}
    (plain : '[' ∉ s) :
    s ∈ texts.map (linkInOrder entries) ↔ s ∈ texts ∧ ∀ entry ∈ entries, ¬Hits entry.1 s := by
  constructor
  · intro member
    obtain ⟨before, listed, rfl⟩ := List.mem_map.mp member
    obtain ⟨free, same⟩ := linkInOrder_of_no_bracket plain
    rw [same]
    exact ⟨listed, free⟩
  · rintro ⟨listed, free⟩
    exact List.mem_map.mpr ⟨s, listed, linkInOrder_of_not_hits free⟩

/-- Names are linked line by line when neither they nor their targets hold line
feeds. -/
theorem splitOn_linkInOrder {entries : List (Text × Text)}
    (unbroken : ∀ entry ∈ entries, '\n' ∉ entry.1 ∧ '\n' ∉ entry.2) (s : Text) :
    Text.splitOn '\n' (linkInOrder entries s) =
      (Text.splitOn '\n' s).map (linkInOrder entries) := by
  induction entries generalizing s with
  | nil =>
    have same : linkInOrder [] = id := rfl
    rw [same, List.map_id, id]
  | cons entry rest inductionHypothesis =>
    obtain ⟨name, target⟩ := unbroken entry List.mem_cons_self
    have onward := inductionHypothesis
      (fun other member => unbroken other (List.mem_cons_of_mem entry member))
      (linkName entry.1 entry.2 s)
    rw [linkInOrder_cons, onward, splitOn_linkName name target, List.map_map]
    rfl

/-- Putting a text in front of pieces leaves at least one piece. -/
theorem exists_prepend (front : Text) (pieces : List Text) :
    ∃ piece rest, prepend front pieces = piece :: rest := by
  cases pieces with
  | nil => exact ⟨front, [], rfl⟩
  | cons piece rest => exact ⟨front ++ piece, rest, rfl⟩

/-- Every text has at least one piece. -/
theorem between_ne_nil (name s : Text) : between name s ≠ [] := by
  cases s with
  | nil => simp [between]
  | cons c rest =>
    rw [between]
    split
    · simp
    · obtain ⟨piece, more, equal⟩ := exists_prepend [c] (between name rest)
      simp [equal]

/-- Joining pieces with a text in front of the first. -/
theorem join_prepend (target front : Text) {pieces : List Text} (nonempty : pieces ≠ []) :
    Text.join target (prepend front pieces) = front ++ Text.join target pieces := by
  cases pieces with
  | nil => exact absurd rfl nonempty
  | cons piece rest =>
    cases rest with
    | nil => rfl
    | cons next more => simp [prepend, Text.join]

/-- A linked text is its pieces with the target between them. -/
theorem linkName_eq_join (name target s : Text) :
    linkName name target s = Text.join target (between name s) := by
  induction width : s.length using Nat.strongRecOn generalizing s with
  | ind n inductionHypothesis =>
    cases s with
    | nil => simp [linkName, between, Text.join]
    | cons c rest =>
      rw [linkName, between]
      cases found : markBefore? name (c :: rest) with
      | none =>
        have onward := inductionHypothesis rest.length (by simp [← width]) rest rfl
        simp only
        rw [join_prepend target [c] (between_ne_nil name rest), onward, List.singleton_append]
      | some mark =>
        have shorter : (rest.drop (mark.length + name.length - 1)).length < n := by
          simp only [← width, List.length_drop, List.length_cons]
          omega
        have onward := inductionHypothesis _ shorter _ rfl
        have later := join_prepend target [')']
          (between_ne_nil name (rest.drop (mark.length + name.length - 1)))
        obtain ⟨piece, more, pieces⟩ := exists_prepend [')']
          (between name (rest.drop (mark.length + name.length - 1)))
        simp only
        rw [pieces] at later ⊢
        rw [Text.join, later, onward]
        simp [link, seam]

/-- Pieces between which targets stand: each but the last ends with the seam of a
link, and each but the first starts with a closing parenthesis. -/
def IsWoven : List Text → Prop
  | [] => True
  | [_] => True
  | piece :: next :: rest =>
    (∃ front, piece = front ++ seam) ∧ (∃ behind, next = ')' :: behind) ∧
      IsWoven (next :: rest)

/-- A text in front of woven pieces goes to the first of them. -/
theorem IsWoven.prepend {pieces : List Text} (woven : IsWoven pieces) (front : Text) :
    IsWoven (prepend front pieces) := by
  match pieces, woven with
  | [], _ => trivial
  | [_], _ => trivial
  | _ :: _ :: _, ⟨⟨first, equal⟩, closed, onward⟩ =>
    exact ⟨⟨front ++ first, by simp [equal]⟩, closed, onward⟩

/-- The pieces of a linked text are woven. -/
theorem isWoven_between (name s : Text) : IsWoven (between name s) := by
  induction width : s.length using Nat.strongRecOn generalizing s with
  | ind n inductionHypothesis =>
    cases s with
    | nil => simp [between, IsWoven]
    | cons c rest =>
      rw [between]
      cases found : markBefore? name (c :: rest) with
      | none =>
        exact (inductionHypothesis rest.length (by simp [← width]) rest rfl).prepend [c]
      | some mark =>
        have shorter : (rest.drop (mark.length + name.length - 1)).length < n := by
          simp only [← width, List.length_drop, List.length_cons]
          omega
        have onward := (inductionHypothesis _ shorter _ rfl).prepend [')']
        simp only
        cases pieces : between name (rest.drop (mark.length + name.length - 1)) with
        | nil => exact absurd pieces (between_ne_nil name _)
        | cons piece more =>
          rw [pieces] at onward
          exact ⟨⟨_, rfl⟩, ⟨piece, rfl⟩, onward⟩

/-- The seam of a link is a fence for names that do not hold it. -/
theorem isFence_seam {name : Text} (seamless : ¬HoldsSeam name) : IsFence name seam where
  inside := by
    have free : ∀ mark ∈ typeMarks, ']' ∉ mark := by decide
    intro mark member front behind start
    rw [List.append_assoc] at start
    rw [← List.length_append]
    refine Nat.le_of_not_lt fun longer => seamless ?_
    obtain ⟨c, more, equal, reached⟩ := exists_append_of_prefix start longer
    obtain ⟨rfl, onward⟩ := List.cons_prefix_cons.mp reached
    -- The bracket lies in the name, because no mark has one.
    obtain ⟨others, named⟩ : ∃ others, name = others ++ ']' :: more := by
      rcases List.append_eq_append_iff.mp equal with ⟨others, -, named⟩ | ⟨others, kept, split⟩
      · exact ⟨others, named⟩
      · cases others with
        | nil => exact ⟨[], split.symm⟩
        | cons d rest =>
          have bracket : ']' = d := (List.cons.inj split).1
          exact absurd (by simp [kept, ← bracket]) (free mark member)
    cases more with
    | nil => exact ⟨others, [], by simp [named, seam]⟩
    | cons d rest =>
      obtain ⟨rfl, -⟩ := List.cons_prefix_cons.mp onward
      exact ⟨others, rest ++ ['('], by simp [named, seam]⟩
  opened := ⟨']', ['('], rfl, by decide⟩
  quiet := Text.forall_mem (by decide)

/-- A target that a name does not strike is passed over. -/
theorem linkName_target {name target : Text} (replacement : Text)
    (unstruck : ¬Strikes name target) (behind : Text) :
    linkName name replacement (target ++ ')' :: behind) =
      target ++ linkName name replacement (')' :: behind) := by
  induction target with
  | nil => rfl
  | cons c rest inductionHypothesis =>
    have here : markBefore? name (c :: rest ++ ')' :: behind) = none := by
      cases found : markBefore? name (c :: rest ++ ')' :: behind) with
      | none => rfl
      | some mark =>
        exact absurd (.inr ⟨c :: rest, List.cons_ne_nil c rest, List.suffix_refl _, behind,
          by rw [found]; rfl⟩) unstruck
    have onward : ¬Strikes name rest := by
      rintro (seamed | ⟨tail, nonempty, suffix, others, found⟩)
      · exact unstruck (.inl seamed)
      · exact unstruck (.inr ⟨tail, nonempty, suffix.trans (List.suffix_cons c rest), others,
          found⟩)
    rw [List.cons_append] at here ⊢
    rw [linkName, here]
    simp only
    rw [inductionHypothesis onward, List.cons_append]

/-- A closing parenthesis in front of a text is passed over. -/
theorem linkName_closed (name target behind : Text) :
    linkName name target (')' :: behind) = ')' :: linkName name target behind := by
  have unmarked : ∀ c ∈ [')'], ∀ mark ∈ typeMarks, mark.head? ≠ some c :=
    Text.forall_mem (by decide)
  exact linkName_quiet target unmarked behind

/-- A name is linked in each piece by itself, and the pieces stay woven, when what
becomes of the targets does not depend on what stands behind them. -/
theorem linkName_join {name target replacement changed : Text} (seamless : ¬HoldsSeam name)
    (passed : ∀ behind, linkName name replacement (target ++ ')' :: behind) =
      changed ++ linkName name replacement (')' :: behind))
    {pieces : List Text} (woven : IsWoven pieces) :
    linkName name replacement (Text.join target pieces) =
        Text.join changed (pieces.map (linkName name replacement)) ∧
      IsWoven (pieces.map (linkName name replacement)) := by
  have isFence := isFence_seam seamless
  induction pieces with
  | nil => exact ⟨by simp [Text.join, linkName], trivial⟩
  | cons piece rest inductionHypothesis =>
    cases rest with
    | nil => exact ⟨rfl, trivial⟩
    | cons next more =>
      obtain ⟨⟨front, rfl⟩, ⟨behind, rfl⟩, onward⟩ := woven
      obtain ⟨linked, stillWoven⟩ := inductionHypothesis onward
      have opened : linkName name replacement (front ++ seam) =
          linkName name replacement front ++ seam := by
        have whole := isFence.linkName_append replacement front []
        rwa [List.append_nil, linkName, List.append_nil] at whole
      obtain ⟨others, closed⟩ : ∃ others,
          Text.join target ((')' :: behind) :: more) = ')' :: others := by
        cases more with
        | nil => exact ⟨behind, rfl⟩
        | cons following later => exact ⟨_, rfl⟩
      refine ⟨?_, ⟨_, opened⟩, ⟨_, linkName_closed name replacement behind⟩, stillWoven⟩
      rw [closed] at linked
      rw [Text.join, closed, List.append_assoc, isFence.linkName_append, passed, linked, ← opened]
      simp only [List.map_cons, Text.join, List.append_assoc]

/-- Names that strike no target are linked in each piece by itself. -/
theorem linkInOrder_join {target : Text} {entries : List (Text × Text)}
    (unstruck : ∀ entry ∈ entries, ¬Strikes entry.1 target) {pieces : List Text}
    (woven : IsWoven pieces) :
    linkInOrder entries (Text.join target pieces) =
      Text.join target (pieces.map (linkInOrder entries)) := by
  induction entries generalizing pieces with
  | nil =>
    have same : linkInOrder [] = id := rfl
    rw [same, List.map_id, id]
  | cons entry rest inductionHypothesis =>
    have first := unstruck entry List.mem_cons_self
    obtain ⟨linked, stillWoven⟩ :=
      linkName_join (fun seamed => first (.inl seamed)) (linkName_target entry.2 first) woven
    have onward := inductionHypothesis
      (fun other member => unstruck other (List.mem_cons_of_mem entry member)) stillWoven
    rw [linkInOrder_cons, linked, onward, List.map_map]
    rfl

/-- When a name has been linked, its targets stand between the pieces of the text,
and the later names are linked after that. -/
theorem linkNames_split {links : Keyed Text} {earlier later : List (Text × Text)}
    {name target : Text} (order : links.mergeSort goesFirst = earlier ++ (name, target) :: later)
    (s : Text) :
    linkNames links s =
      linkInOrder later (Text.join target (between name (linkInOrder earlier s))) := by
  rw [linkNames_eq, order, linkInOrder, List.foldl_append, ← linkName_eq_join]
  rfl

/-- The targets that a name was linked to stay where they are when no later name
strikes them, and later names are linked between them only. -/
theorem linkNames_eq_join {links : Keyed Text} {earlier later : List (Text × Text)}
    {name target : Text} (order : links.mergeSort goesFirst = earlier ++ (name, target) :: later)
    (unstruck : ∀ entry ∈ later, ¬Strikes entry.1 target) (s : Text) :
    linkNames links s =
      Text.join target ((between name (linkInOrder earlier s)).map (linkInOrder later)) := by
  rw [linkNames_split order, linkInOrder_join unstruck (isWoven_between name _)]

end Docblock.Document
