import Docblock.Markdown.Slug
import Docblock.Proofs.Text.LowerCase

/-!
# The shape of slugs

Every title has a slug of one shape: small Latin letters and digits with single hyphens between
them. The texts of this shape are those that are their own slugs, so the slug of a slug is that
slug. Two slugs with a hyphen between them are a slug again, and so is a slug with a number behind
it.

A slug may also be made in stages: a title is trimmed and put in lower case, a hyphen takes the
place of each run of other characters, one hyphen that of each run of hyphens, and hyphens are cut
off at the ends. Both ways keep the same runs of small letters and digits, whatever a lower case
makes of letters of other alphabets.
-/

namespace Docblock

/-- Puts one text in the place of every longest run of characters of a class. -/
def Text.replaceRuns (p : Char → Bool) (new : Text) : Text → Text
  | [] => []
  | c :: rest =>
    if p c then new ++ replaceRuns p new (rest.dropWhile p) else c :: replaceRuns p new rest
termination_by s => s.length
decreasing_by
  · exact Nat.lt_succ_of_le (List.dropWhile_sublist _).length_le
  · simp

namespace Markdown

/-- Small Latin letters and digits with single hyphens between them. -/
structure IsSlug (s : Text) : Prop where
  nonempty : s ≠ []
  /-- There are only small letters and digits of the basic Latin alphabet, and hyphens. -/
  plain : ∀ c ∈ s, ('a' ≤ c ∧ c ≤ 'z') ∨ ('0' ≤ c ∧ c ≤ '9') ∨ c = '-'
  /-- No hyphen stands at an end. -/
  ends : Text.IsClear (· == '-') s
  /-- No two hyphens stand together. -/
  single : ¬['-', '-'] <:+: s

/-- The code points of small letters, digits and the hyphen. -/
def slugCodes : List Nat := List.range' 97 26 ++ List.range' 48 10 ++ [45]

/-- A title in lower case with one hyphen in the place of each run of other characters, and then
with one hyphen in the place of each run of hyphens. -/
def hyphenated (title : Text) : Text :=
  Text.replaceRuns (· == '-') ['-']
    (Text.replaceRuns (!isSlugChar ·) ['-'] (Text.lower (Text.trim title)))

/-- The slug of a title in stages. -/
def slugInStages (title : Text) : Text :=
  let trimmed := Text.trimWhile (· == '-') (hyphenated title)
  if trimmed = [] then "section".toList else trimmed

variable {s front back : Text} {parts : List Text}

section Shape

/-- A character between the hyphens of a slug is a small letter or a digit. -/
theorem isSlugChar_iff {c : Char} :
    isSlugChar c = true ↔ ('a' ≤ c ∧ c ≤ 'z') ∨ ('0' ≤ c ∧ c ≤ '9') := by
  simp [isSlugChar]

/-- A hyphen is no character between hyphens. -/
theorem isSlugChar_hyphen : isSlugChar '-' = false := by decide

/-- What all small letters, digits and the hyphen have, the characters of a slug have. -/
theorem IsSlug.forall_mem {holds : Char → Prop} (isSlug : IsSlug s)
    (all : ∀ n ∈ slugCodes, holds (Char.ofNat n)) : ∀ c ∈ s, holds c := by
  intro c inside
  have code : c.toNat ∈ slugCodes := by
    rw [slugCodes, List.mem_append, List.mem_append, List.mem_range'_1, List.mem_range'_1,
      List.mem_singleton]
    rcases isSlug.plain c inside with ⟨first, last⟩ | ⟨first, last⟩ | rfl
    · have start : 97 ≤ c.toNat := first
      have ending : c.toNat ≤ 122 := last
      omega
    · have start : 48 ≤ c.toNat := first
      have ending : c.toNat ≤ 57 := last
      omega
    · decide
  rw [← Char.ofNat_toNat c]
  exact all _ code

/-- Two hyphens that stand together in a text stand at its front or behind its first character. -/
theorem hyphens_infix_cons {c : Char} :
    ['-', '-'] <:+: c :: s ↔ (c = '-' ∧ s.head? = some '-') ∨ ['-', '-'] <:+: s := by
  have front : ['-'] <+: s ↔ s.head? = some '-' := by
    cases s with
    | nil => simp
    | cons d more => simp [List.cons_prefix_cons, eq_comm]
  rw [List.infix_cons_iff, List.cons_prefix_cons, front, eq_comm]

/-- A text of small letters and digits that is not empty is a slug. -/
theorem isSlug_of_run (nonempty : s ≠ []) (run : ∀ c ∈ s, isSlugChar c = true) : IsSlug s where
  nonempty
  plain c inside := (isSlugChar_iff.mp (run c inside)).imp_right .inl
  ends := by
    apply Text.isClear_of_forall
    intro c inside
    rw [beq_eq_false_iff_ne]
    rintro rfl
    exact absurd (run _ inside) (by decide)
  single within := absurd (run '-' (within.subset List.mem_cons_self)) (by decide)

/-- Hyphens stand together in neither part of a text, and none stands where the parts meet a
hyphen between them: then they stand together nowhere. -/
theorem not_hyphens_infix_append (single : ¬['-', '-'] <:+: front)
    (ends : front.getLast? ≠ some '-') (starts : back.head? ≠ some '-')
    (others : ¬['-', '-'] <:+: back) : ¬['-', '-'] <:+: front ++ '-' :: back := by
  induction front with
  | nil =>
    rw [List.nil_append, hyphens_infix_cons]
    rintro (⟨-, first⟩ | later)
    · exact starts first
    · exact others later
  | cons c more inductionHypothesis =>
    rw [hyphens_infix_cons, not_or] at single
    rw [List.cons_append, hyphens_infix_cons]
    rintro (⟨hyphen, first⟩ | later)
    · cases more with
      | nil => exact ends (by simp [hyphen])
      | cons d others => exact single.1 ⟨hyphen, by simpa using first⟩
    · cases more with
      | nil => exact inductionHypothesis single.2 (by simp) later
      | cons d others => exact inductionHypothesis single.2 (by simpa using ends) later

/-- Two slugs with a hyphen between them are a slug. -/
theorem IsSlug.append (first : IsSlug front) (second : IsSlug back) :
    IsSlug (front ++ '-' :: back) where
  nonempty := by simp
  plain := by
    intro c member
    rcases List.mem_append.mp member with inside | behind
    · exact first.plain c inside
    · rcases List.mem_cons.mp behind with rfl | inside
      · exact .inr (.inr rfl)
      · exact second.plain c inside
  ends := by
    rintro c (start | ending)
    · rw [List.head?_append_of_ne_nil _ first.nonempty] at start
      exact first.ends c (.inl start)
    · rw [List.getLast?_append_of_ne_nil _ (List.cons_ne_nil _ _),
        List.getLast?_cons_of_ne_nil second.nonempty] at ending
      exact second.ends c (.inr ending)
  single := by
    apply not_hyphens_infix_append first.single _ _ second.single
    · intro ending
      exact absurd (first.ends '-' (.inr ending)) (by decide)
    · intro start
      exact absurd (second.ends '-' (.inl start)) (by decide)

/-- Runs of small letters and digits with hyphens between them are a slug. -/
theorem isSlug_join (nonempty : parts ≠ [])
    (runs : ∀ part ∈ parts, part ≠ [] ∧ ∀ c ∈ part, isSlugChar c = true) :
    IsSlug (Text.join ['-'] parts) := by
  induction parts with
  | nil => exact absurd rfl nonempty
  | cons part others inductionHypothesis =>
    obtain ⟨⟨filled, run⟩, later⟩ := List.forall_mem_cons.mp runs
    have first := isSlug_of_run filled run
    cases others with
    | nil => exact first
    | cons next more =>
      have second := inductionHypothesis (List.cons_ne_nil next more) later
      rw [Text.join, List.append_assoc]
      exact first.append second

/-- The slug of a title has the shape of a slug. -/
theorem isSlug_slug (title : Text) : IsSlug (slug title) := by
  unfold slug
  split
  · exact isSlug_of_run (List.cons_ne_nil _ _) (Text.forall_mem (by decide))
  · rename_i nonempty
    apply isSlug_join nonempty
    intro part listed
    exact ⟨Text.ne_nil_of_mem_runs listed, Text.forall_mem_runs _ _ part listed⟩

end Shape

section Fixed

/-- A slug is its own lower case. -/
theorem IsSlug.lower_eq (isSlug : IsSlug s) : Text.lower s = s :=
  Text.lower_of_small (isSlug.forall_mem (by decide))

/-- What stands behind a hyphen of a slug is a slug. -/
theorem IsSlug.behind (isSlug : IsSlug (front ++ '-' :: back)) : IsSlug back where
  nonempty := by
    rintro rfl
    exact absurd (isSlug.ends '-' (.inr (by simp))) (by decide)
  plain c inside := isSlug.plain c (by simp [inside])
  ends := by
    rintro c (start | ending)
    · rw [beq_eq_false_iff_ne]
      rintro rfl
      obtain ⟨more, rfl⟩ := List.head?_eq_some_iff.mp start
      exact isSlug.single ⟨front, more, by simp⟩
    · apply isSlug.ends c (.inr _)
      rw [List.getLast?_append_of_ne_nil _ (List.cons_ne_nil _ _)]
      cases back with
      | nil => simp at ending
      | cons d more => simpa using ending
  single within := isSlug.single (within.trans ⟨front ++ ['-'], [], by simp⟩)

/-- A slug is its first run of small letters and digits, or it has a hyphen and another slug
behind that run. -/
theorem IsSlug.exists_run (isSlug : IsSlug s) : ∃ run behind, s = run ++ behind ∧
    Text.runs isSlugChar s = run :: Text.runs isSlugChar behind ∧
    (behind = [] ∨ ∃ back, behind = '-' :: back ∧ IsSlug back) := by
  obtain ⟨c, more, rfl⟩ := List.exists_cons_of_ne_nil isSlug.nonempty
  have plain : ∀ d ∈ c :: more, d ≠ '-' → isSlugChar d = true := by
    intro d inside other
    apply isSlugChar_iff.mpr
    exact (isSlug.plain d inside).imp_right fun digit => digit.resolve_right other
  have first : isSlugChar c = true := by
    apply plain c List.mem_cons_self
    simpa using isSlug.ends c (.inl rfl)
  have whole : c :: more =
      (c :: more.takeWhile isSlugChar) ++ more.dropWhile isSlugChar := by
    rw [List.cons_append, List.takeWhile_append_dropWhile]
  refine ⟨c :: more.takeWhile isSlugChar, more.dropWhile isSlugChar, whole, ?_, ?_⟩
  · rw [Text.runs, if_pos first]
  · cases gap : more.dropWhile isSlugChar with
    | nil => exact .inl rfl
    | cons d back =>
      rw [gap] at whole
      have stops : isSlugChar d = false := Text.head?_dropWhile (by rw [gap]; rfl)
      obtain rfl : d = '-' := by
        by_contra other
        rw [plain d (by rw [whole]; simp) other] at stops
        cases stops
      rw [whole] at isSlug
      exact .inr ⟨back, rfl, isSlug.behind⟩

/-- The runs of a slug with hyphens between them are the slug. -/
theorem IsSlug.join_runs (isSlug : IsSlug s) : Text.join ['-'] (Text.runs isSlugChar s) = s := by
  induction size : s.length using Nat.strong_induction_on generalizing s with
  | _ length inductionHypothesis =>
    obtain ⟨run, behind, rfl, split, rfl | ⟨back, rfl, later⟩⟩ := isSlug.exists_run
    · rw [split, Text.runs, Text.join, List.append_nil]
    · have shorter : back.length < length := by
        rw [← size, List.length_append, List.length_cons]
        omega
      have others := inductionHypothesis _ shorter later rfl
      rw [split, Text.runs, if_neg (by decide)]
      cases runs : Text.runs isSlugChar back with
      | nil =>
        rw [runs] at others
        exact absurd others.symm later.nonempty
      | cons next more =>
        rw [runs] at others
        rw [Text.join, others, List.append_assoc]
        rfl

/-- A slug with the runs of a title in lower case is the slug of the title. -/
theorem IsSlug.slug_eq_of_runs (isSlug : IsSlug s) {title : Text}
    (same : Text.runs isSlugChar s = Text.runs isSlugChar (Text.lower title)) :
    slug title = s := by
  have whole := isSlug.join_runs
  rw [same] at whole
  rw [slug]
  split
  · rename_i nothing
    rw [nothing] at whole
    exact absurd whole.symm isSlug.nonempty
  · exact whole

/-- A text of the shape of slugs is its own slug. -/
theorem IsSlug.slug_eq (isSlug : IsSlug s) : slug s = s :=
  isSlug.slug_eq_of_runs (by rw [isSlug.lower_eq])

/-- The texts that are their own slugs are those of the shape of slugs. -/
theorem slug_eq_self_iff : slug s = s ↔ IsSlug s :=
  ⟨fun same => same ▸ isSlug_slug s, IsSlug.slug_eq⟩

instance (s : Text) : Decidable (IsSlug s) := decidable_of_iff _ slug_eq_self_iff

/-- Hyphens are single. -/
example : IsSlug "class-foo-2".toList ∧ ¬IsSlug "class--foo".toList := by decide +kernel

end Fixed

section Stages

variable {p q : Char → Bool} {new : Text} {c : Char}

/-- Where runs gave way to a text, each character is of no such run or of the new text. -/
theorem mem_replaceRuns (member : c ∈ Text.replaceRuns q new s) :
    (c ∈ s ∧ q c = false) ∨ c ∈ new := by
  revert member
  fun_induction Text.replaceRuns q new s with
  | case1 => exact fun member => absurd member List.not_mem_nil
  | case2 d rest inside inductionHypothesis =>
    intro member
    rcases List.mem_append.mp member with put | later
    · exact .inr put
    · refine (inductionHypothesis later).imp_left fun ⟨known, other⟩ => ⟨?_, other⟩
      exact List.mem_cons_of_mem d ((List.dropWhile_sublist q).subset known)
  | case3 d rest outside inductionHypothesis =>
    intro member
    rcases List.mem_cons.mp member with rfl | later
    · exact .inl ⟨List.mem_cons_self, by simpa using outside⟩
    · exact (inductionHypothesis later).imp_left fun ⟨known, other⟩ =>
        ⟨List.mem_cons_of_mem d known, other⟩

/-- A character that does not give way stays. -/
theorem replaceRuns_cons_of_kept (kept : q c = false) (rest : Text) :
    Text.replaceRuns q new (c :: rest) = c :: Text.replaceRuns q new rest := by
  rw [Text.replaceRuns, if_neg (by simp [kept])]

/-- Where a hyphen is put in the place of other characters only, what starts with none of a run
does so afterwards. -/
theorem exists_replaceRuns_cons (hyphen : p '-' = false) (outside : p c = false) (rest : Text) :
    ∃ d more, p d = false ∧ Text.replaceRuns q ['-'] (c :: rest) = d :: more := by
  rw [Text.replaceRuns]
  split
  · exact ⟨'-', _, hyphen, rfl⟩
  · exact ⟨c, _, outside, rfl⟩

/-- Where a hyphen is put in the place of other characters only, the run at the front of a text
stays. -/
theorem takeWhile_replaceRuns (hyphen : p '-' = false) (kept : ∀ c, p c = true → q c = false)
    (s : Text) : (Text.replaceRuns q ['-'] s).takeWhile p = s.takeWhile p := by
  induction s with
  | nil => rw [Text.replaceRuns]
  | cons c rest inductionHypothesis =>
    by_cases inside : p c = true
    · rw [replaceRuns_cons_of_kept (kept c inside), List.takeWhile_cons_of_pos inside,
        List.takeWhile_cons_of_pos inside, inductionHypothesis]
    · obtain ⟨d, more, stops, put⟩ :=
        exists_replaceRuns_cons (q := q) hyphen (eq_false_of_ne_true inside) rest
      rw [put, List.takeWhile_cons_of_neg inside, List.takeWhile_cons_of_neg (by simp [stops])]

/-- Where a hyphen is put in the place of other characters only, that is done behind the run at
the front of a text. -/
theorem dropWhile_replaceRuns (hyphen : p '-' = false) (kept : ∀ c, p c = true → q c = false)
    (s : Text) : (Text.replaceRuns q ['-'] s).dropWhile p =
      Text.replaceRuns q ['-'] (s.dropWhile p) := by
  induction s with
  | nil => simp [Text.replaceRuns]
  | cons c rest inductionHypothesis =>
    by_cases inside : p c = true
    · rw [replaceRuns_cons_of_kept (kept c inside), List.dropWhile_cons_of_pos inside,
        List.dropWhile_cons_of_pos inside, inductionHypothesis]
    · obtain ⟨d, more, stops, put⟩ :=
        exists_replaceRuns_cons (q := q) hyphen (eq_false_of_ne_true inside) rest
      rw [List.dropWhile_cons_of_neg inside, put, List.dropWhile_cons_of_neg (by simp [stops])]

/-- A hyphen in the place of the first run is no part of the runs of another class. -/
theorem runs_replaceRuns_dropWhile (hyphen : p '-' = false) (s : Text) :
    Text.runs p (Text.replaceRuns q ['-'] (s.dropWhile q)) =
      Text.runs p (Text.replaceRuns q ['-'] s) := by
  cases s with
  | nil => rfl
  | cons c rest =>
    by_cases gone : q c = true
    · rw [List.dropWhile_cons_of_pos gone]
      conv_rhs => rw [Text.replaceRuns, if_pos gone, List.singleton_append, Text.runs,
        if_neg (by simp [hyphen])]
    · rw [List.dropWhile_cons_of_neg gone]

/-- Where a hyphen is put in the place of other characters only, the runs of a text stay. -/
theorem runs_replaceRuns (hyphen : p '-' = false) (kept : ∀ c, p c = true → q c = false)
    (s : Text) : Text.runs p (Text.replaceRuns q ['-'] s) = Text.runs p s := by
  fun_induction Text.runs p s with
  | case1 => rw [Text.replaceRuns, Text.runs]
  | case2 c rest inside inductionHypothesis =>
    rw [replaceRuns_cons_of_kept (kept c inside), Text.runs, if_pos inside,
      takeWhile_replaceRuns hyphen kept, dropWhile_replaceRuns hyphen kept, inductionHypothesis]
  | case3 c rest outside inductionHypothesis =>
    rw [← inductionHypothesis, Text.replaceRuns]
    split
    · rw [List.singleton_append, Text.runs, if_neg (by simp [hyphen]),
        runs_replaceRuns_dropWhile hyphen]
    · rw [Text.runs, if_neg outside]

/-- After runs of hyphens gave way to one hyphen, no hyphens stand together. -/
theorem not_hyphens_infix_replaceRuns (s : Text) :
    ¬['-', '-'] <:+: Text.replaceRuns (· == '-') ['-'] s := by
  fun_induction Text.replaceRuns (· == '-') ['-'] s with
  | case1 => simp
  | case2 c rest inside inductionHypothesis =>
    rw [List.singleton_append, hyphens_infix_cons]
    rintro (⟨-, first⟩ | later)
    · cases gap : rest.dropWhile (· == '-') with
      | nil => simp [gap, Text.replaceRuns] at first
      | cons d more =>
        have stops : (d == '-') = false :=
          Text.head?_dropWhile (p := (· == '-')) (by rw [gap]; rfl)
        rw [gap, replaceRuns_cons_of_kept (q := (· == '-')) stops, List.head?_cons,
          Option.some.injEq] at first
        rw [first] at stops
        exact absurd stops (by decide)
    · exact inductionHypothesis later
  | case3 c rest outside inductionHypothesis =>
    rw [hyphens_infix_cons]
    rintro (⟨rfl, -⟩ | later)
    · exact outside rfl
    · exact inductionHypothesis later

/-- White space around a title is no part of its runs of small letters and digits. -/
theorem runs_lower_trim (title : Text) :
    Text.runs isSlugChar (Text.lower (Text.trim title)) =
      Text.runs isSlugChar (Text.lower title) := by
  obtain ⟨front, back, before, behind, whole⟩ := Text.exists_trimWhile Text.isBlank title
  have other {part : Text} (blank : ∀ c ∈ part, Text.isBlank c = true) :
      ∀ c ∈ part, isSlugChar c = false := fun c inside =>
    Text.eq_false_of_isBlank (by decide) (blank c inside)
  conv_rhs => rw [whole, Text.lower_between before behind, Text.runs_append_back (other behind),
    Text.runs_append_front (other before)]
  rfl

/-- The stages after the lower case keep the runs of small letters and digits. -/
theorem runs_stages (title : Text) :
    Text.runs isSlugChar (Text.trimWhile (· == '-') (hyphenated title)) =
      Text.runs isSlugChar (Text.lower title) := by
  have hyphenOutside : ∀ c, (c == '-') = true → isSlugChar c = false := by
    intro c hyphen
    rw [eq_of_beq hyphen]
    exact isSlugChar_hyphen
  have hyphenKept : ∀ c, isSlugChar c = true → (c == '-') = false := by
    intro c inside
    by_contra hyphen
    rw [hyphenOutside c (by simpa using hyphen)] at inside
    cases inside
  have otherKept : ∀ c, isSlugChar c = true → (!isSlugChar c) = false := by simp
  rw [Text.runs_trimWhile hyphenOutside, hyphenated, runs_replaceRuns isSlugChar_hyphen hyphenKept,
    runs_replaceRuns isSlugChar_hyphen otherKept, runs_lower_trim]

/-- Nothing but small letters, digits and hyphens is left of a title. -/
theorem plain_hyphenated (title : Text) :
    ∀ c ∈ hyphenated title, isSlugChar c = true ∨ c = '-' := by
  intro c member
  rcases mem_replaceRuns member with ⟨inside, -⟩ | put
  · rcases mem_replaceRuns inside with ⟨-, kept⟩ | put
    · exact .inl (by simpa using kept)
    · exact .inr (List.mem_singleton.mp put)
  · exact .inr (List.mem_singleton.mp put)

/-- What is left of a title after all stages is a slug, if anything is. -/
theorem isSlug_trimHyphens {title : Text}
    (nonempty : Text.trimWhile (· == '-') (hyphenated title) ≠ []) :
    IsSlug (Text.trimWhile (· == '-') (hyphenated title)) := by
  have plain := plain_hyphenated title
  have single := not_hyphens_infix_replaceRuns
    (Text.replaceRuns (!isSlugChar ·) ['-'] (Text.lower (Text.trim title)))
  obtain ⟨front, back, -, -, whole⟩ := Text.exists_trimWhile (· == '-') (hyphenated title)
  have within : Text.trimWhile (· == '-') (hyphenated title) <:+: hyphenated title :=
    ⟨front, back, whole.symm⟩
  exact {
    nonempty
    plain := by
      intro c inside
      have known := plain c (within.subset inside)
      rwa [isSlugChar_iff, or_assoc] at known
    ends := Text.isClear_trimWhile _ _
    single := fun together => single (together.trans within) }

/-- The slug of a title is the one that is made in stages. -/
theorem slug_eq_slugInStages (title : Text) : slug title = slugInStages title := by
  have same := runs_stages title
  rw [slugInStages]
  split
  · rename_i empty
    rw [empty] at same
    rw [slug, ← same, Text.runs]
  · rename_i nonempty
    exact (isSlug_trimHyphens nonempty).slug_eq_of_runs same

/-- A lower case may make a Latin letter of another one, with an accent of its own behind it. -/
example : slug "\u0130\u212A  2".toList = "i-k-2".toList := by decide +kernel

end Stages
end Markdown
end Docblock
