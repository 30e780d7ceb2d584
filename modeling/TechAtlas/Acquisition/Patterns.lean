import TechAtlas.Acquisition.Robots

set_option autoImplicit false

/- What a robots.txt pattern demands of a path, and the paths on which the
matcher's leftmost search answers something else. -/
namespace TechAtlas.Acquisition

open Library

section Form

/-- The whole text has the form of the pattern: a star stands for any text and
every other character for itself. -/
inductive HasForm : Text → Text → Prop
  | nil : HasForm [] []
  | star {pattern rest : Text} (skipped : Text) (form : HasForm pattern rest) :
      HasForm ('*' :: pattern) (skipped ++ rest)
  | literal {c : Char} {pattern rest : Text} (plain : c ≠ '*') (form : HasForm pattern rest) :
      HasForm (c :: pattern) (c :: rest)

/-- A beginning of the path has the form, and `rest` follows it. -/
def LeavesForm (pattern path rest : Text) : Prop :=
  ∃ start, path = start ++ rest ∧ HasForm pattern start

/-- The reference meaning of a pattern: a final dollar sign asks for the whole
path, and without it any continuation is allowed. -/
def Demands (pattern path : Text) : Prop :=
  if pattern.getLast? = some '$' then HasForm pattern.dropLast path
  else ∃ rest, LeavesForm pattern path rest

theorem hasForm_append {first second text : Text} :
    HasForm (first ++ second) text ↔
      ∃ left right, text = left ++ right ∧ HasForm first left ∧ HasForm second right := by
  induction first generalizing text with
  | nil =>
      constructor
      · intro form
        exact ⟨[], text, rfl, .nil, form⟩
      · rintro ⟨left, right, rfl, form, others⟩
        cases form
        exact others
  | cons c first ih =>
      constructor
      · intro form
        cases form with
        | star skipped form =>
            obtain ⟨left, right, rfl, own, others⟩ := ih.mp form
            exact ⟨skipped ++ left, right, (List.append_assoc _ _ _).symm, .star skipped own, others⟩
        | literal plain form =>
            obtain ⟨left, right, rfl, own, others⟩ := ih.mp form
            exact ⟨c :: left, right, rfl, .literal plain own, others⟩
      · rintro ⟨left, right, rfl, form, others⟩
        cases form with
        | star skipped form =>
            rw [List.append_assoc]
            exact .star skipped (ih.mpr ⟨_, _, rfl, form, others⟩)
        | literal plain form => exact .literal plain (ih.mpr ⟨_, _, rfl, form, others⟩)

/-- Without a star only the pattern itself has its form. -/
theorem hasForm_plain {pattern text : Text} (plain : '*' ∉ pattern) :
    HasForm pattern text ↔ text = pattern := by
  induction pattern generalizing text with
  | nil =>
      constructor
      · intro form
        cases form
        rfl
      · rintro rfl
        exact .nil
  | cons c pattern ih =>
      rw [List.mem_cons, not_or] at plain
      constructor
      · intro form
        cases form with
        | star => exact absurd rfl plain.1
        | literal _ form => rw [(ih plain.2).mp form]
      · rintro rfl
        exact .literal (Ne.symm plain.1) ((ih plain.2).mpr rfl)

theorem hasForm_star {text : Text} : HasForm ['*'] text := by
  have form : HasForm ['*'] (text ++ []) := .star text .nil
  rwa [List.append_nil] at form

/-- A form that ends in a star goes on as long as the text does. -/
theorem hasForm_of_leavesForm {pattern path rest : Text} (last : pattern.getLast? = some '*')
    (leaves : LeavesForm pattern path rest) : HasForm pattern path := by
  obtain ⟨start, rfl, form⟩ := leaves
  obtain ⟨before, rfl⟩ := List.getLast?_eq_some_iff.mp last
  obtain ⟨left, right, rfl, own, _⟩ := hasForm_append.mp form
  exact hasForm_append.mpr ⟨left, right ++ rest, List.append_assoc _ _ _, own, hasForm_star⟩

end Form

section Segments

/-- After the segments, each found behind the one before it, `rest` is left. -/
inductive Leaves : List Text → Text → Text → Prop
  | nil (rest : Text) : Leaves [] rest rest
  | cons {segments : List Text} {after rest : Text} (skipped segment : Text)
      (later : Leaves segments after rest) :
      Leaves (segment :: segments) (skipped ++ segment ++ after) rest

theorem splitOn_cons (c : Char) (pattern : Text) :
    ∃ first others, pattern.splitOn '*' = first :: others ∧
      (c :: pattern).splitOn '*' =
        if c = '*' then [] :: first :: others else (c :: first) :: others := by
  obtain ⟨first, others, split⟩ := List.exists_cons_of_ne_nil
    (List.splitOnP_ne_nil (fun d => d == '*') pattern)
  refine ⟨first, others, split, ?_⟩
  change (c :: pattern).splitOnP (fun d => d == '*') = _
  rw [List.splitOnP_cons_eq_if_modifyHead, split]
  by_cases star : c = '*'
  · rw [if_pos star, if_pos (beq_iff_eq.mpr star)]
  · rw [if_neg star, if_neg (by rwa [beq_iff_eq])]
    rfl

/-- The form of a pattern in terms of the segments between its stars. -/
theorem leavesForm_iff {pattern path rest first : Text} {others : List Text}
    (split : pattern.splitOn '*' = first :: others) :
    LeavesForm pattern path rest ↔ ∃ after, path = first ++ after ∧ Leaves others after rest := by
  induction pattern generalizing path first others with
  | nil =>
      cases split
      constructor
      · rintro ⟨start, rfl, form⟩
        cases form
        exact ⟨rest, rfl, .nil rest⟩
      · rintro ⟨after, rfl, leaves⟩
        cases leaves
        exact ⟨[], rfl, .nil⟩
  | cons c pattern ih =>
      obtain ⟨head, tail, own, whole⟩ := splitOn_cons c pattern
      rw [split] at whole
      by_cases star : c = '*'
      · subst star
        rw [if_pos rfl] at whole
        obtain ⟨rfl, rfl⟩ := List.cons.inj whole
        constructor
        · rintro ⟨start, rfl, form⟩
          cases form with
          | literal plain => exact absurd rfl plain
          | @star _ kept skipped form =>
              obtain ⟨after, same, leaves⟩ := (ih own).mp ⟨kept, rfl, form⟩
              have whole : skipped ++ kept ++ rest = skipped ++ head ++ after := by
                rw [List.append_assoc, same, ← List.append_assoc]
              refine ⟨skipped ++ kept ++ rest, rfl, ?_⟩
              rw [whole]
              exact .cons skipped head leaves
        · rintro ⟨after, rfl, leaves⟩
          cases leaves with
          | cons skipped _ later =>
              obtain ⟨start, same, form⟩ := (ih own).mpr ⟨_, rfl, later⟩
              refine ⟨skipped ++ start, ?_, .star skipped form⟩
              change skipped ++ head ++ _ = _
              rw [List.append_assoc, same, List.append_assoc]
      · rw [if_neg star] at whole
        obtain ⟨rfl, rfl⟩ := List.cons.inj whole
        constructor
        · rintro ⟨start, rfl, form⟩
          cases form with
          | star => exact absurd rfl star
          | @literal _ _ kept _ form =>
              obtain ⟨after, same, leaves⟩ := (ih own).mp ⟨kept, rfl, form⟩
              exact ⟨after, congrArg (List.cons c) same, leaves⟩
        · rintro ⟨after, rfl, leaves⟩
          obtain ⟨start, same, form⟩ := (ih own).mpr ⟨after, rfl, leaves⟩
          exact ⟨c :: start, congrArg (List.cons c) same, .literal star form⟩

/-- What the search leaves is what the segments leave. -/
theorem leaves_of_matchSegments {segments : List Text} {text rest : Text}
    (found : matchSegments false segments text = some rest) : Leaves segments text rest := by
  induction segments generalizing text with
  | nil =>
      cases found
      exact .nil rest
  | cons segment segments ih =>
      unfold matchSegments at found
      by_cases empty : segment = []
      · rw [if_pos empty] at found
        subst empty
        exact .cons [] [] (ih found)
      · rw [if_neg empty, if_neg Bool.false_ne_true] at found
        split at found
        · cases found
        · rename_i before after split
          rw [splitOnce_eq_some split]
          exact .cons before segment (ih found)

/-- The induction behind the leftmost search: wherever the segments can be found,
it finds them, and what it leaves is no shorter. -/
theorem matchSegments_of_leaves {segments : List Text} {text longer rest : Text}
    (leaves : Leaves segments text rest) (longest : text <:+ longer) :
    ∃ kept, matchSegments false segments longer = some kept ∧ rest <:+ kept := by
  induction leaves generalizing longer with
  | nil rest => exact ⟨longer, rfl, longest⟩
  | @cons segments after rest skipped segment later ih =>
      unfold matchSegments
      by_cases empty : segment = []
      · rw [if_pos empty]
        apply ih
        have shorter : after <:+ skipped ++ segment ++ after := List.suffix_append _ _
        exact shorter.trans longest
      · rw [if_neg empty, if_neg Bool.false_ne_true]
        obtain ⟨start, rfl⟩ := longest
        have same : start ++ (skipped ++ segment ++ after) =
            start ++ skipped ++ segment ++ after := by
          simp only [List.append_assoc]
        obtain ⟨before, others, split, kept⟩ := splitOnce_leftmost segment (start ++ skipped) after
        rw [same, split]
        exact ih kept

theorem matchSegments_first {first path rest : Text} {others : List Text} :
    matchSegments true (first :: others) path = some rest ↔
      ∃ after, path = first ++ after ∧ matchSegments false others after = some rest := by
  rw [matchSegments]
  by_cases empty : first = []
  · subst empty
    rw [if_pos rfl]
    constructor
    · intro found
      exact ⟨path, rfl, found⟩
    · rintro ⟨after, rfl, found⟩
      exact found
  · rw [if_neg empty, if_pos rfl]
    constructor
    · intro found
      split at found
      · rename_i starts
        obtain ⟨after, rfl⟩ := List.isPrefixOf_iff_prefix.mp starts
        rw [List.drop_left] at found
        exact ⟨after, rfl, found⟩
      · cases found
    · rintro ⟨after, rfl, found⟩
      rw [if_pos (List.isPrefixOf_iff_prefix.mpr (List.prefix_append first after)), List.drop_left]
      exact found

theorem leavesForm_of_match {pattern path rest : Text}
    (found : matchSegments true (pattern.splitOn '*') path = some rest) :
    LeavesForm pattern path rest := by
  obtain ⟨first, others, split⟩ := List.exists_cons_of_ne_nil
    (List.splitOnP_ne_nil (fun c => c == '*') pattern)
  have split' : pattern.splitOn '*' = first :: others := split
  rw [split'] at found
  obtain ⟨after, same, later⟩ := matchSegments_first.mp found
  exact (leavesForm_iff split').mpr ⟨after, same, leaves_of_matchSegments later⟩

theorem match_of_leavesForm {pattern path rest : Text} (leaves : LeavesForm pattern path rest) :
    ∃ kept, matchSegments true (pattern.splitOn '*') path = some kept ∧ rest <:+ kept := by
  obtain ⟨first, others, split⟩ := List.exists_cons_of_ne_nil
    (List.splitOnP_ne_nil (fun c => c == '*') pattern)
  have split' : pattern.splitOn '*' = first :: others := split
  obtain ⟨after, same, later⟩ := (leavesForm_iff split').mp leaves
  obtain ⟨kept, found, shorter⟩ := matchSegments_of_leaves later (List.suffix_refl after)
  rw [split']
  exact ⟨kept, matchSegments_first.mpr ⟨after, same, found⟩, shorter⟩

end Segments

section Matcher

theorem robotsPatternMatches_iff {pattern path : Text} :
    robotsPatternMatches pattern path = true ↔ ∃ rest,
      matchSegments true ((stripLast '$' pattern).splitOn '*') path = some rest ∧
        (pattern.getLast? = some '$' → (stripLast '$' pattern).getLast? ≠ some '*' → rest = []) := by
  dsimp only [robotsPatternMatches]
  cases found : matchSegments true ((stripLast '$' pattern).splitOn '*') path with
  | none => simp
  | some rest =>
      simp only [Option.some.injEq, exists_eq_left', Bool.or_eq_true, Bool.not_eq_true',
        decide_eq_false_iff_not, beq_iff_eq, List.isEmpty_iff]
      tauto

/-- The last segment of an anchored pattern, one that follows a star, stands at
the end of the path and also before it, both times behind a beginning that has
the form of what precedes the star. -/
def Repeats (pattern path : Text) : Prop :=
  ∃ before segment first last rest : Text,
    pattern = before ++ '*' :: segment ++ ['$'] ∧ segment ≠ [] ∧ '*' ∉ segment ∧
      (∃ skipped, LeavesForm before last skipped) ∧ path = last ++ segment ∧
      (∃ skipped, LeavesForm before first skipped) ∧ path = first ++ segment ++ rest ∧ rest ≠ []

theorem leavesForm_segment {before segment start skipped : Text} (plain : '*' ∉ segment)
    (leaves : LeavesForm before start skipped) (rest : Text) :
    LeavesForm (before ++ '*' :: segment) (start ++ segment ++ rest) rest := by
  obtain ⟨formed, rfl, form⟩ := leaves
  refine ⟨formed ++ skipped ++ segment, rfl, hasForm_append.mpr ⟨formed, skipped ++ segment, ?_,
    form, .star skipped ((hasForm_plain plain).mpr rfl)⟩⟩
  exact List.append_assoc _ _ _

theorem exists_leavesForm_of_segment {before segment path rest : Text} (plain : '*' ∉ segment)
    (leaves : LeavesForm (before ++ '*' :: segment) path rest) :
    ∃ start, (∃ skipped, LeavesForm before start skipped) ∧ path = start ++ segment ++ rest := by
  obtain ⟨whole, rfl, form⟩ := leaves
  obtain ⟨left, right, rfl, own, others⟩ := hasForm_append.mp form
  cases others with
  | literal star => exact absurd rfl star
  | star skipped last =>
      rw [(hasForm_plain plain).mp last]
      exact ⟨left ++ skipped, ⟨skipped, left, rfl, own⟩, by simp only [List.append_assoc]⟩

/-- A pattern that has a star is what precedes its last star and a plain segment. -/
theorem exists_last_star {pattern : Text} (star : '*' ∈ pattern) :
    ∃ before segment, pattern = before ++ '*' :: segment ∧ '*' ∉ segment := by
  induction pattern with
  | nil => cases star
  | cons c pattern ih =>
      by_cases later : '*' ∈ pattern
      · obtain ⟨before, segment, rfl, plain⟩ := ih later
        exact ⟨c :: before, segment, rfl, plain⟩
      · rcases List.mem_cons.mp star with rfl | inPattern
        · exact ⟨[], pattern, rfl, later⟩
        · exact absurd inPattern later

theorem getLast_segment {before segment : Text} (present : segment ≠ []) (plain : '*' ∉ segment) :
    (before ++ '*' :: segment).getLast? ≠ some '*' := by
  intro last
  have inSegment : segment.getLast? = some '*' := by
    rw [← last, List.getLast?_append, List.getLast?_cons]
    obtain ⟨c, own⟩ := Option.ne_none_iff_exists'.mp (mt List.getLast?_eq_none_iff.mp present)
    rw [own]
    rfl
  exact plain (List.mem_of_getLast? inSegment)

/-- On a path that repeats the last segment the pattern's demand is met, and the
matcher stops at the first occurrence. -/
theorem repeats_differ {pattern path : Text} (repeated : Repeats pattern path) :
    Demands pattern path ∧ robotsPatternMatches pattern path = false := by
  obtain ⟨before, segment, first, last, rest, rfl, present, plain, ⟨_, toLast⟩, atEnd,
    ⟨_, toFirst⟩, earlier, more⟩ := repeated
  have anchored : (before ++ '*' :: segment ++ ['$']).getLast? = some '$' :=
    List.getLast?_concat
  constructor
  · rw [Demands, if_pos anchored, List.dropLast_concat, atEnd]
    obtain ⟨start, same, form⟩ := leavesForm_segment plain toLast []
    rw [List.append_nil, List.append_nil] at same
    rw [same]
    exact form
  · rw [← Bool.not_eq_true, robotsPatternMatches_iff, stripLast_concat]
    rintro ⟨kept, found, stops⟩
    have own := leavesForm_segment plain toFirst rest
    rw [← earlier] at own
    obtain ⟨longest, found', shorter⟩ := match_of_leavesForm own
    rw [found] at found'
    rw [← Option.some.inj found', stops anchored (getLast_segment present plain)] at shorter
    exact more (List.suffix_nil.mp shorter)

theorem demands_of_robotsPatternMatches {pattern path : Text}
    (accepted : robotsPatternMatches pattern path = true) : Demands pattern path := by
  obtain ⟨rest, found, stops⟩ := robotsPatternMatches_iff.mp accepted
  have leaves := leavesForm_of_match found
  unfold Demands
  by_cases anchored : pattern.getLast? = some '$'
  · rw [if_pos anchored]
    have same : stripLast '$' pattern = pattern.dropLast := if_pos anchored
    rw [same] at leaves stops
    by_cases star : pattern.dropLast.getLast? = some '*'
    · exact hasForm_of_leavesForm star leaves
    · obtain ⟨start, path', form⟩ := leaves
      rw [stops anchored star, List.append_nil] at path'
      rw [path']
      exact form
  · rw [if_neg anchored]
    have same : stripLast '$' pattern = pattern := if_neg anchored
    rw [same] at leaves
    exact ⟨rest, leaves⟩

/-- Only a repeated last segment makes the matcher miss a path. -/
theorem robotsPatternMatches_of_demands {pattern path : Text} (demanded : Demands pattern path)
    (single : ¬ Repeats pattern path) : robotsPatternMatches pattern path = true := by
  rw [robotsPatternMatches_iff]
  unfold Demands at demanded
  by_cases anchored : pattern.getLast? = some '$'
  · rw [if_pos anchored] at demanded
    have same : stripLast '$' pattern = pattern.dropLast := if_pos anchored
    rw [same]
    have leaves : LeavesForm pattern.dropLast path [] := ⟨path, (List.append_nil path).symm, demanded⟩
    obtain ⟨kept, found, _⟩ := match_of_leavesForm leaves
    refine ⟨kept, found, fun _ notStar => ?_⟩
    by_contra more
    have others := leavesForm_of_match found
    by_cases star : '*' ∈ pattern.dropLast
    · obtain ⟨before, segment, split, plain⟩ := exists_last_star star
      have present : segment ≠ [] := by
        rintro rfl
        rw [split] at notStar
        exact notStar List.getLast?_concat
      rw [split] at leaves others
      obtain ⟨last, toLast, atEnd⟩ := exists_leavesForm_of_segment plain leaves
      obtain ⟨first, toFirst, earlier⟩ := exists_leavesForm_of_segment plain others
      rw [List.append_nil] at atEnd
      refine single ⟨before, segment, first, last, kept, ?_, present, plain, toLast, atEnd, toFirst,
        earlier, more⟩
      obtain ⟨start, whole⟩ := List.getLast?_eq_some_iff.mp anchored
      rw [whole, List.dropLast_concat] at split
      rw [whole, split]
    · obtain ⟨start, path', form⟩ := others
      rw [(hasForm_plain star).mp form] at path'
      rw [(hasForm_plain star).mp demanded] at path'
      exact more (List.append_right_eq_self.mp path'.symm)
  · rw [if_neg anchored] at demanded
    have same : stripLast '$' pattern = pattern := if_neg anchored
    rw [same]
    obtain ⟨rest, leaves⟩ := demanded
    obtain ⟨kept, found, _⟩ := match_of_leavesForm leaves
    exact ⟨kept, found, fun contradiction => absurd contradiction anchored⟩

/-- The matcher means what the pattern demands exactly on the paths that do not
repeat the last segment of an anchored pattern. -/
theorem robotsPatternMatches_exact (pattern path : Text) :
    (robotsPatternMatches pattern path = true ↔ Demands pattern path) ↔
      ¬ Repeats pattern path := by
  constructor
  · intro same repeated
    obtain ⟨demanded, missed⟩ := repeats_differ repeated
    rw [same.mpr demanded] at missed
    cases missed
  · intro single
    exact ⟨demands_of_robotsPatternMatches, fun demanded =>
      robotsPatternMatches_of_demands demanded single⟩

/-- A script below a directory that is named like one is not matched. -/
theorem robotsPatternMatches_misses :
    ¬ ∀ pattern path, robotsPatternMatches pattern path = true ↔ Demands pattern path := by
  intro always
  have missed : robotsPatternMatches "/*.php$".toList "/a.php/b.php".toList = false := by decide
  have demanded : Demands "/*.php$".toList "/a.php/b.php".toList := by
    have whole : HasForm "/*.php".toList "/a.php/b.php".toList :=
      .literal (by decide) (.star "a.php/b".toList ((hasForm_plain (by decide)).mpr rfl))
    exact whole
  rw [(always _ _).mpr demanded] at missed
  cases missed

end Matcher

end TechAtlas.Acquisition
