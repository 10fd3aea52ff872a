/-
Module: Gateway.Proofs.Patterns
Layer: Proofs
Purpose: A text is read as a pattern exactly if it is the written form of that pattern
  (`Pattern.parse_eq_ok_iff`).  A well formed segment holds no slash, so cutting a written pattern
  at its slashes gives its segments back.  Any other text is refused with the first rule of the
  grammar that it breaks (`Pattern.parse_eq_error_iff`).
Main exports: splitOn_append, splitOn_joinWith, not_mem_of_mem_splitOn, flatMap_splitOn,
  splitOn_of_flatMap, Route.Segment.text_of_parse, Route.Segment.parse_text,
  Route.Pattern.parse_eq_ok_iff, Route.Segment.parse_eq_error_iff,
  Route.Pattern.ofSegments_eq_error_iff, Route.Pattern.parse_eq_error_iff
-/
import Gateway.Route.Grammar

namespace Gateway

/-! ### Cutting at a separator -/

section Split

variable {α : Type} [BEq α] [LawfulBEq α] {separator : α}

theorem splitOn_of_not_mem {piece : List α} (h : separator ∉ piece) :
    splitOn separator piece = [piece] := by
  induction piece with
  | nil => rfl
  | cons a piece ih =>
      rw [List.mem_cons, not_or] at h
      have hne : ¬ (a == separator) = true := by simpa using Ne.symm h.1
      rw [splitOn, if_neg hne, ih h.2]

theorem splitOn_append {piece : List α} (h : separator ∉ piece) (rest : List α) :
    splitOn separator (piece ++ separator :: rest) = piece :: splitOn separator rest := by
  induction piece with
  | nil => simp [splitOn]
  | cons a piece ih =>
      rw [List.mem_cons, not_or] at h
      have hne : ¬ (a == separator) = true := by simpa using Ne.symm h.1
      rw [List.cons_append, splitOn, if_neg hne, ih h.2]

/-- Pieces that were joined are cut apart again. -/
theorem splitOn_joinWith {pieces : List (List α)} (hne : pieces ≠ [])
    (h : ∀ piece ∈ pieces, separator ∉ piece) :
    splitOn separator (joinWith separator pieces) = pieces := by
  induction pieces with
  | nil => exact absurd rfl hne
  | cons piece pieces ih =>
      rw [List.forall_mem_cons] at h
      cases pieces with
      | nil => exact splitOn_of_not_mem h.1
      | cons next pieces =>
          rw [joinWith, splitOn_append h.1, ih (List.cons_ne_nil _ _) h.2]

/-- No piece holds the separator. -/
theorem not_mem_of_mem_splitOn {s piece : List α} (h : piece ∈ splitOn separator s) :
    separator ∉ piece := by
  induction s generalizing piece with
  | nil => simp_all [splitOn]
  | cons a rest ih =>
      rw [splitOn] at h
      split at h
      · rcases List.mem_cons.1 h with rfl | h
        · exact List.not_mem_nil
        · exact ih h
      · rename_i hne
        split at h
        · rename_i hnil
          exact absurd hnil (splitOn_ne_nil separator rest)
        · rename_i first pieces hsplit
          rcases List.mem_cons.1 h with rfl | h
          · have hfirst := ih (hsplit ▸ List.mem_cons_self)
            have ha : separator ≠ a := by simpa using Ne.symm (by simpa using hne : a ≠ separator)
            exact List.not_mem_cons_of_ne_of_not_mem ha hfirst
          · exact ih (hsplit ▸ List.mem_cons_of_mem _ h)

/-- The pieces with a separator in front of each are the whole again. -/
theorem flatMap_splitOn (s : List α) :
    (splitOn separator s).flatMap (separator :: ·) = separator :: s := by
  induction s with
  | nil => rfl
  | cons a rest ih =>
      rw [splitOn]
      split
      · rename_i heq
        rw [List.flatMap_cons, ih, beq_iff_eq.1 heq]
        rfl
      · split
        · rename_i hnil
          exact absurd hnil (splitOn_ne_nil separator rest)
        · rename_i piece pieces hsplit
          rw [hsplit, List.flatMap_cons] at ih
          rw [List.flatMap_cons]
          simp only [List.cons_append, List.cons.injEq, true_and] at ih ⊢
          exact ih

/-- What has a separator in front of each of its pieces is cut into these pieces. -/
theorem splitOn_of_flatMap {pieces : List (List α)} {s : List α}
    (h : ∀ piece ∈ pieces, separator ∉ piece)
    (hs : pieces.flatMap (separator :: ·) = separator :: s) : splitOn separator s = pieces := by
  induction pieces generalizing s with
  | nil => cases hs
  | cons piece pieces ih =>
      have hpiece := h piece List.mem_cons_self
      simp only [List.flatMap_cons, List.cons_append, List.cons.injEq, true_and] at hs
      subst hs
      cases pieces with
      | nil =>
          rw [List.flatMap_nil, List.append_nil]
          exact splitOn_of_not_mem hpiece
      | cons next pieces =>
          have hrest : splitOn separator (next ++ pieces.flatMap (separator :: ·)) =
              next :: pieces :=
            ih (fun p hp => h p (List.mem_cons_of_mem _ hp)) rfl
          rw [List.flatMap_cons, List.cons_append, splitOn_append hpiece, hrest]

end Split

namespace Route

/-! ### Segments -/

theorem isBrace_iff {c : Char} : isBrace c = true ↔ c = '{' ∨ c = '}' := by
  simp [isBrace]

theorem isName_iff {name : List Char} :
    isName name = true ↔ name ≠ [] ∧ ∀ c ∈ name, c ≠ '{' ∧ c ≠ '}' ∧ c ≠ '*' := by
  simp [isName, isBrace, not_or, and_assoc]

theorem plainName_iff {name : List Char} (h : '/' ∉ name) :
    isName name = true ↔ PlainName name := by
  rw [isName_iff, PlainName]
  refine and_congr_right fun _ => forall₂_congr fun c hc => ?_
  have hslash : c ≠ '/' := fun heq => h (heq ▸ hc)
  simp [hslash]

/-- A text is in braces, and what stands between them. -/
theorem unbrace?_eq_some_iff {text inner : List Char} :
    unbrace? text = some inner ↔ text = '{' :: inner ++ ['}'] := by
  constructor
  · intro h
    unfold unbrace? at h
    split at h
    · rename_i rest
      split at h
      · rename_i hlast
        cases h
        obtain ⟨inner, rfl⟩ := List.getLast?_eq_some_iff.1 (beq_iff_eq.1 hlast)
        rw [List.dropLast_concat, List.cons_append]
      · cases h
    · cases h
  · rintro rfl
    simp [unbrace?]

/-- The marks that no literal may open with. -/
theorem plainLiteral_iff {text : List Char} (h : '/' ∉ text) :
    PlainLiteral text ↔ (text.head? == some ':' || text.head? == some '*') = false ∧
      text.any isBrace = false := by
  have hslash : ∀ c ∈ text, c ≠ '/' := fun c hc heq => h (heq ▸ hc)
  simp only [PlainLiteral, Bool.or_eq_false_iff, beq_eq_false_iff_ne, List.any_eq_false,
    isBrace_iff, not_or]
  constructor
  · intro hgiven
    rcases hgiven with ⟨hplain, hmark⟩
    exact ⟨hmark, fun c hc => (hplain c hc).2⟩
  · intro hgiven
    rcases hgiven with ⟨hmark, hplain⟩
    exact ⟨fun c hc => ⟨hslash c hc, hplain c hc⟩, hmark⟩

theorem Segment.WellFormed.not_mem_slash {segment : Segment} (h : segment.WellFormed) :
    '/' ∉ segment.text := by
  intro hmem
  cases segment with
  | literal text => exact (h.1 _ hmem).1 rfl
  | capture name | catchAll name =>
      simp only [Segment.text, List.cons_append, List.mem_cons, List.mem_append] at hmem
      simp only [List.not_mem_nil, or_false, false_or, Char.reduceEq] at hmem
      exact (h.2 _ hmem).1 rfl

/-- What is read as a segment is its written form. -/
theorem Segment.text_of_parse {last : Bool} {text : List Char} {segment : Segment}
    (hslash : '/' ∉ text) (h : Segment.parse last text = .ok segment) :
    segment.WellFormed ∧ segment.text = text ∧ (segment.isCatchAll = true → last = true) := by
  unfold Segment.parse at h
  split at h
  · cases h
  · rename_i hmark
    split at h
    · rename_i hbrace
      cases h
      refine ⟨(plainLiteral_iff hslash).2 ⟨?_, ?_⟩, rfl, nofun⟩
      · exact Bool.eq_false_iff.2 hmark
      · simpa using hbrace
    · split at h
      · cases h
      · rename_i name hinner
        have htext : text = '{' :: '*' :: name ++ ['}'] := unbrace?_eq_some_iff.1 hinner
        have hname : '/' ∉ name := fun hmem => hslash (by simp [htext, hmem])
        split at h
        · cases h
        · rename_i hplain
          split at h
          · cases h
          · rename_i hlast
            cases h
            refine ⟨(plainName_iff hname).1 (by simpa using hplain), htext.symm, fun _ => ?_⟩
            simpa using hlast
      · rename_i name _ hinner
        have htext : text = '{' :: name ++ ['}'] := unbrace?_eq_some_iff.1 hinner
        have hname : '/' ∉ name := fun hmem => hslash (by simp [htext, hmem])
        split at h
        · cases h
        · rename_i hplain
          cases h
          exact ⟨(plainName_iff hname).1 (by simpa using hplain), htext.symm, nofun⟩

theorem PlainName.not_mem_slash {name : List Char} (h : PlainName name) : '/' ∉ name :=
  fun hmem => (h.2 _ hmem).1 rfl

/-- A well formed segment is read from its written form. -/
theorem Segment.parse_text {last : Bool} {segment : Segment} (h : segment.WellFormed)
    (hlast : segment.isCatchAll = true → last = true) :
    Segment.parse last segment.text = .ok segment := by
  cases segment with
  | literal text =>
      obtain ⟨hmark, hbrace⟩ := (plainLiteral_iff h.not_mem_slash).1 h
      change Segment.parse last text = .ok (.literal text)
      change (text.head? == some ':' || text.head? == some '*') = false at hmark
      change text.any isBrace = false at hbrace
      rw [Segment.parse, if_neg (Bool.eq_false_iff.1 hmark), if_pos (by simp [hbrace])]
  | capture name =>
      have hname : PlainName name := h
      have hplain := (plainName_iff hname.not_mem_slash).2 hname
      cases name with
      | nil => exact absurd rfl hname.1
      | cons c rest =>
          have hinner : unbrace? ('{' :: c :: (rest ++ ['}'])) = some (c :: rest) :=
            unbrace?_eq_some_iff.2 rfl
          have hstar : c ≠ '*' := (hname.2 c List.mem_cons_self).2.2.2
          simp [Segment.parse, Segment.text, hinner, isBrace, hplain, hstar]
  | catchAll name =>
      have hname : PlainName name := h
      have hinner : unbrace? ('{' :: '*' :: name ++ ['}']) = some ('*' :: name) :=
        unbrace?_eq_some_iff.2 rfl
      have hplain := (plainName_iff hname.not_mem_slash).2 hname
      simp only [Segment.text, Segment.parse, hinner]
      rw [if_neg (by simp), if_neg (by simp [isBrace]), if_neg (by simp [hplain]),
        if_neg (by simp [hlast rfl])]

/-! ### Patterns -/

theorem catchAll_dropLast_cons {segment : Segment} {pattern : Pattern} :
    (∀ s ∈ (segment :: pattern).dropLast, s.isCatchAll = false) ↔
      (segment.isCatchAll = true → pattern = []) ∧
      ∀ s ∈ pattern.dropLast, s.isCatchAll = false := by
  cases pattern with
  | nil => simp
  | cons next pattern => simp

/-- Segments are read from the first to the last, a catch-all only in the last place. -/
theorem Pattern.ofSegments_eq_ok_iff {pieces : List (List Char)} {pattern : Pattern}
    (hslash : ∀ piece ∈ pieces, '/' ∉ piece) : Pattern.ofSegments pieces = .ok pattern ↔
      (∀ segment ∈ pattern, segment.WellFormed) ∧
      (∀ segment ∈ pattern.dropLast, segment.isCatchAll = false) ∧
      pattern.map Segment.text = pieces := by
  induction pieces generalizing pattern with
  | nil =>
      constructor
      · intro h
        cases h
        exact ⟨nofun, nofun, rfl⟩
      · intro ⟨_, _, htext⟩
        rw [List.map_eq_nil_iff.1 htext]
        rfl
  | cons piece pieces ih =>
      have hpiece := hslash piece List.mem_cons_self
      have hpieces : ∀ p ∈ pieces, '/' ∉ p := fun p hp => hslash p (List.mem_cons_of_mem _ hp)
      constructor
      · intro h
        simp only [Pattern.ofSegments] at h
        cases hsegment : Segment.parse pieces.isEmpty piece with
        | error fault => rw [hsegment] at h; cases h
        | ok segment =>
            cases hrest : Pattern.ofSegments pieces with
            | error fault => rw [hsegment, hrest] at h; cases h
            | ok rest =>
                rw [hsegment, hrest] at h
                cases h
                obtain ⟨hwell, htext, hlast⟩ := Segment.text_of_parse hpiece hsegment
                obtain ⟨hwells, hcatch, htexts⟩ := (ih hpieces).1 hrest
                have honly : segment.isCatchAll = true → rest = [] := by
                  intro hall
                  have hempty : pieces = [] := List.isEmpty_iff.1 (hlast hall)
                  rw [hempty] at htexts
                  exact List.map_eq_nil_iff.1 htexts
                exact ⟨List.forall_mem_cons.2 ⟨hwell, hwells⟩,
                  catchAll_dropLast_cons.2 ⟨honly, hcatch⟩, by rw [List.map_cons, htext, htexts]⟩
      · intro ⟨hwell, hcatch, htext⟩
        cases pattern with
        | nil => cases htext
        | cons segment rest =>
            rw [List.map_cons, List.cons.injEq] at htext
            obtain ⟨rfl, rfl⟩ := htext
            obtain ⟨honly, hcatch⟩ := catchAll_dropLast_cons.1 hcatch
            obtain ⟨hfirst, hwell⟩ := List.forall_mem_cons.1 hwell
            have hlast : segment.isCatchAll = true → (rest.map Segment.text).isEmpty = true := by
              intro hall
              rw [honly hall]
              rfl
            rw [Pattern.ofSegments, Segment.parse_text hfirst hlast,
              (ih hpieces).2 ⟨hwell, hcatch, rfl⟩]
            rfl

theorem Pattern.toList_text (pattern : Pattern) :
    pattern.text.toList = (pattern.map Segment.text).flatMap ('/' :: ·) := by
  rw [Pattern.text, String.toList_ofList, List.flatMap_map]

theorem Pattern.WellFormed.not_mem_slash {pattern : Pattern} (h : pattern.WellFormed) :
    ∀ piece ∈ pattern.map Segment.text, '/' ∉ piece := by
  intro piece hpiece
  obtain ⟨segment, hsegment, rfl⟩ := List.mem_map.1 hpiece
  exact (h.2.1 segment hsegment).not_mem_slash

/-- A written pattern is cut at its slashes into its written segments. -/
theorem Pattern.WellFormed.exists_rest {pattern : Pattern} (h : pattern.WellFormed) :
    ∃ rest, pattern.text.toList = '/' :: rest ∧
      splitOn '/' rest = pattern.map Segment.text := by
  obtain ⟨rest, hrest⟩ : ∃ rest, pattern.text.toList = '/' :: rest := by
    rw [Pattern.toList_text]
    cases pattern with
    | nil => exact absurd rfl h.1
    | cons segment pattern => exact ⟨_, rfl⟩
  exact ⟨rest, hrest,
    splitOn_of_flatMap h.not_mem_slash ((Pattern.toList_text pattern).symm.trans hrest)⟩

/-- A text is read as a pattern exactly if it is the written form of that pattern. -/
theorem Pattern.parse_eq_ok_iff {text : String} {pattern : Pattern} :
    Pattern.parse text = .ok pattern ↔ pattern.WellFormed ∧ text = pattern.text := by
  constructor
  · intro h
    unfold Pattern.parse at h
    split at h
    · rename_i rest htext
      obtain ⟨hwell, hcatch, htexts⟩ :=
        (Pattern.ofSegments_eq_ok_iff fun _ => not_mem_of_mem_splitOn).1 h
      refine ⟨⟨?_, hwell, hcatch⟩, ?_⟩
      · intro hnil
        rw [hnil] at htexts
        exact splitOn_ne_nil '/' rest htexts.symm
      · rw [← String.toList_inj, Pattern.toList_text, htexts, flatMap_splitOn, htext]
    · cases h
  · intro ⟨hpattern, htext⟩
    obtain ⟨rest, hrest, hsplit⟩ := hpattern.exists_rest
    simp only [Pattern.parse, htext, hrest, hsplit]
    exact (Pattern.ofSegments_eq_ok_iff hpattern.not_mem_slash).2
      ⟨hpattern.2.1, hpattern.2.2, rfl⟩

/-! ### What reading stumbles over -/

section Broken

variable {last : Bool} {text : List Char}

theorem segmentBreaks_reservedMark_iff : SegmentBreaks last text .reservedMark ↔
    (text.head? == some ':' || text.head? == some '*') = true := by
  rw [Bool.or_eq_true, beq_iff_eq, beq_iff_eq]
  constructor
  · rintro ⟨hmark⟩
    exact hmark
  · exact .reservedMark

theorem segmentBreaks_partOfSegment_iff : SegmentBreaks last text .partOfSegment ↔
    text.any isBrace = true ∧ unbrace? text = none := by
  simp only [List.any_eq_true, isBrace_iff, Option.eq_none_iff_forall_ne_some, ne_eq,
    unbrace?_eq_some_iff]
  constructor
  · intro h
    cases h with
    | partOfSegment hbrace hwhole => exact ⟨hbrace, hwhole⟩
  · rintro ⟨hbrace, hwhole⟩
    exact .partOfSegment hbrace hwhole

theorem segmentBreaks_badName_iff (hslash : '/' ∉ text) : SegmentBreaks last text .badName ↔
    ∃ name, isName name = false ∧ (unbrace? text = some ('*' :: name) ∨
      unbrace? text = some name ∧ name.head? ≠ some '*') := by
  simp only [unbrace?_eq_some_iff]
  constructor
  · intro h
    cases h with
    | captureName htext hstar hplain =>
        rename_i name
        have hname : '/' ∉ name := fun hmem => hslash (by simp [htext, Segment.text, hmem])
        rw [← plainName_iff hname, Bool.not_eq_true] at hplain
        exact ⟨name, hplain, .inr ⟨htext, hstar⟩⟩
    | catchAllName htext hplain =>
        rename_i name
        have hname : '/' ∉ name := fun hmem => hslash (by simp [htext, Segment.text, hmem])
        rw [← plainName_iff hname, Bool.not_eq_true] at hplain
        exact ⟨name, hplain, .inl htext⟩
  · rintro ⟨name, hplain, htext | ⟨htext, hstar⟩⟩
    · have hname : '/' ∉ name := fun hmem => hslash (by simp [htext, hmem])
      rw [← Bool.not_eq_true, plainName_iff hname] at hplain
      exact .catchAllName htext hplain
    · have hname : '/' ∉ name := fun hmem => hslash (by simp [htext, hmem])
      rw [← Bool.not_eq_true, plainName_iff hname] at hplain
      exact .captureName htext hstar hplain

theorem segmentBreaks_catchAllNotLast_iff : SegmentBreaks last text .catchAllNotLast ↔
    (∃ name, unbrace? text = some ('*' :: name)) ∧ last = false := by
  simp only [unbrace?_eq_some_iff]
  constructor
  · intro h
    cases h with
    | catchAllNotLast htext hlast => exact ⟨⟨_, htext⟩, hlast⟩
  · rintro ⟨⟨name, htext⟩, hlast⟩
    exact .catchAllNotLast htext hlast

/-- The name of a catch-all is what follows the asterisk. -/
theorem segmentBreaks_badName_of_catchAll (hslash : '/' ∉ text) {name : List Char}
    (h : unbrace? text = some ('*' :: name)) :
    SegmentBreaks last text .badName ↔ isName name = false := by
  rw [segmentBreaks_badName_iff hslash, h]
  constructor
  · rintro ⟨other, hplain, heq | ⟨heq, hstar⟩⟩
    · cases heq
      exact hplain
    · cases heq
      exact absurd rfl hstar
  · intro hplain
    exact ⟨name, hplain, .inl rfl⟩

theorem segmentBreaks_badName_of_capture (hslash : '/' ∉ text) {name : List Char}
    (h : unbrace? text = some name) (hstar : name.head? ≠ some '*') :
    SegmentBreaks last text .badName ↔ isName name = false := by
  rw [segmentBreaks_badName_iff hslash, h]
  constructor
  · rintro ⟨other, hplain, heq | ⟨heq, _⟩⟩
    · cases heq
      exact absurd rfl hstar
    · cases heq
      exact hplain
  · intro hplain
    exact ⟨name, hplain, .inr ⟨rfl, hstar⟩⟩

theorem unbrace?_of_plain (h : text.any isBrace = false) : unbrace? text = none := by
  cases text with
  | nil => rfl
  | cons c rest =>
      rw [List.any_cons, Bool.or_eq_false_iff] at h
      have hc : c ≠ '{' := fun heq => Bool.false_ne_true (h.1.symm.trans (isBrace_iff.2 (.inl heq)))
      simp [unbrace?, hc]

/-! The rules are looked at in the order of their ranks. -/

theorem breaksFirst_reservedMark (h : SegmentBreaks last text .reservedMark) :
    SegmentBreaksFirst last text .reservedMark := by
  refine ⟨h, fun other hother => ?_⟩
  cases other with
  | noSlash => cases hother
  | _ => decide

theorem breaksFirst_partOfSegment (hmark : ¬ SegmentBreaks last text .reservedMark)
    (h : SegmentBreaks last text .partOfSegment) :
    SegmentBreaksFirst last text .partOfSegment := by
  refine ⟨h, fun other hother => ?_⟩
  cases other with
  | noSlash => cases hother
  | reservedMark => exact absurd hother hmark
  | _ => decide

theorem breaksFirst_badName (hmark : ¬ SegmentBreaks last text .reservedMark)
    (hwhole : ¬ SegmentBreaks last text .partOfSegment) (h : SegmentBreaks last text .badName) :
    SegmentBreaksFirst last text .badName := by
  refine ⟨h, fun other hother => ?_⟩
  cases other with
  | noSlash => cases hother
  | reservedMark => exact absurd hother hmark
  | partOfSegment => exact absurd hother hwhole
  | _ => decide

theorem breaksFirst_catchAllNotLast (hmark : ¬ SegmentBreaks last text .reservedMark)
    (hwhole : ¬ SegmentBreaks last text .partOfSegment) (hname : ¬ SegmentBreaks last text .badName)
    (h : SegmentBreaks last text .catchAllNotLast) :
    SegmentBreaksFirst last text .catchAllNotLast := by
  refine ⟨h, fun other hother => ?_⟩
  cases other with
  | noSlash => cases hother
  | reservedMark => exact absurd hother hmark
  | partOfSegment => exact absurd hother hwhole
  | badName => exact absurd hother hname
  | catchAllNotLast => exact Nat.le_refl _

theorem not_segmentBreaks (hmark : ¬ SegmentBreaks last text .reservedMark)
    (hwhole : ¬ SegmentBreaks last text .partOfSegment) (hname : ¬ SegmentBreaks last text .badName)
    (hlast : ¬ SegmentBreaks last text .catchAllNotLast) (fault : PatternFault) :
    ¬ SegmentBreaks last text fault := by
  intro h
  cases fault with
  | noSlash => cases h
  | reservedMark => exact hmark h
  | partOfSegment => exact hwhole h
  | badName => exact hname h
  | catchAllNotLast => exact hlast h

/-- A segment is refused with the first rule that it breaks, and read if it breaks none. -/
theorem Segment.parse_breaks (hslash : '/' ∉ text) :
    (∀ fault, Segment.parse last text = .error fault → SegmentBreaksFirst last text fault) ∧
    ∀ segment, Segment.parse last text = .ok segment →
      ∀ fault, ¬ SegmentBreaks last text fault := by
  unfold Segment.parse
  split
  · rename_i hmarked
    refine ⟨?_, nofun⟩
    rintro fault ⟨⟩
    exact breaksFirst_reservedMark (segmentBreaks_reservedMark_iff.2 hmarked)
  rename_i hmark
  rw [← segmentBreaks_reservedMark_iff] at hmark
  split
  · rename_i hplain
    have hplain : text.any isBrace = false := by simpa using hplain
    have hunbrace := unbrace?_of_plain hplain
    refine ⟨nofun, fun _ _ => not_segmentBreaks hmark ?_ ?_ ?_⟩
    · simp [segmentBreaks_partOfSegment_iff, hplain]
    · simp [segmentBreaks_badName_iff hslash, hunbrace]
    · simp [segmentBreaks_catchAllNotLast_iff, hunbrace]
  rename_i hbrace
  split
  · rename_i hunbrace
    refine ⟨?_, nofun⟩
    rintro fault ⟨⟩
    exact breaksFirst_partOfSegment hmark
      (segmentBreaks_partOfSegment_iff.2 ⟨by simpa using hbrace, hunbrace⟩)
  · rename_i name hunbrace
    have hwhole : ¬ SegmentBreaks last text .partOfSegment := by
      simp [segmentBreaks_partOfSegment_iff, hunbrace]
    have hnamed : SegmentBreaks last text .badName ↔ isName name = false :=
      segmentBreaks_badName_of_catchAll hslash hunbrace
    split
    · rename_i hplain
      refine ⟨?_, nofun⟩
      rintro fault ⟨⟩
      exact breaksFirst_badName hmark hwhole (hnamed.2 (by simpa using hplain))
    rename_i hplain
    have hname : ¬ SegmentBreaks last text .badName := by simpa [hnamed] using hplain
    split
    · rename_i hlast
      refine ⟨?_, nofun⟩
      rintro fault ⟨⟩
      exact breaksFirst_catchAllNotLast hmark hwhole hname
        (segmentBreaks_catchAllNotLast_iff.2 ⟨⟨name, hunbrace⟩, by simpa using hlast⟩)
    · rename_i hlast
      have hended : ¬ SegmentBreaks last text .catchAllNotLast := by
        simp_all [segmentBreaks_catchAllNotLast_iff]
      exact ⟨nofun, fun _ _ => not_segmentBreaks hmark hwhole hname hended⟩
  · rename_i name hstar hunbrace
    have hwhole : ¬ SegmentBreaks last text .partOfSegment := by
      simp [segmentBreaks_partOfSegment_iff, hunbrace]
    have hcapture : name.head? ≠ some '*' := by
      intro hhead
      obtain ⟨rest, hrest⟩ := List.head?_eq_some_iff.1 hhead
      exact hstar rest hrest
    have hnamed : SegmentBreaks last text .badName ↔ isName name = false :=
      segmentBreaks_badName_of_capture hslash hunbrace hcapture
    split
    · rename_i hplain
      refine ⟨?_, nofun⟩
      rintro fault ⟨⟩
      exact breaksFirst_badName hmark hwhole (hnamed.2 (by simpa using hplain))
    · rename_i hplain
      have hname : ¬ SegmentBreaks last text .badName := by simpa [hnamed] using hplain
      have hended : ¬ SegmentBreaks last text .catchAllNotLast := by
        rw [segmentBreaks_catchAllNotLast_iff, hunbrace]
        rintro ⟨⟨rest, hrest⟩, _⟩
        exact hstar rest (Option.some.inj hrest)
      exact ⟨nofun, fun _ _ => not_segmentBreaks hmark hwhole hname hended⟩

theorem PatternFault.eq_of_rank_eq {fault other : PatternFault} (h : fault.rank = other.rank) :
    fault = other := by
  revert h
  cases fault <;> cases other <;> decide

theorem SegmentBreaksFirst.unique {fault other : PatternFault}
    (h : SegmentBreaksFirst last text fault) (h' : SegmentBreaksFirst last text other) :
    fault = other :=
  PatternFault.eq_of_rank_eq (Nat.le_antisymm (h.2 _ h'.1) (h'.2 _ h.1))

theorem Segment.parse_eq_error_iff (hslash : '/' ∉ text) {fault : PatternFault} :
    Segment.parse last text = .error fault ↔ SegmentBreaksFirst last text fault := by
  refine ⟨(Segment.parse_breaks hslash).1 fault, fun h => ?_⟩
  cases hparse : Segment.parse last text with
  | ok segment => exact absurd h.1 ((Segment.parse_breaks hslash).2 segment hparse fault)
  | error other => rw [h.unique ((Segment.parse_breaks hslash).1 other hparse)]

theorem Segment.exists_parse_iff (hslash : '/' ∉ text) :
    (∃ segment, Segment.parse last text = .ok segment) ↔
      ∀ fault, ¬ SegmentBreaks last text fault := by
  constructor
  · rintro ⟨segment, hparse⟩
    exact (Segment.parse_breaks hslash).2 segment hparse
  · intro h
    cases hparse : Segment.parse last text with
    | ok segment => exact ⟨segment, rfl⟩
    | error fault => exact absurd ((Segment.parse_breaks hslash).1 fault hparse).1 (h fault)

end Broken

/-- Reading segments stops at the first one that breaks a rule. -/
theorem Pattern.ofSegments_eq_error_iff {pieces : List (List Char)} {fault : PatternFault}
    (hslash : ∀ piece ∈ pieces, '/' ∉ piece) : Pattern.ofSegments pieces = .error fault ↔
      ∃ before piece after, pieces = before ++ piece :: after ∧
        (∀ sound ∈ before, ∀ other, ¬ SegmentBreaks false sound other) ∧
          SegmentBreaksFirst after.isEmpty piece fault := by
  induction pieces with
  | nil =>
      refine ⟨nofun, ?_⟩
      rintro ⟨before, piece, after, heq, _⟩
      cases before <;> cases heq
  | cons piece pieces ih =>
      have hpiece := hslash piece List.mem_cons_self
      have hpieces : ∀ p ∈ pieces, '/' ∉ p := fun p hp => hslash p (List.mem_cons_of_mem _ hp)
      rw [Pattern.ofSegments]
      cases hsegment : Segment.parse pieces.isEmpty piece with
      | error found =>
          have hfound := (Segment.parse_eq_error_iff hpiece).1 hsegment
          constructor
          · intro h
            cases h
            exact ⟨[], piece, pieces, rfl, nofun, hfound⟩
          · rintro ⟨before, first, after, heq, hsound, hfirst⟩
            cases before with
            | nil =>
                cases heq
                rw [hfirst.unique hfound]
                rfl
            | cons sound before =>
                rw [List.cons_append, List.cons.injEq] at heq
                obtain ⟨rfl, rfl⟩ := heq
                have hmore : (before ++ first :: after).isEmpty = false := by simp
                rw [hmore] at hfound
                exact absurd hfound.1 (hsound piece List.mem_cons_self found)
      | ok segment =>
          have hsegment := (Segment.exists_parse_iff hpiece).1 ⟨segment, hsegment⟩
          have hrest : (do
              let segments ← Pattern.ofSegments pieces
              return segment :: segments : Except PatternFault Pattern) = .error fault ↔
              Pattern.ofSegments pieces = .error fault := by
            cases Pattern.ofSegments pieces with
            | error other => rfl
            | ok segments => exact ⟨nofun, nofun⟩
          refine (hrest.trans (ih hpieces)).trans ?_
          constructor
          · rintro ⟨before, first, after, rfl, hsound, hfirst⟩
            have hmore : (before ++ first :: after).isEmpty = false := by simp
            rw [hmore] at hsegment
            exact ⟨piece :: before, first, after, rfl, List.forall_mem_cons.2 ⟨hsegment, hsound⟩,
              hfirst⟩
          · rintro ⟨before, first, after, heq, hsound, hfirst⟩
            cases before with
            | nil =>
                cases heq
                exact absurd hfirst.1 (hsegment fault)
            | cons sound before =>
                cases heq
                exact ⟨before, first, after, rfl, (List.forall_mem_cons.1 hsound).2, hfirst⟩

/-- Where every segment is read, none breaks a rule. -/
theorem Pattern.not_segmentBreaks_of_ofSegments {pieces : List (List Char)} {pattern : Pattern}
    (hslash : ∀ piece ∈ pieces, '/' ∉ piece) (h : Pattern.ofSegments pieces = .ok pattern)
    {before after : List (List Char)} {piece : List Char}
    (hpieces : pieces = before ++ piece :: after) (fault : PatternFault) :
    ¬ SegmentBreaks after.isEmpty piece fault := by
  induction pieces generalizing before pattern with
  | nil => cases before <;> cases hpieces
  | cons first pieces ih =>
      have hfirst := hslash first List.mem_cons_self
      rw [Pattern.ofSegments] at h
      cases hsegment : Segment.parse pieces.isEmpty first with
      | error other => rw [hsegment] at h; cases h
      | ok segment =>
          cases hrest : Pattern.ofSegments pieces with
          | error other => rw [hsegment, hrest] at h; cases h
          | ok rest =>
              cases before with
              | nil =>
                  cases hpieces
                  exact (Segment.exists_parse_iff hfirst).1 ⟨segment, hsegment⟩ fault
              | cons sound before =>
                  rw [List.cons_append, List.cons.injEq] at hpieces
                  exact ih (fun p hp => hslash p (List.mem_cons_of_mem _ hp)) hrest hpieces.2

theorem not_mem_of_mem_segmentsOf {path : String} {segment : List Char}
    (h : segment ∈ segmentsOf path) : '/' ∉ segment :=
  not_mem_of_mem_splitOn (List.mem_of_mem_tail h)

/-- A path that breaks a rule breaks a first one. -/
theorem PathBreaks.exists_first {path : String} {fault : PatternFault} (h : PathBreaks path fault) :
    ∃ first, PathBreaksFirst path first := by
  have hslash : ∀ segment ∈ segmentsOf path, '/' ∉ segment := fun _ => not_mem_of_mem_segmentsOf
  cases hread : Pattern.ofSegments (segmentsOf path) with
  | error first => exact ⟨first, (Pattern.ofSegments_eq_error_iff hslash).1 hread⟩
  | ok pattern =>
      obtain ⟨before, segment, after, hsegments, hbroken⟩ := h
      exact absurd hbroken (Pattern.not_segmentBreaks_of_ofSegments hslash hread hsegments fault)

theorem PathBreaksFirst.unique {path : String} {fault other : PatternFault}
    (h : PathBreaksFirst path fault) (h' : PathBreaksFirst path other) : fault = other := by
  have hslash : ∀ segment ∈ segmentsOf path, '/' ∉ segment := fun _ => not_mem_of_mem_segmentsOf
  rw [PathBreaksFirst, ← Pattern.ofSegments_eq_error_iff hslash] at h h'
  exact Except.error.inj (h.symm.trans h')

theorem PathBreaksFirst.breaks {path : String} {fault : PatternFault}
    (h : PathBreaksFirst path fault) : PathBreaks path fault := by
  obtain ⟨before, segment, after, hsegments, _, hfirst⟩ := h
  exact ⟨before, segment, after, hsegments, hfirst.1⟩

theorem segmentsOf_of_slash {path : String} {rest : List Char} (h : path.toList = '/' :: rest) :
    segmentsOf path = splitOn '/' rest := by
  rw [segmentsOf, h]
  rfl

/-- A path that opens with a slash is refused with the first rule that it breaks. -/
theorem Pattern.parse_eq_error_iff {path : String} {rest : List Char} {fault : PatternFault}
    (h : path.toList = '/' :: rest) :
    Pattern.parse path = .error fault ↔ PathBreaksFirst path fault := by
  rw [PathBreaksFirst, segmentsOf_of_slash h, ← Pattern.ofSegments_eq_error_iff fun _ =>
    not_mem_of_mem_splitOn, Pattern.parse, h]
  rfl

end Route

end Gateway
