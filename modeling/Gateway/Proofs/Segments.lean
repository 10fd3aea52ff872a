/-
Module: Gateway.Proofs.Segments
Layer: Proofs
Purpose: Which paths are patterns, said of their segments one by one (`Pattern.exists_parse_iff`),
  and that the router takes every pattern by itself unless it has too many captures
  (`Router.exists_insert_iff`).  So what the grammar lets through, the router's own reader of routes
  lets through too.
Main exports: Route.LegalSegment, Route.Segment.exists_parse_iff_legal,
  Route.Pattern.exists_parse_iff, Route.Router.exists_insert_iff, Route.legal_paths_are_routes
-/
import Gateway.Proofs.RouteTokens

namespace Gateway.Route

/-! ### Legal segments -/

/-- A name between braces: at least one character, none of them a brace or an asterisk. -/
def CaptureName (name : List Char) : Prop :=
  name ≠ [] ∧ ∀ c ∈ name, c ≠ '{' ∧ c ≠ '}' ∧ c ≠ '*'

/-- What may stand behind a slash of a path; `last` tells whether it ends the path. -/
inductive LegalSegment (last : Bool) : List Char → Prop where
  /-- A literal may be empty. -/
  | literal {text : List Char} : (∀ c ∈ text, c ≠ '{' ∧ c ≠ '}') → text.head? ≠ some ':' →
      text.head? ≠ some '*' → LegalSegment last text
  | capture {name : List Char} : CaptureName name → LegalSegment last ('{' :: name ++ ['}'])
  | catchAll {name : List Char} : CaptureName name → last = true →
      LegalSegment last ('{' :: '*' :: name ++ ['}'])

section Segments

variable {last : Bool} {text name : List Char}

theorem captureName_iff (hslash : '/' ∉ name) : CaptureName name ↔ PlainName name := by
  rw [← plainName_iff hslash, isName_iff, CaptureName]

theorem not_mem_of_braces (hslash : '/' ∉ '{' :: name ++ ['}']) : '/' ∉ name :=
  fun hmem => hslash (List.mem_append_left _ (List.mem_cons_of_mem _ hmem))

/-- What is legal is the written form of a segment, and a catch-all is legal at the end only. -/
theorem legalSegment_iff (hslash : '/' ∉ text) : LegalSegment last text ↔
    ∃ segment : Segment, segment.WellFormed ∧ segment.text = text ∧
      (segment.isCatchAll = true → last = true) := by
  constructor
  · intro h
    cases h with
    | literal hbraces hcolon hstar =>
        refine ⟨.literal text, ⟨fun c hc => ⟨?_, hbraces c hc⟩, hcolon, hstar⟩, rfl, nofun⟩
        rintro rfl
        exact hslash hc
    | capture hname =>
        exact ⟨.capture _, (captureName_iff (not_mem_of_braces hslash)).1 hname, rfl, nofun⟩
    | catchAll hname hlast =>
        have hplain := List.not_mem_of_not_mem_cons (not_mem_of_braces hslash)
        exact ⟨.catchAll _, (captureName_iff hplain).1 hname, rfl, fun _ => hlast⟩
  · rintro ⟨segment, hwell, rfl, hlast⟩
    cases segment with
    | literal text => exact .literal (fun c hc => (hwell.1 c hc).2) hwell.2.1 hwell.2.2
    | capture name =>
        have hname : PlainName name := hwell
        exact .capture ((captureName_iff hname.not_mem_slash).2 hname)
    | catchAll name =>
        have hname : PlainName name := hwell
        exact .catchAll ((captureName_iff hname.not_mem_slash).2 hname) (hlast rfl)

theorem Segment.exists_parse_iff_legal (hslash : '/' ∉ text) :
    (∃ segment, Segment.parse last text = .ok segment) ↔ LegalSegment last text := by
  rw [legalSegment_iff hslash]
  constructor
  · rintro ⟨segment, h⟩
    exact ⟨segment, Segment.text_of_parse hslash h⟩
  · rintro ⟨segment, hwell, rfl, hlast⟩
    exact ⟨segment, Segment.parse_text hwell hlast⟩

end Segments

/-! ### Legal paths -/

/-- Segments are read together exactly if each is legal in its place. -/
theorem Pattern.exists_ofSegments_iff {pieces : List (List Char)}
    (hslash : ∀ piece ∈ pieces, '/' ∉ piece) :
    (∃ pattern, Pattern.ofSegments pieces = .ok pattern) ↔
      ∀ before piece after, pieces = before ++ piece :: after →
        LegalSegment after.isEmpty piece := by
  induction pieces with
  | nil =>
      refine iff_of_true ⟨[], rfl⟩ ?_
      intro before piece after h
      cases before <;> cases h
  | cons first pieces ih =>
      have hsplit : (∃ pattern, Pattern.ofSegments (first :: pieces) = .ok pattern) ↔
          (∃ segment, Segment.parse pieces.isEmpty first = .ok segment) ∧
            ∃ pattern, Pattern.ofSegments pieces = .ok pattern := by
        rw [Pattern.ofSegments]
        cases Segment.parse pieces.isEmpty first with
        | error fault =>
            refine iff_of_false ?_ ?_
            · rintro ⟨_, h⟩
              cases h
            · rintro ⟨⟨_, h⟩, _⟩
              cases h
        | ok segment =>
            cases Pattern.ofSegments pieces with
            | error fault =>
                refine iff_of_false ?_ ?_
                · rintro ⟨_, h⟩
                  cases h
                · rintro ⟨_, _, h⟩
                  cases h
            | ok pattern => exact iff_of_true ⟨_, rfl⟩ ⟨⟨_, rfl⟩, _, rfl⟩
      rw [List.forall_mem_cons] at hslash
      rw [hsplit, Segment.exists_parse_iff_legal hslash.1, ih hslash.2]
      constructor
      · rintro ⟨hfirst, hrest⟩ before piece after h
        cases before with
        | nil =>
            cases h
            exact hfirst
        | cons sound before =>
            cases h
            exact hrest before piece after rfl
      · intro h
        refine ⟨h [] first pieces rfl, ?_⟩
        rintro before piece after rfl
        exact h (first :: before) piece after rfl

/-- A path that opens with a slash is a pattern exactly if each of its segments is legal. -/
theorem Pattern.exists_parse_iff {path : String} (hslash : path.toList.head? = some '/') :
    (∃ pattern, Pattern.parse path = .ok pattern) ↔
      ∀ before segment after, segmentsOf path = before ++ segment :: after →
        LegalSegment after.isEmpty segment := by
  obtain ⟨rest, hrest⟩ := List.head?_eq_some_iff.1 hslash
  have hparse : Pattern.parse path = Pattern.ofSegments (splitOn '/' rest) := by
    rw [Pattern.parse, hrest]
    rfl
  rw [hparse, segmentsOf_of_slash hrest]
  exact Pattern.exists_ofSegments_iff fun _ => not_mem_of_mem_splitOn

/-! ### One route -/

variable {α : Type}

/-- A router without routes takes every route that it can read. -/
theorem Router.exists_insert_empty_iff {path : String} {target : α} :
    (∃ router, Router.empty.insert path target = .ok router) ↔
      ∃ tokens, readRoute path = .ok tokens := by
  constructor
  · rintro ⟨router, h⟩
    obtain ⟨tokens, hread, _⟩ := Router.insert_eq_ok_iff.1 h
    exact ⟨tokens, hread⟩
  · rintro ⟨tokens, hread⟩
    exact ⟨_, Router.insert_eq_ok_iff.2
      ⟨tokens, hread, fun _ hmem => absurd hmem List.not_mem_nil, rfl⟩⟩

/-- The router takes a pattern by itself exactly if it has no more captures than a route may have.
-/
theorem Router.exists_insert_iff {path : String} {pattern : Pattern} (target : α)
    (h : Pattern.parse path = .ok pattern) :
    (∃ router, Router.empty.insert path target = .ok router) ↔
      pattern.shape.count .capture ≤ mostParams := by
  obtain ⟨hwell, rfl⟩ := Pattern.parse_eq_ok_iff.1 h
  rw [Router.exists_insert_empty_iff, readRoute_text hwell]
  split
  · rename_i hmany
    exact iff_of_false nofun (Nat.not_le.2 hmany)
  · rename_i hfew
    exact iff_of_true ⟨_, rfl⟩ (Nat.not_lt.1 hfew)

/-- Of the paths that open with a slash, those are patterns whose segments are legal, each in its
place: literals, captures, and a catch-all where nothing follows it.  Every pattern is a route that
the router takes by itself, unless it has more captures than a route may have. -/
theorem legal_paths_are_routes (path : String) (hslash : path.toList.head? = some '/') :
    ((∃ pattern, Pattern.parse path = .ok pattern) ↔
      ∀ before segment after, segmentsOf path = before ++ segment :: after →
        LegalSegment after.isEmpty segment) ∧
    ∀ pattern, Pattern.parse path = .ok pattern → ∀ target : α,
      (∃ router, Router.empty.insert path target = .ok router) ↔
        pattern.shape.count .capture ≤ mostParams :=
  ⟨Pattern.exists_parse_iff hslash, fun _ h target => Router.exists_insert_iff target h⟩

/-- An empty segment, a capture and a catch-all are legal where they stand here.  A catch-all with
another one behind it is not. -/
theorem archivePath_is_route :
    "//\x7bid\x7d/\x7b*rest\x7d".toList.head? = some '/' ∧
    (∃ router, (Router.empty : Router Unit).insert "//\x7bid\x7d/\x7b*rest\x7d" () = .ok router) ∧
    ¬ ∀ before segment after,
      segmentsOf "/\x7b*id\x7d/\x7b*rest\x7d" = before ++ segment :: after →
        LegalSegment after.isEmpty segment := by
  have hparse : Pattern.parse "//\x7bid\x7d/\x7b*rest\x7d" =
      .ok [.literal [], .capture ['i', 'd'], .catchAll ['r', 'e', 's', 't']] := by rfl
  have hrefused : Pattern.parse "/\x7b*id\x7d/\x7b*rest\x7d" = .error .catchAllNotLast := by rfl
  refine ⟨rfl, ((legal_paths_are_routes _ rfl).2 _ hparse ()).2 (by decide), ?_⟩
  intro hlegal
  obtain ⟨pattern, hpattern⟩ := (@legal_paths_are_routes Unit _ rfl).1.2 hlegal
  rw [hrefused] at hpattern
  cases hpattern

end Gateway.Route
