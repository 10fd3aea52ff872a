/-
Module: Gateway.Proofs.RouteKeys
Layer: Proofs
Purpose: When two written patterns have one key.  The key spells the shape of the pattern and tells
  it (`routeKey_eq_iff`), since an erased capture holds braces and no literal does.  The shape in
  turn is told by the paths that the pattern stands for (`Pattern.shape_eq_iff_standsFor`): where
  two shapes differ first, the one of the later kind matches a path that the other does not.
Main exports: Route.splitOn_routeKey, Route.routeKey_eq_iff, Route.exists_matches,
  Route.shape_eq_of_matches, Route.Pattern.shape_eq_iff_standsFor
-/
import Gateway.Proofs.RouteTokens
import Gateway.Route.Matching

namespace Gateway.Route

/-! ### Keys -/

/-- The key of a segment's shape. -/
def Shape.key : Shape → List Char
  | .literal text => text
  | .capture => ['{', '}']
  | .catchAll => ['{', '*', '}']

theorem segmentKey_of_no_brace {text : List Char} (h : text.head? ≠ some '{') :
    segmentKey text = text := by
  unfold segmentKey
  split
  · exact absurd rfl h
  · exact absurd rfl h
  · rfl

theorem PlainLiteral.head?_ne {text : List Char} (h : PlainLiteral text) :
    text.head? ≠ some '{' := by
  intro hhead
  exact (h.1 '{' (List.mem_of_head? hhead)).2.1 rfl

/-- The key of a written segment is that of its shape. -/
theorem segmentKey_text {segment : Segment} (h : segment.WellFormed) :
    segmentKey segment.text = segment.shape.key := by
  cases segment with
  | literal text => exact segmentKey_of_no_brace (PlainLiteral.head?_ne h)
  | capture name =>
      have hname : PlainName name := h
      cases name with
      | nil => exact absurd rfl hname.1
      | cons c rest =>
          have hstar : c ≠ '*' := (hname.2 c List.mem_cons_self).2.2.2
          change segmentKey ('{' :: c :: (rest ++ ['}'])) = _
          unfold segmentKey
          split
          · rename_i heq
            exact absurd (List.cons.inj (List.cons.inj heq).2).1 hstar
          · rfl
          · rename_i _ hbrace
            exact absurd rfl (hbrace _)
  | catchAll name => rfl

theorem Segment.WellFormed.key_not_mem_slash {segment : Segment} (h : segment.WellFormed) :
    '/' ∉ segment.shape.key := by
  cases segment with
  | literal text => exact h.not_mem_slash
  | capture name | catchAll name => simp [Segment.shape, Shape.key]

/-- The key of a well formed segment tells its shape. -/
theorem Segment.WellFormed.shape_eq_of_key {a b : Segment} (ha : a.WellFormed) (hb : b.WellFormed)
    (h : a.shape.key = b.shape.key) : a.shape = b.shape := by
  -- an erased capture opens with a brace, and a literal does not
  have hliteral : ∀ {text : List Char} {rest : List Char}, PlainLiteral text →
      text ≠ '{' :: rest := by
    intro text rest hplain heq
    exact hplain.head?_ne (heq ▸ rfl)
  cases a with
  | literal text =>
      cases b with
      | literal text' => exact congrArg Shape.literal h
      | capture name | catchAll name => exact absurd h (hliteral ha)
  | capture name =>
      cases b with
      | literal text' => exact absurd h.symm (hliteral hb)
      | capture name' => rfl
      | catchAll name' => simp [Segment.shape, Shape.key] at h
  | catchAll name =>
      cases b with
      | literal text' => exact absurd h.symm (hliteral hb)
      | capture name' => simp [Segment.shape, Shape.key] at h
      | catchAll name' => rfl

/-- Cut at its slashes, the key of a written pattern is the keys of its segments. -/
theorem splitOn_routeKey {pattern : Pattern} (h : pattern.WellFormed) :
    splitOn '/' (routeKey pattern.text).toList = [] :: pattern.shape.map Shape.key := by
  obtain ⟨rest, hrest, hsplit⟩ := h.exists_rest
  have hpieces : splitOn '/' pattern.text.toList = [] :: pattern.map Segment.text := by
    rw [hrest, ← hsplit]
    exact splitOn_append List.not_mem_nil rest
  have hkeys : (splitOn '/' pattern.text.toList).map segmentKey =
      [] :: pattern.shape.map Shape.key := by
    rw [hpieces, List.map_cons, List.map_map, Pattern.shape, List.map_map]
    congr 1
    exact List.map_congr_left fun segment hmem => segmentKey_text (h.2.1 segment hmem)
  rw [routeKey, hkeys, String.toList_ofList]
  apply splitOn_joinWith (List.cons_ne_nil _ _)
  intro piece hpiece
  rcases List.mem_cons.1 hpiece with rfl | hpiece
  · exact List.not_mem_nil
  · rw [Pattern.shape, List.map_map] at hpiece
    obtain ⟨segment, hmem, rfl⟩ := List.mem_map.1 hpiece
    exact (h.2.1 segment hmem).key_not_mem_slash

/-- Keys of well formed segments, one after the other, tell the shapes. -/
theorem shape_eq_of_keys {p q : Pattern} (hp : ∀ segment ∈ p, segment.WellFormed)
    (hq : ∀ segment ∈ q, segment.WellFormed)
    (h : p.shape.map Shape.key = q.shape.map Shape.key) : p.shape = q.shape := by
  induction p generalizing q with
  | nil =>
      cases q with
      | nil => rfl
      | cons b q => cases h
  | cons a p ih =>
      cases q with
      | nil => cases h
      | cons b q =>
          obtain ⟨ha, hp⟩ := List.forall_mem_cons.1 hp
          obtain ⟨hb, hq⟩ := List.forall_mem_cons.1 hq
          obtain ⟨hhead, htail⟩ := List.cons.inj h
          change a.shape :: Pattern.shape p = b.shape :: Pattern.shape q
          rw [ha.shape_eq_of_key hb hhead, ih hp hq htail]

/-- Two written patterns have one key exactly if they have one shape. -/
theorem routeKey_eq_iff {p q : Pattern} (hp : p.WellFormed) (hq : q.WellFormed) :
    routeKey p.text = routeKey q.text ↔ p.shape = q.shape := by
  constructor
  · intro h
    have hpieces := splitOn_routeKey hp
    rw [h, splitOn_routeKey hq] at hpieces
    exact shape_eq_of_keys hp.2.1 hq.2.1 (List.cons.inj hpieces).2.symm
  · intro h
    have hpieces : splitOn '/' (routeKey p.text).toList = splitOn '/' (routeKey q.text).toList := by
      rw [splitOn_routeKey hp, splitOn_routeKey hq, h]
    have hwhole : '/' :: (routeKey p.text).toList = '/' :: (routeKey q.text).toList := by
      rw [← flatMap_splitOn, hpieces, flatMap_splitOn]
    exact String.toList_inj.1 (List.cons.inj hwhole).2

/-! ### Paths -/

theorem not_matches_nil {shape : Shape} {shapes : List Shape} : ¬ Matches (shape :: shapes) [] := by
  intro h
  cases h with
  | catchAll hne _ => exact hne rfl

theorem matches_literal_iff {text segment : List Char} {shapes : List Shape}
    {segments : List (List Char)} : Matches (.literal text :: shapes) (segment :: segments) ↔
      segment = text ∧ Matches shapes segments := by
  constructor
  · intro h
    cases h with
    | literal hrest => exact ⟨rfl, hrest⟩
  · rintro ⟨rfl, hrest⟩
    exact .literal hrest

theorem matches_capture_iff {segment : List Char} {shapes : List Shape}
    {segments : List (List Char)} : Matches (.capture :: shapes) (segment :: segments) ↔
      segment ≠ [] ∧ Matches shapes segments := by
  constructor
  · intro h
    cases h with
    | capture hne hrest => exact ⟨hne, hrest⟩
  · intro h
    exact .capture h.1 h.2

/-- The segments of a request path. -/
def AreSegments (segments : List (List Char)) : Prop :=
  ∀ segment ∈ segments, '/' ∉ segment

/-- Every shape has a path. -/
theorem exists_matches {shapes : List Shape} (h : IsShape shapes) :
    ∃ segments, AreSegments segments ∧ Matches shapes segments := by
  have hletter : '/' ∉ ['x'] := by decide
  induction shapes with
  | nil => exact ⟨[], nofun, .nil⟩
  | cons shape shapes ih =>
      obtain ⟨segments, hsegments, hmatches⟩ := ih h.tail
      cases shape with
      | literal text =>
          have htext : '/' ∉ text := h.not_mem_slash text List.mem_cons_self
          exact ⟨text :: segments, List.forall_mem_cons.2 ⟨htext, hsegments⟩, .literal hmatches⟩
      | capture =>
          exact ⟨['x'] :: segments, List.forall_mem_cons.2 ⟨hletter, hsegments⟩,
            .capture (List.cons_ne_nil _ _) hmatches⟩
      | catchAll =>
          obtain rfl := h.eq_nil_of_catchAll
          exact ⟨[['x']], List.forall_mem_singleton.2 hletter, .catchAll (by decide) (by decide)⟩

/-- Where the kinds of two segments differ, the later kind matches a path that the earlier does
not. -/
theorem exists_matches_of_rank_lt {a b : Shape} {s t : List Shape} (ha : IsShape (a :: s))
    (hb : IsShape (b :: t)) (h : a.rank < b.rank) :
    ∃ segments, AreSegments segments ∧ Matches (b :: t) segments ∧ ¬ Matches (a :: s) segments := by
  obtain ⟨segments, hsegments, hmatches⟩ := exists_matches hb.tail
  have hletter : '/' ∉ ['x'] := by decide
  cases a with
  | literal text =>
      -- a segment that is longer than the literal
      have hlonger : 'x' :: text ≠ text := List.cons_ne_self _ _
      have hplain : '/' ∉ 'x' :: text :=
        List.not_mem_cons_of_ne_of_not_mem (by decide) (ha.not_mem_slash text List.mem_cons_self)
      cases b with
      | literal _ => exact absurd h (Nat.lt_irrefl 0)
      | capture =>
          refine ⟨('x' :: text) :: segments, List.forall_mem_cons.2 ⟨hplain, hsegments⟩,
            .capture (List.cons_ne_nil _ _) hmatches, ?_⟩
          exact fun hother => hlonger (matches_literal_iff.1 hother).1
      | catchAll =>
          obtain rfl := hb.eq_nil_of_catchAll
          refine ⟨['x' :: text], List.forall_mem_singleton.2 hplain,
            .catchAll (List.cons_ne_nil _ _) (by simp), ?_⟩
          exact fun hother => hlonger (matches_literal_iff.1 hother).1
  | capture =>
      cases b with
      | literal _ => cases h
      | capture => exact absurd h (Nat.lt_irrefl 1)
      | catchAll =>
          obtain rfl := hb.eq_nil_of_catchAll
          cases s with
          | nil =>
              -- two segments are too many for a capture at the end
              refine ⟨[['x'], ['x']], by simp [AreSegments], .catchAll (by decide) (by decide), ?_⟩
              intro hother
              cases (matches_capture_iff.1 hother).2
          | cons next s =>
              -- one segment is too few for a capture with something behind it
              refine ⟨[['x']], List.forall_mem_singleton.2 hletter,
                .catchAll (by decide) (by decide), ?_⟩
              exact fun hother => not_matches_nil (matches_capture_iff.1 hother).2
  | catchAll =>
      -- no kind is later
      cases b <;> simp [Shape.rank] at h

/-- The paths that a shape matches tell the shape. -/
theorem shape_eq_of_matches {s t : List Shape} (hs : IsShape s) (ht : IsShape t)
    (h : ∀ segments, AreSegments segments → (Matches s segments ↔ Matches t segments)) : s = t := by
  induction s generalizing t with
  | nil =>
      cases t with
      | nil => rfl
      | cons b t => exact absurd ((h [] nofun).1 .nil) not_matches_nil
  | cons a s ih =>
      cases t with
      | nil => exact absurd ((h [] nofun).2 .nil) not_matches_nil
      | cons b t =>
          have hrank : a.rank = b.rank := by
            apply Nat.le_antisymm
            · apply Nat.le_of_not_lt
              intro hlt
              obtain ⟨segments, hsegments, hyes, hno⟩ := exists_matches_of_rank_lt ht hs hlt
              exact hno ((h segments hsegments).1 hyes)
            · apply Nat.le_of_not_lt
              intro hlt
              obtain ⟨segments, hsegments, hyes, hno⟩ := exists_matches_of_rank_lt hs ht hlt
              exact hno ((h segments hsegments).2 hyes)
          cases a with
          | literal text =>
              cases b with
              | literal text' =>
                  have htext : '/' ∉ text := hs.not_mem_slash text List.mem_cons_self
                  have hall : ∀ segments, AreSegments segments →
                      (Matches s segments ↔ text = text' ∧ Matches t segments) := by
                    intro segments hsegments
                    rw [← matches_literal_iff, ← h _ (List.forall_mem_cons.2 ⟨htext, hsegments⟩),
                      matches_literal_iff, and_iff_right rfl]
                  obtain ⟨segments, hsegments, hmatches⟩ := exists_matches hs.tail
                  obtain ⟨rfl, _⟩ := (hall segments hsegments).1 hmatches
                  rw [ih hs.tail ht.tail]
                  intro segments hsegments
                  simpa using hall segments hsegments
              | capture | catchAll => cases hrank
          | capture =>
              cases b with
              | capture =>
                  have hletter : '/' ∉ ['x'] := by decide
                  rw [ih hs.tail ht.tail]
                  intro segments hsegments
                  have hboth := h (['x'] :: segments) (List.forall_mem_cons.2 ⟨hletter, hsegments⟩)
                  simpa [matches_capture_iff] using hboth
              | literal _ | catchAll => cases hrank
          | catchAll =>
              cases b with
              | catchAll => rw [hs.eq_nil_of_catchAll, ht.eq_nil_of_catchAll]
              | literal _ | capture => cases hrank

theorem exists_path {segments : List (List Char)} (hne : segments ≠ [])
    (h : AreSegments segments) : ∃ path, pathSegments? path = some segments := by
  cases segments with
  | nil => exact absurd rfl hne
  | cons segment segments =>
      refine ⟨String.ofList ('/' :: (segment ++ segments.flatMap ('/' :: ·))), ?_⟩
      rw [pathSegments?, String.toList_ofList]
      exact congrArg some (splitOn_of_flatMap h rfl)

/-- Two patterns differ at most in the names of their captures exactly if they stand for the same
request paths. -/
theorem Pattern.shape_eq_iff_standsFor {p q : Pattern} (hp : p.WellFormed) (hq : q.WellFormed) :
    p.shape = q.shape ↔ ∀ path, p.StandsFor path ↔ q.StandsFor path := by
  constructor
  · intro h path
    rw [Pattern.StandsFor, Pattern.StandsFor, h]
  · intro h
    apply shape_eq_of_matches hp.isShape hq.isShape
    intro segments hsegments
    by_cases hne : segments = []
    · subst hne
      have hnone : ∀ pattern : Pattern, pattern.WellFormed → ¬ Matches pattern.shape [] := by
        intro pattern hwell
        cases pattern with
        | nil => exact absurd rfl hwell.1
        | cons segment pattern => exact not_matches_nil
      exact iff_of_false (hnone p hp) (hnone q hq)
    · obtain ⟨path, hpath⟩ := exists_path hne hsegments
      have hboth := h path
      simpa [Pattern.StandsFor, hpath] using hboth

end Gateway.Route
