/-
Module: Gateway.Proofs.Following
Layer: Proofs
Purpose: Following a path through the router finds the route that is the most specific of those that
  accept the path, and gives up only if no route accepts it (`leads_follow`).  In terms of patterns:
  a route accepts a path if its pattern reaches it (`accepts_tokensOf_iff`), and which of two routes
  goes first is settled at the first segment where their patterns differ
  (`moreSpecific_of_prefers`).
Main exports: Route.Accepts, Route.Prefers, Route.Leads, Route.leads_follow,
  Route.accepts_tokensOf_iff, Route.moreSpecific_of_prefers
-/
import Gateway.Proofs.RouteTokens
import Gateway.Route.Matching

namespace Gateway.Route

/-! ### What a route accepts -/

/-- The paths that a route accepts.  A parameter takes all characters up to the next slash, and it
takes none only if that slash is there. -/
inductive Accepts : List Token → List Char → Prop where
  | nil : Accepts [] []
  | char {c tokens path} : Accepts tokens path → Accepts (.char c :: tokens) (c :: path)
  | param {c tokens path} : inSegment c = true → Accepts tokens (path.dropWhile inSegment) →
      Accepts (.param :: tokens) (c :: path)
  | skip {c tokens path} : inSegment c = false → Accepts tokens path →
      Accepts (.param :: .char c :: tokens) (c :: path)
  | catchAll {c path} : Accepts [.catchAll] (c :: path)

/-- How early a kind of token is tried. -/
def Token.rank : Token → Nat
  | .char _ => 0
  | .param => 1
  | .catchAll => 2

/-- The first route goes before the second at the first token where they differ. -/
inductive Prefers : List Token → List Token → Prop where
  | here {a b s t} : a.rank < b.rank → Prefers (a :: s) (b :: t)
  | there {a s t} : Prefers s t → Prefers (a :: s) (a :: t)

section Tokens

variable {c : Char} {tokens : List Token} {path : List Char}

theorem accepts_nil_left_iff : Accepts [] path ↔ path = [] := by
  constructor
  · intro h
    cases h
    rfl
  · rintro rfl
    exact .nil

theorem accepts_nil_right_iff : Accepts tokens [] ↔ tokens = [] := by
  constructor
  · intro h
    cases h
    rfl
  · rintro rfl
    exact .nil

theorem accepts_char_iff {d : Char} :
    Accepts (.char c :: tokens) (d :: path) ↔ c = d ∧ Accepts tokens path := by
  constructor
  · intro h
    cases h with
    | char h => exact ⟨rfl, h⟩
  · rintro ⟨rfl, h⟩
    exact .char h

/-- A parameter that takes something takes the rest of the segment. -/
theorem accepts_param_iff (hc : inSegment c = true) :
    Accepts (.param :: tokens) (c :: path) ↔ Accepts tokens (path.dropWhile inSegment) := by
  constructor
  · intro h
    cases h with
    | param _ h => exact h
    | skip hnot _ => rw [hc] at hnot; cases hnot
  · exact .param hc

/-- A parameter that takes nothing leaves the slash to the token after it. -/
theorem accepts_skip_iff (hc : inSegment c = false) : Accepts (.param :: tokens) (c :: path) ↔
    ∃ rest, tokens = .char c :: rest ∧ Accepts rest path := by
  constructor
  · intro h
    cases h with
    | param hin _ => rw [hc] at hin; cases hin
    | skip _ h => exact ⟨_, rfl, h⟩
  · rintro ⟨rest, rfl, h⟩
    exact .skip hc h

theorem accepts_catchAll_iff : Accepts (.catchAll :: tokens) (c :: path) ↔ tokens = [] := by
  constructor
  · intro h
    cases h
    rfl
  · rintro rfl
    exact .catchAll

/-- A character is led into itself, into a parameter, or into a catch-all. -/
theorem Accepts.exists_first (h : Accepts tokens (c :: path)) :
    ∃ first rest, tokens = first :: rest ∧
      (first = .char c ∨ first = .param ∨ first = .catchAll) := by
  cases h with
  | char _ => exact ⟨_, _, rfl, Or.inl rfl⟩
  | param _ _ | skip _ _ => exact ⟨_, _, rfl, Or.inr (Or.inl rfl)⟩
  | catchAll => exact ⟨_, _, rfl, Or.inr (Or.inr rfl)⟩

end Tokens

/-! ### Following a path -/

variable {α : Type} {branches : Branches α} {found : Option α}

/-- Where a path leads: along the most specific of the routes that accept it, and nowhere only if
none does. -/
def Leads (branches : Branches α) (path : List Char) : Option α → Prop
  | none => ∀ tokens target, (tokens, target) ∈ branches → ¬ Accepts tokens path
  | some target => ∃ tokens, (tokens, target) ∈ branches ∧ Accepts tokens path ∧
      ∀ other target', (other, target') ∈ branches → Accepts other path →
        other = tokens ∨ Prefers tokens other

/-- Where a path leads among the routes that go on with this token. -/
def LeadsBy (branches : Branches α) (path : List Char) (first : Token) : Option α → Prop
  | none => ∀ tokens target, (first :: tokens, target) ∈ branches → ¬ Accepts (first :: tokens) path
  | some target => ∃ tokens, (first :: tokens, target) ∈ branches ∧ Accepts (first :: tokens) path ∧
      ∀ other target', (first :: other, target') ∈ branches → Accepts (first :: other) path →
        first :: other = first :: tokens ∨ Prefers (first :: tokens) (first :: other)

theorem mem_after {token : Token} {rest : List Token} {target : α} :
    (rest, target) ∈ branches.after token ↔ (token :: rest, target) ∈ branches := by
  simp only [Branches.after, List.mem_filterMap]
  constructor
  · rintro ⟨b, hb, htaken⟩
    split at htaken
    · split at htaken
      · rename_i heq
        cases htaken
        rwa [← heq]
      · cases htaken
    · cases htaken
  · intro h
    exact ⟨_, h, if_pos rfl⟩

/-- Routes that go on with a token are followed behind it. -/
theorem leadsBy_of_after {first : Token} {path rest : List Char}
    (h : Leads (branches.after first) rest found)
    (hfirst : ∀ tokens, Accepts (first :: tokens) path ↔ Accepts tokens rest) :
    LeadsBy branches path first found := by
  cases found with
  | none =>
      intro tokens target hmem haccepts
      exact h tokens target (mem_after.2 hmem) ((hfirst tokens).1 haccepts)
  | some target =>
      obtain ⟨tokens, hmem, haccepts, hbest⟩ := h
      refine ⟨tokens, mem_after.1 hmem, (hfirst tokens).2 haccepts, ?_⟩
      intro other target' hother hothers
      rcases hbest other target' (mem_after.2 hother) ((hfirst other).1 hothers) with rfl | hprefers
      · exact Or.inl rfl
      · exact Or.inr (.there hprefers)

/-- Routes that go on with a parameter that takes nothing are followed behind the slash. -/
theorem leadsBy_of_skip {c : Char} {rest : List Char} (hc : inSegment c = false)
    (h : LeadsBy (branches.after .param) (c :: rest) (.char c) found) :
    LeadsBy branches (c :: rest) .param found := by
  have hskip : ∀ {tokens}, Accepts (.param :: tokens) (c :: rest) →
      ∃ others, tokens = .char c :: others ∧ Accepts tokens (c :: rest) := by
    intro tokens haccepts
    obtain ⟨others, rfl, hothers⟩ := (accepts_skip_iff hc).1 haccepts
    exact ⟨others, rfl, .char hothers⟩
  cases found with
  | none =>
      intro tokens target hmem haccepts
      obtain ⟨others, rfl, hothers⟩ := hskip haccepts
      exact h others target (mem_after.2 hmem) hothers
  | some target =>
      obtain ⟨tokens, hmem, haccepts, hbest⟩ := h
      refine ⟨.char c :: tokens, mem_after.1 hmem, ?_, ?_⟩
      · exact .skip hc (accepts_char_iff.1 haccepts).2
      · intro other target' hother hothers
        obtain ⟨others, rfl, hothers⟩ := hskip hothers
        rcases hbest others target' (mem_after.2 hother) hothers with heq | hprefers
        · exact Or.inl (by rw [heq])
        · exact Or.inr (.there hprefers)

/-- Characters go before parameters, and parameters before catch-alls. -/
theorem leads_or {c : Char} {rest : List Char} {byChar byParam byCatchAll : Option α}
    (hchar : LeadsBy branches (c :: rest) (.char c) byChar)
    (hparam : LeadsBy branches (c :: rest) .param byParam)
    (hcatchAll : LeadsBy branches (c :: rest) .catchAll byCatchAll) :
    Leads branches (c :: rest) (byChar.or (byParam.or byCatchAll)) := by
  rcases byChar with _ | target
  · rcases byParam with _ | target
    · rcases byCatchAll with _ | target
      · intro tokens target hmem haccepts
        obtain ⟨first, others, rfl, rfl | rfl | rfl⟩ := haccepts.exists_first
        · exact hchar others target hmem haccepts
        · exact hparam others target hmem haccepts
        · exact hcatchAll others target hmem haccepts
      · obtain ⟨tokens, hmem, haccepts, hbest⟩ := hcatchAll
        refine ⟨.catchAll :: tokens, hmem, haccepts, ?_⟩
        intro other target' hother hothers
        obtain ⟨first, others, rfl, rfl | rfl | rfl⟩ := hothers.exists_first
        · exact absurd hothers (hchar others target' hother)
        · exact absurd hothers (hparam others target' hother)
        · exact hbest others target' hother hothers
    · obtain ⟨tokens, hmem, haccepts, hbest⟩ := hparam
      refine ⟨.param :: tokens, hmem, haccepts, ?_⟩
      intro other target' hother hothers
      obtain ⟨first, others, rfl, rfl | rfl | rfl⟩ := hothers.exists_first
      · exact absurd hothers (hchar others target' hother)
      · exact hbest others target' hother hothers
      · exact Or.inr (.here Nat.one_lt_two)
  · obtain ⟨tokens, hmem, haccepts, hbest⟩ := hchar
    refine ⟨.char c :: tokens, hmem, haccepts, ?_⟩
    intro other target' hother hothers
    obtain ⟨first, others, rfl, rfl | rfl | rfl⟩ := hothers.exists_first
    · exact hbest others target' hother hothers
    · exact Or.inr (.here Nat.one_pos)
    · exact Or.inr (.here Nat.two_pos)

/-- At the end of a path only a route that ends there accepts it. -/
theorem leads_here (branches : Branches α) : Leads branches [] branches.here? := by
  cases hfind : branches.find? (·.1.isEmpty) with
  | none =>
      simp only [Branches.here?, hfind, Option.map_none]
      intro tokens target hmem haccepts
      rw [accepts_nil_right_iff] at haccepts
      subst haccepts
      exact absurd rfl (List.find?_eq_none.1 hfind _ hmem)
  | some b =>
      simp only [Branches.here?, hfind, Option.map_some]
      have hempty := List.find?_some hfind
      refine ⟨[], ?_, .nil, ?_⟩
      · rw [← List.isEmpty_iff.1 hempty]
        exact List.mem_of_find?_eq_some hfind
      · intro other _ _ hothers
        exact Or.inl (accepts_nil_right_iff.1 hothers)

/-- Following a path finds where it leads. -/
theorem leads_follow (branches : Branches α) (path : List Char) :
    Leads branches path (branches.follow path) := by
  cases path with
  | nil =>
      rw [Branches.follow]
      exact leads_here branches
  | cons c rest =>
      rw [Branches.follow]
      split
      · rename_i hempty
        rw [List.isEmpty_iff.1 hempty]
        exact fun _ _ hmem => absurd hmem List.not_mem_nil
      · apply leads_or
        · apply leadsBy_of_after (leads_follow (branches.after (.char c)) rest)
          exact fun _ => accepts_char_iff.trans (and_iff_right rfl)
        · split
          · rename_i hc
            exact leadsBy_of_after (leads_follow (branches.after .param) _)
              fun _ => accepts_param_iff hc
          · rename_i hc
            have hslash : inSegment c = false := Bool.eq_false_iff.2 hc
            apply leadsBy_of_skip hslash
            apply leadsBy_of_after
              (leads_follow ((branches.after .param).after (.char c)) rest)
            exact fun _ => accepts_char_iff.trans (and_iff_right rfl)
        · apply leadsBy_of_after (leads_here (branches.after .catchAll))
          exact fun _ => accepts_catchAll_iff.trans accepts_nil_right_iff.symm
termination_by path.length
decreasing_by
  all_goals
    have hle := (List.dropWhile_sublist inSegment (l := rest)).length_le
    simp only [List.length_cons]; omega

/-! ### Routes of patterns -/

/-- The segments of a path, a slash in front of each. -/
def pathOf (segments : List (List Char)) : List Char :=
  segments.flatMap ('/' :: ·)

@[simp] theorem pathOf_nil : pathOf [] = [] := rfl

@[simp] theorem pathOf_cons (segment : List Char) (segments : List (List Char)) :
    pathOf (segment :: segments) = '/' :: (segment ++ pathOf segments) := rfl

theorem inSegment_iff {c : Char} : inSegment c = true ↔ c ≠ '/' := by
  simp [inSegment]

theorem dropWhile_inSegment {segment : List Char} (h : '/' ∉ segment)
    (segments : List (List Char)) :
    (segment ++ pathOf segments).dropWhile inSegment = pathOf segments := by
  have hsegment : ∀ c ∈ segment, inSegment c = true := by
    intro c hc
    rw [inSegment_iff]
    rintro rfl
    exact h hc
  rw [List.dropWhile_append_of_pos hsegment]
  cases segments with
  | nil => rfl
  | cons next segments => rfl

theorem accepts_tokensOf_slash {shapes : List Shape} {c : Char} {path : List Char}
    (h : Accepts (tokensOf shapes) (c :: path)) : c = '/' := by
  cases shapes with
  | nil => cases h
  | cons shape shapes => exact (accepts_char_iff.1 h).1.symm

/-- A literal accepts the segment that it spells. -/
theorem accepts_literal_iff {text segment : List Char} (htext : '/' ∉ text)
    (hsegment : '/' ∉ segment) (shapes : List Shape) (segments : List (List Char)) :
    Accepts (text.map .char ++ tokensOf shapes) (segment ++ pathOf segments) ↔
      text = segment ∧ Accepts (tokensOf shapes) (pathOf segments) := by
  induction text generalizing segment with
  | nil =>
      cases segment with
      | nil => simp
      | cons d segment =>
          apply iff_of_false
          · intro h
            obtain rfl : d = '/' := accepts_tokensOf_slash h
            exact hsegment List.mem_cons_self
          · intro h
            cases h.1
  | cons c text ih =>
      rw [List.mem_cons, not_or] at htext
      cases segment with
      | nil =>
          apply iff_of_false
          · intro h
            cases segments with
            | nil => cases h
            | cons next segments => exact htext.1 (accepts_char_iff.1 h).1.symm
          · intro h
            cases h.1
      | cons d segment =>
          rw [List.mem_cons, not_or] at hsegment
          simp only [List.map_cons, List.cons_append, accepts_char_iff, ih htext.2 hsegment.2,
            List.cons.injEq, and_assoc]

/-- A capture accepts every segment but an empty last one. -/
theorem accepts_capture_iff {segment : List Char} (hsegment : '/' ∉ segment) (shapes : List Shape)
    (segments : List (List Char)) :
    Accepts (.param :: tokensOf shapes) (segment ++ pathOf segments) ↔
      (segment ≠ [] ∨ segments ≠ []) ∧ Accepts (tokensOf shapes) (pathOf segments) := by
  cases segment with
  | nil =>
      cases segments with
      | nil => simp [accepts_nil_right_iff]
      | cons next segments =>
          -- The parameter takes nothing; what comes next has to be the slash of the next segment.
          have hslash : inSegment '/' = false := rfl
          rw [List.nil_append, pathOf_cons, accepts_skip_iff hslash]
          cases shapes with
          | nil => simp [accepts_nil_left_iff]
          | cons shape shapes => simp [accepts_char_iff]
  | cons c segment =>
      have hc : inSegment c = true := by
        rw [inSegment_iff]
        rintro rfl
        exact hsegment List.mem_cons_self
      rw [List.mem_cons, not_or] at hsegment
      rw [List.cons_append, accepts_param_iff hc, dropWhile_inSegment hsegment.2]
      simp

theorem accepts_rest_iff {path : List Char} : Accepts [.catchAll] path ↔ path ≠ [] := by
  cases path with
  | nil => simp [accepts_nil_right_iff]
  | cons c path => exact iff_of_true .catchAll (List.cons_ne_nil _ _)

/-- A route of a pattern accepts the segments that the pattern reaches. -/
theorem accepts_tokensOf_iff {shapes : List Shape} {segments : List (List Char)}
    (hshapes : IsShape shapes) (hsegments : ∀ segment ∈ segments, '/' ∉ segment) :
    Accepts (tokensOf shapes) (pathOf segments) ↔ Reaches shapes segments := by
  induction shapes generalizing segments with
  | nil =>
      rw [tokensOf_nil, accepts_nil_left_iff]
      cases segments with
      | nil => exact iff_of_true rfl .nil
      | cons segment segments =>
          apply iff_of_false (List.cons_ne_nil _ _)
          intro h
          cases h
  | cons shape shapes ih =>
      cases segments with
      | nil =>
          apply iff_of_false
          · rw [pathOf_nil, accepts_nil_right_iff]
            exact List.cons_ne_nil _ _
          · intro h
            cases h with
            | catchAll hne _ => exact hne rfl
      | cons segment segments =>
          obtain ⟨hsegment, hsegments⟩ := List.forall_mem_cons.1 hsegments
          have ih := ih hshapes.tail hsegments
          rw [tokensOf_cons, pathOf_cons, accepts_char_iff, and_iff_right rfl]
          cases shape with
          | literal text =>
              have htext : '/' ∉ text := hshapes.not_mem_slash text List.mem_cons_self
              rw [Shape.tokens, accepts_literal_iff htext hsegment, ih]
              constructor
              · rintro ⟨rfl, h⟩
                exact .literal h
              · intro h
                cases h with
                | literal h => exact ⟨rfl, h⟩
          | capture =>
              rw [Shape.tokens, List.singleton_append, accepts_capture_iff hsegment, ih]
              constructor
              · rintro ⟨htakes, h⟩
                exact .capture htakes h
              · intro h
                cases h with
                | capture htakes h => exact ⟨htakes, h⟩
          | catchAll =>
              obtain rfl := hshapes.eq_nil_of_catchAll
              have hrest : segment ++ pathOf segments ≠ [] ↔ segment :: segments ≠ [[]] := by
                cases segments <;> simp
              rw [Shape.tokens, tokensOf_nil, List.append_nil, accepts_rest_iff, hrest]
              constructor
              · exact .catchAll (List.cons_ne_nil _ _)
              · intro h
                cases h with
                | catchAll _ hrest => exact hrest

/-- A route of a pattern accepts the paths whose segments the pattern reaches. -/
theorem accepts_path_iff {shapes : List Shape} (hshapes : IsShape shapes) (hne : shapes ≠ [])
    {path : String} : Accepts (tokensOf shapes) path.toList ↔
      ∃ segments, pathSegments? path = some segments ∧ Reaches shapes segments := by
  unfold pathSegments?
  split
  · rename_i rest hpath
    have hpieces : pathOf (splitOn '/' rest) = '/' :: rest := flatMap_splitOn rest
    rw [hpath, ← hpieces, accepts_tokensOf_iff hshapes fun _ => not_mem_of_mem_splitOn]
    simp
  · rename_i hother
    apply iff_of_false
    · intro h
      cases shapes with
      | nil => exact hne rfl
      | cons shape shapes =>
          cases hpath : path.toList with
          | nil => rw [hpath] at h; cases h
          | cons c rest =>
              rw [hpath] at h
              obtain rfl := accepts_tokensOf_slash h
              exact hother rest hpath
    · rintro ⟨segments, h, _⟩
      cases h

/-! ### Which pattern goes first -/

theorem prefers_append_left {first s t : List Token} (h : Prefers (first ++ s) (first ++ t)) :
    Prefers s t := by
  induction first with
  | nil => exact h
  | cons token first ih =>
      cases h with
      | here hlt => exact absurd hlt (Nat.lt_irrefl _)
      | there h => exact ih h

/-- Nothing goes before a character. -/
theorem not_prefers_literal (token : Token) (htoken : 0 < token.rank) (s : List Token)
    (text : List Char) (shapes : List Shape) :
    ¬ Prefers (token :: s) (text.map .char ++ tokensOf shapes) := by
  have hchar : ∀ c t, ¬ Prefers (token :: s) (.char c :: t) := by
    intro c t h
    cases h with
    | here hlt => exact absurd hlt (Nat.not_lt_zero _)
    | there _ => exact absurd htoken (Nat.lt_irrefl _)
  cases text with
  | nil =>
      cases shapes with
      | nil =>
          intro h
          cases h
      | cons shape shapes => exact hchar _ _
  | cons c text => exact hchar _ _

/-- Of two patterns that reach one path, the one whose route goes first is the more specific. -/
theorem moreSpecific_of_prefers {s t : List Shape} {segments : List (List Char)} (hs : IsShape s)
    (ht : IsShape t) (hreaches : Reaches s segments) (hreaches' : Reaches t segments)
    (h : Prefers (tokensOf s) (tokensOf t)) : MoreSpecific s t := by
  induction s generalizing t segments with
  | nil => cases h
  | cons a s ih =>
      cases t with
      | nil => cases h
      | cons b t =>
          rw [tokensOf_cons, tokensOf_cons] at h
          have h : Prefers (a.tokens ++ tokensOf s) (b.tokens ++ tokensOf t) :=
            @prefers_append_left [.char '/'] _ _ h
          -- Two segments of one kind are the same, and then what follows them decides.
          cases hreaches with
          | literal hrest =>
              cases hreaches' with
              | literal hrest' =>
                  exact .there (ih hs.tail ht.tail hrest hrest' (prefers_append_left h))
              | capture | catchAll => exact .here (by simp [Shape.rank])
          | capture _ hrest =>
              cases hreaches' with
              | literal => exact absurd h (not_prefers_literal .param Nat.one_pos _ _ _)
              | capture _ hrest' =>
                  exact .there (ih hs.tail ht.tail hrest hrest' (prefers_append_left h))
              | catchAll => exact .here (by simp [Shape.rank])
          | catchAll _ _ =>
              cases hreaches' with
              | literal => exact absurd h (not_prefers_literal .catchAll Nat.two_pos _ _ _)
              | capture =>
                  cases h with
                  | here hlt => exact absurd hlt (by decide)
              | catchAll =>
                  cases prefers_append_left h

/-- No two patterns go before each other. -/
theorem MoreSpecific.asymm {s t : List Shape} (h : MoreSpecific s t) : ¬ MoreSpecific t s := by
  induction h with
  | here hlt =>
      intro h'
      cases h' with
      | here hlt' => exact Nat.lt_asymm hlt hlt'
      | there _ => exact Nat.lt_irrefl _ hlt
  | there _ ih =>
      intro h'
      cases h' with
      | here hlt => exact Nat.lt_irrefl _ hlt
      | there h' => exact ih h'

end Gateway.Route
