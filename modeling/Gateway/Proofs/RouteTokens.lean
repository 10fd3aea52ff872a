/-
Module: Gateway.Proofs.RouteTokens
Layer: Proofs
Purpose: What the router makes of a written pattern.  It reads the tokens of the pattern's shape
  (`readRoute_text`), so two patterns conflict in it if they have one shape, or if one has a capture
  where the other, after the same beginning, has a catch-all (`conflict_iff`).
Main exports: Route.tokensOf, Route.readRoute_text, Route.Clash, Route.conflict_iff,
  Route.tokensOf_injective, Route.Router.ofList_eq_ok_iff
-/
import Gateway.Proofs.Patterns
import Gateway.Route.Router

namespace Gateway.Route

/-! ### Tokens of a shape -/

/-- The tokens of a segment's shape. -/
def Shape.tokens : Shape → List Token
  | .literal text => text.map .char
  | .capture => [.param]
  | .catchAll => [.catchAll]

/-- The tokens of a pattern's shape, a slash in front of every segment. -/
def tokensOf (shapes : List Shape) : List Token :=
  shapes.flatMap fun shape => .char '/' :: shape.tokens

@[simp] theorem tokensOf_nil : tokensOf [] = [] := rfl

@[simp] theorem tokensOf_cons (shape : Shape) (shapes : List Shape) :
    tokensOf (shape :: shapes) = .char '/' :: (shape.tokens ++ tokensOf shapes) := rfl

theorem count_param_tokensOf (shapes : List Shape) :
    (tokensOf shapes).count .param = shapes.count .capture := by
  induction shapes with
  | nil => rfl
  | cons shape shapes ih =>
      rw [tokensOf_cons, List.count_cons_of_ne (by decide), List.count_append, ih]
      cases shape with
      | literal text =>
          have hnone : (text.map Token.char).count .param = 0 := by
            rw [List.count_eq_zero]
            simp
          simp [Shape.tokens, hnone]
      | capture => simp [Shape.tokens, Nat.add_comm]
      | catchAll => simp [Shape.tokens]

/-! ### Reading a route -/

/-- A plain name ends at the first brace behind it. -/
theorem skipName?_append {name rest : List Char} (hname : ∀ c ∈ name, c ≠ '}' ∧ c ≠ '*' ∧ c ≠ '/')
    (hrest : rest.head? ≠ some '}') : skipName? (name ++ '}' :: rest) = some rest := by
  induction name with
  | nil =>
      cases rest with
      | nil => rfl
      | cons c rest =>
          have hc : c ≠ '}' := fun heq => hrest (by rw [heq]; rfl)
          rw [List.nil_append, skipName?]
          intro r heq
          exact hc (List.cons.inj heq).1
  | cons c name ih =>
      obtain ⟨hbrace, hstar, hslash⟩ := hname c List.mem_cons_self
      have ih := ih fun d hd => hname d (List.mem_cons_of_mem _ hd)
      rw [List.cons_append, skipName?, if_neg (by simp [hstar, hslash]), ih]
      · exact fun _ heq _ => hbrace heq
      · exact fun heq => hbrace heq

theorem readParam_capture {name tail : List Char} (hname : PlainName name)
    (htail : tail.head?.all (· == '/') = true) :
    ∃ h, readParam (name ++ '}' :: tail) = .ok (.param, ⟨tail, h⟩) := by
  have hbrace : tail.head? ≠ some '}' := by
    intro heq
    rw [heq] at htail
    cases htail
  obtain ⟨hne, hplain⟩ := hname
  cases name with
  | nil => exact absurd rfl hne
  | cons c name =>
      obtain ⟨_, _, hclose, hstar⟩ := hplain c List.mem_cons_self
      have hskip : skipName? (name ++ '}' :: tail) = some tail := by
        apply skipName?_append _ hbrace
        intro d hd
        obtain ⟨hslash, _, hclose, hstar⟩ := hplain d (List.mem_cons_of_mem _ hd)
        exact ⟨hclose, hstar, hslash⟩
      have hends : (tail.isEmpty || tail.head? == some '/') = true := by
        cases tail with
        | nil => rfl
        | cons d tail => simpa using htail
      rw [List.cons_append, readParam]
      · rw [if_neg (by simp [hstar])]
        split
        · rename_i hnone
          rw [hskip] at hnone
          cases hnone
        · rename_i rest hsome
          obtain rfl : tail = rest := Option.some.inj (hskip.symm.trans hsome)
          rw [if_neg (by simp [hstar]), if_pos hends]
          exact ⟨by simp only [List.length_cons, List.length_append]; omega, rfl⟩
      · exact fun heq => hclose heq

theorem readParam_catchAll {name : List Char} (hname : PlainName name) :
    ∃ h, readParam ('*' :: name ++ ['}']) = .ok (.catchAll, ⟨[], h⟩) := by
  obtain ⟨hne, hplain⟩ := hname
  have hskip : skipName? (name ++ ['}']) = some [] := by
    apply skipName?_append _ (by simp)
    intro d hd
    obtain ⟨hslash, _, hclose, hstar⟩ := hplain d hd
    exact ⟨hclose, hstar, hslash⟩
  have hhead : ((name ++ ['}']).head? == some '}') = false := by
    cases name with
    | nil => exact absurd rfl hne
    | cons c name =>
        rw [beq_eq_false_iff_ne]
        intro heq
        exact (hplain c List.mem_cons_self).2.2.1 (Option.some.inj heq)
  rw [List.cons_append, readParam]
  · rw [if_neg (by rw [hhead, Bool.and_false]; exact Bool.false_ne_true)]
    split
    · rename_i hnone
      rw [hskip] at hnone
      cases hnone
    · rename_i rest hsome
      obtain rfl : [] = rest := Option.some.inj (hskip.symm.trans hsome)
      rw [if_pos (by simp), if_pos (by simp)]
      exact ⟨by simp, rfl⟩
  · decide

theorem readTokens_char {c : Char} (hc : isBrace c = false) (rest : List Char) :
    readTokens (c :: rest) = (.char c :: ·) <$> readTokens rest := by
  have hbrace : ¬ (c = '{' ∨ c = '}') := by
    rw [← isBrace_iff, hc]
    exact Bool.false_ne_true
  rw [not_or] at hbrace
  rw [readTokens]
  · exact fun _ heq _ => hbrace.1 heq
  · exact fun _ heq _ => hbrace.2 heq
  · exact fun heq => hbrace.2 heq
  · exact fun heq => hbrace.1 heq

theorem readTokens_literal {text : List Char} (h : text.any isBrace = false) (tail : List Char) :
    readTokens (text ++ tail) = (text.map .char ++ ·) <$> readTokens tail := by
  induction text with
  | nil => simp
  | cons c text ih =>
      rw [List.any_cons, Bool.or_eq_false_iff] at h
      rw [List.cons_append, readTokens_char h.1, ih h.2]
      cases readTokens tail <;> rfl

theorem readTokens_param {text : List Char} {token : Token}
    {rest : { rest : List Char // rest.length < text.length }}
    (hopen : text.head? ≠ some '{') (hread : readParam text = .ok (token, rest)) :
    readTokens ('{' :: text) = (token :: ·) <$> readTokens rest.1 := by
  rw [readTokens]
  · rw [hread]
  · rintro rest rfl
    exact hopen rfl

/-- The tokens of a written segment in front of the rest of a route, which a catch-all does not
leave. -/
theorem readTokens_segment {segment : Segment} (h : segment.WellFormed) {tail : List Char}
    (htail : tail.head?.all (· == '/') = true) (hlast : segment.isCatchAll = true → tail = []) :
    readTokens (segment.text ++ tail) = (segment.shape.tokens ++ ·) <$> readTokens tail := by
  cases segment with
  | literal text =>
      obtain ⟨_, hbrace⟩ := (plainLiteral_iff h.not_mem_slash).1 h
      exact readTokens_literal hbrace tail
  | capture name =>
      have hname : PlainName name := h
      obtain ⟨_, hread⟩ := readParam_capture hname htail
      have hopen : (name ++ '}' :: tail).head? ≠ some '{' := by
        cases name with
        | nil => exact absurd rfl hname.1
        | cons c name =>
            intro heq
            exact (hname.2 c List.mem_cons_self).2.1 (Option.some.inj heq)
      have htext : (Segment.capture name).text ++ tail = '{' :: (name ++ '}' :: tail) := by
        simp [Segment.text]
      rw [htext, readTokens_param hopen hread]
      rfl
  | catchAll name =>
      obtain rfl := hlast rfl
      obtain ⟨_, hread⟩ := readParam_catchAll h
      have hopen : ('*' :: name ++ ['}']).head? ≠ some '{' := by simp
      rw [List.append_nil, Segment.text, List.cons_append, readTokens_param hopen hread]
      rfl

theorem readTokens_pattern {pattern : Pattern} (hwell : ∀ segment ∈ pattern, segment.WellFormed)
    (hcatch : ∀ segment ∈ pattern.dropLast, segment.isCatchAll = false) :
    readTokens ((pattern.map Segment.text).flatMap ('/' :: ·)) = .ok (tokensOf pattern.shape) := by
  induction pattern with
  | nil => simp [readTokens, Pattern.shape]
  | cons segment pattern ih =>
      obtain ⟨honly, hcatch⟩ := catchAll_dropLast_cons.1 hcatch
      obtain ⟨hfirst, hwell⟩ := List.forall_mem_cons.1 hwell
      have htail :
          ((pattern.map Segment.text).flatMap ('/' :: ·)).head?.all (· == '/') = true := by
        cases pattern <;> rfl
      have hlast : segment.isCatchAll = true →
          (pattern.map Segment.text).flatMap ('/' :: ·) = [] := by
        intro hall
        rw [honly hall]
        rfl
      rw [List.map_cons, List.flatMap_cons, List.cons_append, readTokens_char rfl,
        readTokens_segment hfirst htail hlast, ih hwell hcatch]
      rfl

theorem isReserved_text {segment : Segment} (h : segment.WellFormed) :
    isReserved segment.text = false := by
  cases segment with
  | literal text => exact ((plainLiteral_iff h.not_mem_slash).1 h).1
  | capture name | catchAll name => rfl

/-- The router reads a written pattern as the tokens of its shape, unless it has too many
captures. -/
theorem readRoute_text {pattern : Pattern} (h : pattern.WellFormed) :
    readRoute pattern.text =
      if mostParams < pattern.shape.count .capture then .error .tooManyParams
      else .ok (tokensOf pattern.shape) := by
  obtain ⟨rest, hrest, hsplit⟩ := h.exists_rest
  have hreserved : (splitOn '/' pattern.text.toList).any isReserved = false := by
    have hpieces : splitOn '/' pattern.text.toList = [] :: pattern.map Segment.text := by
      rw [hrest, ← hsplit]
      rfl
    rw [hpieces, List.any_cons, List.any_map, Bool.or_eq_false_iff]
    refine ⟨rfl, List.any_eq_false.2 fun segment hsegment => ?_⟩
    rw [Function.comp_apply, isReserved_text (h.2.1 segment hsegment)]
    exact Bool.false_ne_true
  have hread := readTokens_pattern h.2.1 h.2.2
  rw [← Pattern.toList_text] at hread
  rw [readRoute, if_neg (by simp [hrest]), if_neg (Bool.eq_false_iff.1 hreserved), hread,
    ← count_param_tokensOf]

/-! ### Conflicts -/

/-- After the same beginning one pattern has a capture and the other a catch-all. -/
inductive Clash : List Shape → List Shape → Prop where
  | capture {s t} : Clash (.capture :: s) (.catchAll :: t)
  | catchAll {s t} : Clash (.catchAll :: s) (.capture :: t)
  | there {a s t} : Clash s t → Clash (a :: s) (a :: t)

/-- Shapes as patterns have them: no slash within a literal, nothing behind a catch-all. -/
structure IsShape (shapes : List Shape) : Prop where
  not_mem_slash : ∀ text, .literal text ∈ shapes → '/' ∉ text
  not_mem_catchAll : .catchAll ∉ shapes.dropLast

theorem IsShape.tail {shape : Shape} {shapes : List Shape} (h : IsShape (shape :: shapes)) :
    IsShape shapes where
  not_mem_slash text hmem := h.not_mem_slash text (List.mem_cons_of_mem _ hmem)
  not_mem_catchAll hmem := by
    cases shapes with
    | nil => cases hmem
    | cons next shapes => exact h.not_mem_catchAll (List.mem_cons_of_mem _ hmem)

theorem IsShape.eq_nil_of_catchAll {rest : List Shape} (h : IsShape (.catchAll :: rest)) :
    rest = [] := by
  cases rest with
  | nil => rfl
  | cons next rest => exact absurd List.mem_cons_self h.not_mem_catchAll

theorem Pattern.WellFormed.isShape {pattern : Pattern} (h : pattern.WellFormed) :
    IsShape pattern.shape where
  not_mem_slash text hmem := by
    obtain ⟨segment, hsegment, hshape⟩ := List.mem_map.1 hmem
    cases segment with
    | literal text' =>
        cases hshape
        exact (h.2.1 _ hsegment).not_mem_slash
    | capture name | catchAll name => cases hshape
  not_mem_catchAll hmem := by
    rw [Pattern.shape, ← List.map_dropLast] at hmem
    obtain ⟨segment, hsegment, hshape⟩ := List.mem_map.1 hmem
    have hcatch := h.2.2 segment hsegment
    cases segment with
    | literal text | capture name => cases hshape
    | catchAll name => cases hcatch

/-- Literals that hold no slash are told apart at the latest by what follows them. -/
theorem conflict_literals {a b : List Char} (ha : '/' ∉ a) (hb : '/' ∉ b) (s t : List Shape) :
    conflict (a.map .char ++ tokensOf s) (b.map .char ++ tokensOf t) =
      (a == b && conflict (tokensOf s) (tokensOf t)) := by
  induction a generalizing b with
  | nil =>
      cases b with
      | nil => simp
      | cons d b =>
          have hd : ('/' == d) = false := by
            rw [beq_eq_false_iff_ne]
            rintro rfl
            exact hb List.mem_cons_self
          cases s with
          | nil => rfl
          | cons shape s => simp [conflict, hd]
  | cons c a ih =>
      rw [List.mem_cons, not_or] at ha
      cases b with
      | nil =>
          have hc : (c == '/') = false := by
            rw [beq_eq_false_iff_ne]
            exact Ne.symm ha.1
          cases t with
          | nil => rfl
          | cons shape t => simp [conflict, hc]
      | cons d b =>
          rw [List.mem_cons, not_or] at hb
          simp only [List.map_cons, List.cons_append, conflict, ih ha.2 hb.2]
          rw [← Bool.and_assoc]
          rfl

theorem conflict_literal (text : List Char) (s t : List Shape) {shape : Shape}
    (h : shape = .capture ∨ shape = .catchAll) :
    conflict (text.map .char ++ tokensOf s) (shape.tokens ++ tokensOf t) = false ∧
    conflict (shape.tokens ++ tokensOf t) (text.map .char ++ tokensOf s) = false := by
  rcases h with rfl | rfl <;> cases text <;> cases s <;> exact ⟨rfl, rfl⟩

theorem conflict_tokensOf_cons (a b : Shape) (s t : List Shape) :
    conflict (tokensOf (a :: s)) (tokensOf (b :: t)) =
      conflict (a.tokens ++ tokensOf s) (b.tokens ++ tokensOf t) := by
  simp [conflict]

theorem eq_or_clash_cons (a : Shape) (s t : List Shape) :
    a :: s = a :: t ∨ Clash (a :: s) (a :: t) ↔ s = t ∨ Clash s t := by
  constructor
  · intro hgiven
    rcases hgiven with h | h
    · exact Or.inl (List.cons.inj h).2
    · cases h with
      | there h => exact Or.inr h
  · intro hgiven
    rcases hgiven with rfl | h
    · exact Or.inl rfl
    · exact Or.inr (.there h)

/-- Patterns conflict in the router if they have one shape, or if a capture meets a catch-all. -/
theorem conflict_iff {s t : List Shape} (hs : IsShape s) (ht : IsShape t) :
    conflict (tokensOf s) (tokensOf t) = true ↔ s = t ∨ Clash s t := by
  induction s generalizing t with
  | nil =>
      cases t with
      | nil => exact iff_of_true rfl (Or.inl rfl)
      | cons b t =>
          apply iff_of_false Bool.false_ne_true
          intro h
          rcases h with h | h <;> cases h
  | cons a s ih =>
      cases t with
      | nil =>
          apply iff_of_false Bool.false_ne_true
          intro h
          rcases h with h | h <;> cases h
      | cons b t =>
          have hrest := ih hs.tail ht.tail
          rw [conflict_tokensOf_cons]
          cases a with
          | literal text =>
              have htext : '/' ∉ text := hs.not_mem_slash _ List.mem_cons_self
              cases b with
              | literal text' =>
                  have htext' : '/' ∉ text' := ht.not_mem_slash _ List.mem_cons_self
                  simp only [Shape.tokens, conflict_literals htext htext', Bool.and_eq_true,
                    beq_iff_eq, hrest]
                  constructor
                  · intro hgiven
                    rcases hgiven with ⟨rfl, h⟩
                    exact (eq_or_clash_cons _ s t).2 h
                  · intro h
                    obtain rfl : text = text' := by
                      rcases h with h | h <;> cases h <;> rfl
                    exact ⟨rfl, (eq_or_clash_cons _ s t).1 h⟩
              | capture | catchAll =>
                  apply iff_of_false
                  · exact Bool.eq_false_iff.1 (conflict_literal text s t (by simp)).1
                  · intro h
                    rcases h with h | h <;> cases h
          | capture =>
              cases b with
              | literal text =>
                  apply iff_of_false
                  · exact Bool.eq_false_iff.1 (conflict_literal text t s (by simp)).2
                  · intro h
                    rcases h with h | h <;> cases h
              | capture => exact hrest.trans (eq_or_clash_cons _ s t).symm
              | catchAll => exact iff_of_true rfl (Or.inr .capture)
          | catchAll =>
              cases b with
              | literal text =>
                  apply iff_of_false
                  · exact Bool.eq_false_iff.1 (conflict_literal text t s (by simp)).2
                  · intro h
                    rcases h with h | h <;> cases h
              | capture => exact iff_of_true rfl (Or.inr .catchAll)
              | catchAll =>
                  rw [hs.eq_nil_of_catchAll, ht.eq_nil_of_catchAll]
                  exact iff_of_true rfl (Or.inl rfl)

theorem Clash.tokensOf_ne {s t : List Shape} (h : Clash s t) : tokensOf s ≠ tokensOf t := by
  induction h with
  | capture | catchAll => simp [Shape.tokens]
  | there _ ih =>
      intro heq
      rw [tokensOf_cons, tokensOf_cons, List.cons.injEq] at heq
      exact ih (List.append_cancel_left heq.2)

/-- The tokens of a pattern tell its shape. -/
theorem tokensOf_injective {s t : List Shape} (hs : IsShape s) (ht : IsShape t)
    (h : tokensOf s = tokensOf t) : s = t := by
  have hconflict : conflict (tokensOf s) (tokensOf t) = true := by
    rw [h]
    exact (conflict_iff ht ht).2 (Or.inl rfl)
  rcases (conflict_iff hs ht).1 hconflict with heq | hclash
  · exact heq
  · exact absurd h hclash.tokensOf_ne

theorem conflict_comm (s t : List Token) : conflict s t = conflict t s := by
  induction s generalizing t with
  | nil =>
      cases t with
      | nil => rfl
      | cons b t => cases b <;> rfl
  | cons a s ih =>
      cases t with
      | nil => cases a <;> rfl
      | cons b t => cases a <;> cases b <;> simp [conflict, ih, Bool.beq_comm]

/-! ### Many routes -/

variable {α : Type}

theorem Router.insert_eq_ok_iff {router built : Router α} {text : String} {target : α} :
    router.insert text target = .ok built ↔ ∃ tokens, readRoute text = .ok tokens ∧
      (∀ b ∈ router.branches, conflict b.1 tokens = false) ∧
      built = ⟨router.branches ++ [(tokens, target)]⟩ := by
  unfold Router.insert
  constructor
  · intro h
    split at h
    · cases h
    · rename_i tokens hread
      split at h
      · cases h
      · rename_i hfree
        cases h
        exact ⟨tokens, hread, by simpa using hfree, rfl⟩
  · intro hgiven
    rcases hgiven with ⟨tokens, hread, hfree, rfl⟩
    simp only [hread]
    rw [if_neg (by simpa using hfree)]

/-- Routes can be added to a router if each can be read and none conflicts with another or with one
that is there. -/
theorem Router.foldlM_insert_eq_ok_iff {routes : List (String × α)} {start router : Router α}
    (hstart : start.branches.Pairwise fun a b => conflict a.1 b.1 = false) :
    routes.foldlM (fun router route => router.insert route.1 route.2) start = .ok router ↔
      ∃ added, router.branches = start.branches ++ added ∧
        routes.map (fun r => (readRoute r.1, r.2)) = added.map (fun b => (.ok b.1, b.2)) ∧
        router.branches.Pairwise fun a b => conflict a.1 b.1 = false := by
  induction routes generalizing start with
  | nil =>
      constructor
      · intro h
        cases h
        exact ⟨[], by simp, rfl, hstart⟩
      · intro hgiven
        rcases hgiven with ⟨added, hbranches, hread, _⟩
        rw [List.map_eq_nil_iff.1 hread.symm, List.append_nil] at hbranches
        cases router
        cases start
        cases hbranches
        rfl
  | cons route routes ih =>
      rw [List.foldlM_cons]
      constructor
      · intro h
        cases hinsert : start.insert route.1 route.2 with
        | error fault => rw [hinsert] at h; cases h
        | ok middle =>
            rw [hinsert] at h
            obtain ⟨tokens, hread, hfree, rfl⟩ := Router.insert_eq_ok_iff.1 hinsert
            have hmiddle : (start.branches ++ [(tokens, route.2)]).Pairwise
                fun a b => conflict a.1 b.1 = false := by
              rw [List.pairwise_append]
              exact ⟨hstart, List.pairwise_singleton _ _, by simpa using hfree⟩
            obtain ⟨added, hbranches, hreads, hpairwise⟩ := (ih hmiddle).1 h
            refine ⟨(tokens, route.2) :: added, by simpa using hbranches, ?_, hpairwise⟩
            rw [List.map_cons, List.map_cons, hreads, hread]
      · intro hgiven
        rcases hgiven with ⟨added, hbranches, hreads, hpairwise⟩
        cases added with
        | nil => cases hreads
        | cons first added =>
            rw [List.map_cons, List.map_cons, List.cons.injEq, Prod.mk.injEq] at hreads
            obtain ⟨⟨hread, htarget⟩, hreads⟩ := hreads
            have hsplit : router.branches = (start.branches ++ [first]) ++ added := by
              rw [hbranches, List.append_assoc, List.singleton_append]
            have hmiddle : (start.branches ++ [first]).Pairwise
                fun a b => conflict a.1 b.1 = false :=
              (List.pairwise_append.1 (hsplit ▸ hpairwise)).1
            have hfree : ∀ b ∈ start.branches, conflict b.1 first.1 = false := fun b hb =>
              (List.pairwise_append.1 hmiddle).2.2 b hb first List.mem_cons_self
            have hinsert : start.insert route.1 route.2 = .ok ⟨start.branches ++ [first]⟩ :=
              Router.insert_eq_ok_iff.2 ⟨first.1, hread, hfree, by rw [htarget]⟩
            rw [hinsert]
            exact (ih hmiddle).2 ⟨added, hsplit, hreads, hpairwise⟩

/-- Routes stand together if each can be read and no two of them conflict. -/
theorem Router.ofList_eq_ok_iff {routes : List (String × α)} {router : Router α} :
    Router.ofList routes = .ok router ↔
      routes.map (fun r => (readRoute r.1, r.2)) = router.branches.map (fun b => (.ok b.1, b.2)) ∧
      router.branches.Pairwise fun a b => conflict a.1 b.1 = false := by
  have hfold := @Router.foldlM_insert_eq_ok_iff α routes .empty router .nil
  rw [Router.ofList, hfold]
  constructor
  · intro hgiven
    rcases hgiven with ⟨added, hbranches, hreads, hpairwise⟩
    rw [Router.empty, List.nil_append] at hbranches
    rw [hbranches] at hpairwise ⊢
    exact ⟨hreads, hpairwise⟩
  · intro hgiven
    rcases hgiven with ⟨hreads, hpairwise⟩
    exact ⟨router.branches, rfl, hreads, hpairwise⟩

theorem Router.exists_ofList_iff {routes : List (String × α)} :
    (∃ router, Router.ofList routes = .ok router) ↔
      (∀ r ∈ routes, ∃ tokens, readRoute r.1 = .ok tokens) ∧
      routes.Pairwise fun a b => ∀ s t, readRoute a.1 = .ok s → readRoute b.1 = .ok t →
        conflict s t = false := by
  constructor
  · intro hgiven
    rcases hgiven with ⟨router, h⟩
    obtain ⟨hreads, hpairwise⟩ := Router.ofList_eq_ok_iff.1 h
    constructor
    · intro r hr
      have hmem : (readRoute r.1, r.2) ∈ router.branches.map fun b => (.ok b.1, b.2) :=
        hreads ▸ List.mem_map_of_mem hr
      obtain ⟨b, _, hb⟩ := List.mem_map.1 hmem
      exact ⟨b.1, (Prod.mk.inj hb).1.symm⟩
    · have hmapped : (router.branches.map fun b => ((.ok b.1 : Except RouteFault _), b.2)).Pairwise
          fun a b => ∀ s t, a.1 = .ok s → b.1 = .ok t → conflict s t = false := by
        rw [List.pairwise_map]
        refine hpairwise.imp ?_
        rintro a b hfree _ _ ⟨⟩ ⟨⟩
        exact hfree
      rw [← hreads, List.pairwise_map] at hmapped
      exact hmapped
  · intro hgiven
    rcases hgiven with ⟨hread, hpairwise⟩
    have hok : ∀ r ∈ routes, readRoute r.1 = .ok ((readRoute r.1).toOption.getD []) := by
      intro r hr
      obtain ⟨tokens, htokens⟩ := hread r hr
      rw [htokens]
      rfl
    refine ⟨⟨routes.map fun r => ((readRoute r.1).toOption.getD [], r.2)⟩,
      Router.ofList_eq_ok_iff.2 ⟨?_, ?_⟩⟩
    · rw [List.map_map]
      apply List.map_congr_left
      intro r hr
      rw [Function.comp_apply, ← hok r hr]
    · rw [List.pairwise_map]
      apply hpairwise.imp_of_mem
      intro a b ha hb hfree
      exact hfree _ _ (hok a ha) (hok b hb)

/-- In what order routes are added does not matter for whether they stand together. -/
theorem Router.exists_ofList_of_perm {routes others : List (String × α)} (h : routes.Perm others)
    (hgiven : ∃ router, Router.ofList routes = .ok router) :
    ∃ router, Router.ofList others = .ok router := by
  rw [Router.exists_ofList_iff] at hgiven ⊢
  obtain ⟨hread, hfree⟩ := hgiven
  refine ⟨fun r hr => hread r (h.mem_iff.2 hr), (h.pairwise_iff ?_).1 hfree⟩
  intro a b hab s t hs ht
  rw [conflict_comm]
  exact hab t s ht hs

end Gateway.Route
