/-
Module: Gateway.Proofs.Addresses
Layer: Proofs
Purpose: Which endpoints can be reached at all.  A pattern has an address for every segment that no
  pattern of the configuration spells out: put in for the captures, it leads past every endpoint
  that is more specific (`eq_or_moreSpecific_of_reaches`).  The address is a target if the literals
  of the pattern hold nothing but characters of paths and are not too long; else no target leads to
  the endpoint.
Main exports: Http.Uri.parse_path, Http.Uri.path_of_parse, Route.Pattern.address,
  Route.eq_or_moreSpecific_of_reaches, Server.Fresh, Server.exists_fresh, Server.CanReach,
  Server.Dead, Server.spellable_endpoints_can_be_reached
-/
import Mathlib.Algebra.Order.BigOperators.Group.List
import Mathlib.Data.List.Pairwise
import Mathlib.Data.String.Basic
import Gateway.Proofs.Dispatch
import Gateway.Proofs.Targets

namespace Gateway

/-! ### The paths of targets -/

theorem cutAt_isPrefix {α : Type} [BEq α] (separator : α) (s : List α) :
    (cutAt separator s).1 <+: s := by
  induction s with
  | nil => exact List.prefix_rfl
  | cons a s ih =>
      rw [cutAt]
      split
      · exact List.nil_prefix
      · exact List.cons_prefix_cons.2 ⟨rfl, ih⟩

namespace Http.Uri

theorem ReadsAs.isPrefix {rest path : List Char} {query : Option (List Char)}
    (h : ReadsAs rest path query) : path <+: rest := by
  have hpath : path = (cutAt '?' (cutAt '#' rest).1).1 := by rw [h.cut]
  rw [hpath]
  exact (cutAt_isPrefix '?' _).trans (cutAt_isPrefix '#' rest)

/-- The target that is a path and a query alone. -/
def ofPath (path : List Char) (query : Option (List Char)) : Uri where
  scheme := none
  authority := none
  path := String.ofList path
  query := query.map String.ofList

/-- A text that opens with a slash is a target if it is no longer than the longest and is read as a
path with or without a query. -/
theorem parse_slash_eq_ok_iff {text : String} {rest : List Char} {uri : Uri}
    (htext : text.toList = '/' :: rest) : parse text = .ok uri ↔
      text.utf8ByteSize ≤ longest ∧
      ∃ path query, ReadsAs text.toList path query ∧ uri = ofPath path query := by
  have hslash : parse text = if longest < text.utf8ByteSize then .error .tooLong
      else (fun read => ofPath read.1 read.2) <$> readPathAndQuery text.toList := by
    rw [parse, htext]
    cases readPathAndQuery ('/' :: rest) <;> rfl
  rw [hslash]
  constructor
  · intro h
    split at h
    · cases h
    rename_i hlong
    cases hread : readPathAndQuery text.toList with
    | error fault => rw [hread] at h; cases h
    | ok read =>
        rw [hread] at h
        cases h
        exact ⟨Nat.not_lt.1 hlong, read.1, read.2, readPathAndQuery_eq_ok_iff.1 hread, rfl⟩
  · rintro ⟨hfits, path, query, hread, rfl⟩
    rw [if_neg (Nat.not_lt.2 hfits), readPathAndQuery_eq_ok_iff.2 hread]
    rfl

/-- A path of nothing but characters of paths is a target by itself. -/
theorem parse_path {text : String} {rest : List Char} (htext : text.toList = '/' :: rest)
    (hchars : ∀ c ∈ text.toList, isPathChar c = true) (hfits : text.utf8ByteSize ≤ longest) :
    parse text = .ok (ofPath text.toList none) := by
  have hmark : ∀ mark, isPathChar mark = false → mark ∉ text.toList := by
    intro mark hmark hmem
    rw [hchars mark hmem] at hmark
    cases hmark
  refine (parse_slash_eq_ok_iff htext).2 ⟨hfits, _, _, ⟨?_, List.all_eq_true.2 hchars, rfl⟩, rfl⟩
  rw [cutAt_of_not_mem (hmark '#' (by decide)), cutAt_of_not_mem (hmark '?' (by decide))]

/-- What a path can be: it holds nothing but characters of paths, and is not too long. -/
structure IsPath (path : String) : Prop where
  chars : ∀ c ∈ path.toList, isPathChar c = true
  fits : path.utf8ByteSize ≤ longest

/-- So does every text that a path holds in this order. -/
theorem IsPath.sublist {path part : String} (h : IsPath path)
    (hpart : part.toList.Sublist path.toList) : IsPath part where
  chars c hc := h.chars c (hpart.subset hc)
  fits := by
    have hle := String.utf8Len_le_of_sublist hpart
    rw [String.utf8Len_toList, String.utf8Len_toList] at hle
    exact hle.trans h.fits

theorem ReadsAs.isPath {text : String} {rest path : List Char} {query : Option (List Char)}
    (h : ReadsAs rest path query) (hrest : rest.Sublist text.toList)
    (hfits : text.utf8ByteSize ≤ longest) : IsPath (String.ofList path) where
  chars c hc := by
    rw [String.toList_ofList] at hc
    exact List.all_eq_true.1 h.path c hc
  fits := by
    have hle := String.utf8Len_le_of_sublist (h.isPrefix.sublist.trans hrest)
    rw [String.utf8Len_toList] at hle
    rw [String.utf8ByteSize_ofList]
    exact hle.trans hfits

theorem isPath_of_parseFull {text : String} {uri : Uri} (hfits : text.utf8ByteSize ≤ longest)
    (h : parseFull text.toList = .ok uri) : IsPath uri.path := by
  have hempty : IsPath "" := ⟨List.forall_mem_nil _, by decide⟩
  unfold parseFull at h
  simp only [bind, Except.bind, pure, Except.pure] at h
  split at h
  · rename_i n _
    -- The scheme is short enough, something follows it, and what follows opens with an authority.
    split at h
    · cases h
    split at h
    · cases h
    split at h
    · cases h
    split at h
    · cases h
    split at h
    · cases h
    · rename_i read hread
      cases h
      have hreads := readPathAndQuery_eq_ok_iff.1 hread
      have hrest : (splitAuthority (text.toList.drop (n + 3))).2.Sublist text.toList :=
        (List.dropWhile_sublist _).trans (List.drop_sublist _ _)
      dsimp only
      split
      · exact ⟨List.forall_mem_singleton.2 (by decide), by decide⟩
      · exact hreads.isPath hrest hfits
  · split at h
    · cases h
    split at h
    · cases h
    · cases h
      exact hempty

/-- The path of every target is one. -/
theorem isPath_of_parse {text : String} {uri : Uri} (h : parse text = .ok uri) :
    IsPath uri.path := by
  have hfits : text.utf8ByteSize ≤ longest := by
    apply Nat.le_of_not_lt
    intro hlong
    rw [parse, if_pos hlong] at h
    cases h
  have hparse := h
  rw [parse, if_neg (Nat.not_lt.2 hfits)] at h
  split at h
  · cases h
  · cases h
    exact ⟨List.forall_mem_singleton.2 (by decide), by decide⟩
  · rename_i rest htext
    obtain ⟨_, path, query, hreads, rfl⟩ := (parse_slash_eq_ok_iff htext).1 hparse
    exact hreads.isPath (List.Sublist.refl _) hfits
  · exact isPath_of_parseFull hfits h

end Http.Uri

/-! ### The addresses of a pattern -/

namespace Route

/-- What stands for a segment in an address: a literal for itself, the filler for a capture. -/
def Shape.fill (filler : List Char) : Shape → List Char
  | .literal text => text
  | .capture => filler
  | .catchAll => filler

/-- The address of a pattern with the same filler for all of its captures. -/
def Pattern.address (pattern : Pattern) (filler : List Char) : String :=
  String.ofList (pathOf (pattern.shape.map (Shape.fill filler)))

/-- The literals of a pattern hold nothing but characters of paths. -/
def Pattern.Spellable (pattern : Pattern) : Prop :=
  ∀ text, .literal text ∈ pattern → ∀ c ∈ text, Http.Uri.isPathChar c = true

section Fill

variable {filler : List Char} {s t : List Shape}

theorem Clash.symm (h : Clash s t) : Clash t s := by
  induction h with
  | capture => exact .catchAll
  | catchAll => exact .capture
  | there _ ih => exact .there ih

theorem not_mem_fill (hs : IsShape s) (hfiller : '/' ∉ filler) :
    ∀ segment ∈ s.map (Shape.fill filler), '/' ∉ segment := by
  intro segment hsegment
  obtain ⟨shape, hshape, rfl⟩ := List.mem_map.1 hsegment
  cases shape with
  | literal text => exact hs.not_mem_slash text hshape
  | capture | catchAll => exact hfiller

theorem reaches_fill (hs : IsShape s) (hfiller : filler ≠ []) :
    Reaches s (s.map (Shape.fill filler)) := by
  induction s with
  | nil => exact .nil
  | cons shape s ih =>
      cases shape with
      | literal text => exact .literal (ih hs.tail)
      | capture => exact .capture (Or.inl hfiller) (ih hs.tail)
      | catchAll =>
          obtain rfl := hs.eq_nil_of_catchAll
          exact .catchAll (List.cons_ne_nil _ _) (by simpa [Shape.fill] using hfiller)

/-- Of the patterns that do not spell the filler out, and do not clash with the one whose captures
it fills, only that one and less specific ones reach the address. -/
theorem eq_or_moreSpecific_of_reaches (hs : IsShape s) (ht : IsShape t)
    (hnew : .literal filler ∉ t) (hclash : ¬ Clash s t)
    (h : Reaches t (s.map (Shape.fill filler))) : s = t ∨ MoreSpecific s t := by
  induction s generalizing t with
  | nil =>
      cases h with
      | nil => exact Or.inl rfl
      | catchAll hne _ => exact absurd rfl hne
  | cons a s ih =>
      have hrest : ∀ t', t = a :: t' → Reaches t' (s.map (Shape.fill filler)) →
          a :: s = t ∨ MoreSpecific (a :: s) t := by
        rintro t' rfl hreaches
        have hnew' := List.not_mem_of_not_mem_cons hnew
        rcases ih hs.tail ht.tail hnew' (fun h => hclash (.there h)) hreaches with rfl | hbefore
        · exact Or.inl rfl
        · exact Or.inr (.there hbefore)
      rw [List.map_cons] at h
      cases a with
      | literal text =>
          cases h with
          | literal hreaches => exact hrest _ rfl hreaches
          | capture _ _ | catchAll _ _ => exact Or.inr (.here (by simp [Shape.rank]))
      | capture =>
          cases h with
          | literal _ => exact absurd List.mem_cons_self hnew
          | capture _ hreaches => exact hrest _ rfl hreaches
          | catchAll _ _ => exact Or.inr (.here (by simp [Shape.rank]))
      | catchAll =>
          cases h with
          | literal _ => exact absurd List.mem_cons_self hnew
          | capture _ _ => exact absurd .catchAll hclash
          | catchAll _ _ =>
              obtain rfl := hs.eq_nil_of_catchAll
              exact Or.inl rfl

/-- What a pattern spells out stands in every path that it reaches. -/
theorem sublist_of_reaches {segments : List (List Char)} (hs : IsShape s)
    (h : Reaches s segments) : (pathOf (s.map (Shape.fill []))).Sublist (pathOf segments) := by
  induction h with
  | nil => exact List.Sublist.refl _
  | literal _ ih => exact ((List.Sublist.refl _).append (ih hs.tail)).cons_cons '/'
  | capture _ _ ih => exact ((List.nil_sublist _).append (ih hs.tail)).cons_cons '/'
  | @catchAll path hne _ =>
      cases path with
      | nil => exact absurd rfl hne
      | cons segment path => exact (List.nil_sublist _).cons_cons '/'

end Fill

section Address

variable {pattern : Pattern} {filler : List Char}

theorem Pattern.toList_address : (pattern.address filler).toList =
    pathOf (pattern.shape.map (Shape.fill filler)) :=
  String.toList_ofList

theorem toList_address_literal (text : List Char) :
    (Pattern.address [.literal text] filler).toList = '/' :: text := by
  rw [Pattern.toList_address]
  exact congrArg ('/' :: ·) (List.append_nil text)

theorem Pattern.WellFormed.exists_toList_address (h : pattern.WellFormed) (filler : List Char) :
    ∃ rest, (pattern.address filler).toList = '/' :: rest := by
  rw [Pattern.toList_address]
  cases pattern with
  | nil => exact absurd rfl h.1
  | cons segment pattern => exact ⟨_, rfl⟩

theorem Pattern.WellFormed.pathSegments?_address (h : pattern.WellFormed) (hfiller : '/' ∉ filler) :
    pathSegments? (pattern.address filler) = some (pattern.shape.map (Shape.fill filler)) := by
  obtain ⟨rest, hrest⟩ := h.exists_toList_address filler
  have hsplit : splitOn '/' rest = pattern.shape.map (Shape.fill filler) :=
    splitOn_of_flatMap (not_mem_fill h.isShape hfiller) (Pattern.toList_address.symm.trans hrest)
  rw [pathSegments?, hrest]
  exact congrArg some hsplit

theorem toList_of_pathSegments? {path : String} {segments : List (List Char)}
    (h : pathSegments? path = some segments) : path.toList = pathOf segments := by
  unfold pathSegments? at h
  split at h
  · rename_i rest hrest
    cases h
    exact hrest.trans (flatMap_splitOn rest).symm
  · cases h

theorem Pattern.mem_shape_literal {text : List Char} :
    .literal text ∈ pattern.shape ↔ .literal text ∈ pattern := by
  rw [Pattern.shape, List.mem_map]
  constructor
  · rintro ⟨segment, hsegment, hshape⟩
    cases segment with
    | literal text' =>
        cases hshape
        exact hsegment
    | capture name | catchAll name => cases hshape
  · exact fun h => ⟨_, h, rfl⟩

/-- An address can be a path if the literals can and it is not too long. -/
theorem Pattern.isPath_address_iff (hfiller : ∀ c ∈ filler, Http.Uri.isPathChar c = true) :
    Http.Uri.IsPath (pattern.address filler) ↔
      pattern.Spellable ∧ (pattern.address filler).utf8ByteSize ≤ Http.Uri.longest := by
  have hchars : (∀ c ∈ (pattern.address filler).toList, Http.Uri.isPathChar c = true) ↔
      pattern.Spellable := by
    rw [Pattern.toList_address]
    constructor
    · intro h text htext c hc
      apply h
      have hmem := Pattern.mem_shape_literal.2 htext
      exact List.mem_flatMap.2 ⟨text, List.mem_map.2 ⟨_, hmem, rfl⟩, List.mem_cons_of_mem _ hc⟩
    · intro h c hc
      obtain ⟨segment, hsegment, hc⟩ := List.mem_flatMap.1 hc
      obtain ⟨shape, hshape, rfl⟩ := List.mem_map.1 hsegment
      rcases List.mem_cons.1 hc with rfl | hc
      · decide
      · cases shape with
        | literal text => exact h text (Pattern.mem_shape_literal.1 hshape) c hc
        | capture | catchAll => exact hfiller c hc
  rw [← hchars]
  exact ⟨fun h => ⟨h.chars, h.fits⟩, fun h => ⟨h.1, h.2⟩⟩

theorem Pattern.WellFormed.segmentsOf_text (h : pattern.WellFormed) :
    segmentsOf pattern.text = pattern.map Segment.text := by
  obtain ⟨rest, hrest, hsplit⟩ := h.exists_rest
  rw [segmentsOf_of_slash hrest, hsplit]

theorem wellFormed_literal {text : List Char} (h : PlainLiteral text) :
    Pattern.WellFormed [.literal text] :=
  ⟨List.cons_ne_nil _ _, List.forall_mem_singleton.2 h, List.forall_mem_nil _⟩

end Address

end Route

/-! ### Reaching an endpoint -/

theorem Config.isToken_of_valid {config : Config} {e : Config.Endpoint}
    (hvalid : config.validate = .ok ()) (he : e ∈ config.endpoints) :
    Http.isToken e.method = true := by
  obtain ⟨_, hown, _⟩ := Config.validate_eq_ok_iff.1 hvalid
  rw [← Bool.not_eq_false]
  intro hmethod
  have hmem := Config.mem_endpointViolations.2 (Or.inr (Or.inl ⟨rfl, hmethod⟩))
  rw [hown e he] at hmem
  cases hmem

namespace Server

open Route (Pattern Shape segmentsOf)
open Endpoint (Handler methodAllowed)

/-- A segment of a path that no endpoint of the configuration spells out. -/
structure Fresh (config : Config) (filler : List Char) : Prop where
  ne_nil : filler ≠ []
  chars : ∀ c ∈ filler, Http.Uri.isPathChar c = true ∧ c ≠ '/'
  new : ∀ d ∈ config.endpoints, filler ∉ segmentsOf d.endpoint

/-- There always is one, as there are longer ones than all that are spelled out. -/
theorem exists_fresh (config : Config) : ∃ filler, Fresh config filler := by
  let spelled := config.endpoints.flatMap fun d => segmentsOf d.endpoint
  have hlonger : List.replicate ((spelled.map List.length).sum + 1) 'x' ∉ spelled := by
    intro hmem
    have hle : _ ≤ (spelled.map List.length).sum :=
      List.le_sum_of_mem (List.mem_map.2 ⟨_, hmem, rfl⟩)
    rw [List.length_replicate] at hle
    omega
  refine ⟨List.replicate ((spelled.map List.length).sum + 1) 'x', List.cons_ne_nil _ _, ?_, ?_⟩
  · intro c hc
    rw [List.eq_of_mem_replicate hc]
    decide
  · exact fun d hd hmem => hlonger (List.mem_flatMap.2 ⟨d, hd, hmem⟩)

/-- A request with this target comes as far as the pipeline of a handler. -/
def CanReach (server : Server) (handler : Handler) (target : String) : Prop :=
  ∃ visit forwarded, Http.Uri.parse target = .ok visit.request.uri ∧
    server.reach visit = some (handler, forwarded)

variable {config : Config} {pipelineOf : Config.Endpoint → Pipeline} {server : Server}
  {e : Config.Endpoint} {pattern : Pattern} {filler : List Char} {target : String}

/-- In a server no two patterns clash, in whatever order their endpoints are listed. -/
theorem not_clash (hbuild : build config pipelineOf = .ok server) {d : Config.Endpoint}
    {s t : List Shape} (hd : d ∈ config.endpoints) (he : e ∈ config.endpoints) (hne : d ≠ e)
    (hs : d.shape? = some s) (ht : e.shape? = some t) : ¬ Route.Clash s t := by
  obtain ⟨hvalid, _⟩ := valid_of_build hbuild
  obtain ⟨_, hapart⟩ := shapes_of_build hvalid ⟨server, hbuild⟩
  have hsymm : Std.Symm fun d e : Config.Endpoint =>
      ∀ s t, d.shape? = some s → e.shape? = some t → ¬ Route.Clash s t :=
    ⟨fun d e h s t hs ht hclash => h t s ht hs hclash.symm⟩
  exact hapart.forall hd he hne s t hs ht

/-- The address of an endpoint is led to that endpoint. -/
theorem chosen_address (hbuild : build config pipelineOf = .ok server)
    (he : e ∈ config.endpoints) (hwell : pattern.WellFormed) (htext : e.endpoint = pattern.text)
    (hfresh : Fresh config filler) : Chosen config (pattern.address filler) e := by
  obtain ⟨hvalid, _⟩ := valid_of_build hbuild
  have hshape := Config.shape?_of_text hwell htext
  have hslash : '/' ∉ filler := fun hmem => (hfresh.chars _ hmem).2 rfl
  have hsegments := hwell.pathSegments?_address hslash
  refine ⟨he, ⟨_, _, hshape, hsegments, Route.reaches_fill hwell.isShape hfresh.ne_nil⟩, ?_⟩
  rintro d hd ⟨t, segments, ht, hsegments', hreaches⟩
  rw [hsegments] at hsegments'
  cases hsegments'
  obtain ⟨other, hother, hdtext⟩ := (Config.shapes_of_valid hvalid).1 d hd
  obtain rfl : other.shape = t := by
    rw [Config.shape?_of_text hother hdtext] at ht
    exact Option.some.inj ht
  have hnew : .literal filler ∉ other.shape := by
    intro hmem
    apply hfresh.new d hd
    rw [hdtext, hother.segmentsOf_text]
    exact List.mem_map.2 ⟨_, Pattern.mem_shape_literal.1 hmem, rfl⟩
  by_cases hsame : d = e
  · exact Or.inl hsame
  · have hclash := not_clash hbuild he hd (Ne.symm hsame) hshape ht
    rcases Route.eq_or_moreSpecific_of_reaches hwell.isShape hother.isShape hnew hclash hreaches
      with heq | hbefore
    · exact Or.inl (eq_of_shape_eq hvalid hd he (by rw [ht, hshape, heq]))
    · exact Or.inr ⟨_, _, hshape, ht, hbefore⟩

/-- A request for a path, with a method and nothing else. -/
def knock (method : Http.Method) (path : String) : Visit :=
  { visitTo path with request := ⟨method, Http.Uri.ofPath path.toList none, [], []⟩ }

theorem canReach_address (hbuild : build config pipelineOf = .ok server)
    (he : e ∈ config.endpoints) (hwell : pattern.WellFormed) (htext : e.endpoint = pattern.text)
    (hfresh : Fresh config filler) (hpath : Http.Uri.IsPath (pattern.address filler)) :
    CanReach server (handlerOf config pipelineOf e) (pattern.address filler) := by
  obtain ⟨hvalid, _⟩ := valid_of_build hbuild
  obtain ⟨rest, hrest⟩ := hwell.exists_toList_address filler
  let visit := knock ⟨e.method, Config.isToken_of_valid hvalid he⟩ (pattern.address filler)
  have hfind : server.router.find? visit.request.uri.path =
      some (handlerOf config pipelineOf e) := by
    have hpath : visit.request.uri.path = pattern.address filler := String.ofList_toList
    rw [hpath]
    exact find?_of_chosen hbuild (chosen_address hbuild he hwell htext hfresh)
  have hparse := Http.Uri.parse_path hrest hpath.chars hpath.fits
  exact ⟨visit, _, hparse, reach_eq_some_iff.2 ⟨hfind, Handler.receive_eq_ok rfl rfl⟩⟩

/-- Whoever comes as far as a pipeline comes to that of an endpoint. -/
theorem exists_endpoint_of_reach (hbuild : build config pipelineOf = .ok server) {visit : Visit}
    {handler : Handler} {forwarded : Pipeline.Request}
    (h : server.reach visit = some (handler, forwarded)) :
    ∃ e, Chosen config visit.request.uri.path e ∧ handler = handlerOf config pipelineOf e := by
  obtain ⟨hfind, _⟩ := reach_eq_some_iff.1 h
  rcases find?_spec hbuild visit.request.uri.path with ⟨e, hchosen, he⟩ | ⟨_, hnone⟩
  · exact ⟨e, hchosen, Option.some.inj (hfind.symm.trans he)⟩
  · rw [hfind] at hnone
    cases hnone

/-- What leads to an endpoint holds what the endpoint spells out. -/
theorem isPath_address_of_canReach (hbuild : build config pipelineOf = .ok server)
    (hwell : pattern.WellFormed) (htext : e.endpoint = pattern.text)
    (h : CanReach server (handlerOf config pipelineOf e) target) :
    Http.Uri.IsPath (pattern.address []) := by
  obtain ⟨visit, forwarded, hparse, hreach⟩ := h
  obtain ⟨d, hchosen, hhandler⟩ := exists_endpoint_of_reach hbuild hreach
  obtain rfl : e = d := congrArg Handler.endpoint hhandler
  obtain ⟨s, segments, hs, hsegments, hreaches⟩ := hchosen.reaches
  rw [Config.shape?_of_text hwell htext] at hs
  cases hs
  have hpart := Route.sublist_of_reaches hwell.isShape hreaches
  rw [← Route.toList_of_pathSegments? hsegments, ← Pattern.toList_address] at hpart
  exact (Http.Uri.isPath_of_parse hparse).sublist hpart

/-- An endpoint of a server is for the one method that it names.  If the literals of its pattern
hold nothing but characters of paths, and its address is not longer than a target may be, whatever
new segment stands for the captures, then a request with that address as its target comes as far as
the pipeline of the endpoint.  If they hold anything else, or are too long for a target by
themselves, no request does whose target can be read. -/
theorem spellable_endpoints_can_be_reached (hbuild : build config pipelineOf = .ok server)
    (he : e ∈ config.endpoints) :
    (∃ method, ∀ other, methodAllowed e.method other = true ↔ other = method) ∧
    (∃ filler, Fresh config filler) ∧
    ∃ pattern : Pattern, pattern.WellFormed ∧ e.endpoint = pattern.text ∧
      (∀ filler, Fresh config filler → pattern.Spellable →
        (pattern.address filler).utf8ByteSize ≤ Http.Uri.longest →
        CanReach server (handlerOf config pipelineOf e) (pattern.address filler)) ∧
      ∀ target, CanReach server (handlerOf config pipelineOf e) target →
        pattern.Spellable ∧ (pattern.address []).utf8ByteSize ≤ Http.Uri.longest := by
  obtain ⟨hvalid, _⟩ := valid_of_build hbuild
  obtain ⟨pattern, hwell, htext⟩ := (Config.shapes_of_valid hvalid).1 e he
  refine ⟨⟨⟨e.method, Config.isToken_of_valid hvalid he⟩, ?_⟩, exists_fresh config,
    pattern, hwell, htext, ?_, ?_⟩
  · intro other
    rw [methodAllowed, beq_iff_eq, Http.Method.mk.injEq]
  · intro filler hfresh hspellable hfits
    have hpath := (Pattern.isPath_address_iff fun c hc => (hfresh.chars c hc).1).2
      ⟨hspellable, hfits⟩
    exact canReach_address hbuild he hwell htext hfresh hpath
  · intro target hreach
    have hpath := isPath_address_of_canReach hbuild hwell htext hreach
    exact (Pattern.isPath_address_iff (List.forall_mem_nil _)).1 hpath

/-- A request for one of two crossing patterns, past the other one. -/
theorem crossingConfig_can_be_reached :
    ∃ server, build crossingConfig (fun _ => Pipeline.idle) = .ok server ∧
      CanReach server (handlerOf crossingConfig (fun _ => Pipeline.idle)
        { endpoint := "/y/\x7bb\x7d" }) "/y/z" := by
  obtain ⟨server, hbuild⟩ := exists_build_crossingConfig fun _ => Pipeline.idle
  have hfresh : Fresh crossingConfig ['z'] :=
    ⟨List.cons_ne_nil _ _, List.forall_mem_singleton.2 (by decide), by decide⟩
  have hmem : ({ endpoint := "/y/\x7bb\x7d" } : Config.Endpoint) ∈ crossingConfig.endpoints := by
    simp [crossingConfig]
  obtain ⟨_, _, pattern, hwell, htext, hreach, _⟩ :=
    spellable_endpoints_can_be_reached hbuild hmem
  have hread : Pattern.parse "/y/\x7bb\x7d" = .ok [.literal ['y'], .capture ['b']] := by rfl
  rw [Pattern.parse_eq_ok_iff.2 ⟨hwell, htext⟩] at hread
  cases hread
  refine ⟨server, hbuild, hreach ['z'] hfresh ?_ (by decide)⟩
  intro text htext
  obtain rfl : text = ['y'] := by simpa using htext
  exact List.forall_mem_singleton.2 (by decide)

/-- A configuration with one literal as its only path. -/
def lone (text : List Char) : Config where
  endpoints := [{ endpoint := Pattern.text [.literal text] }]

section Lone

variable {text : List Char}

theorem validate_lone (h : Route.PlainLiteral text) : (lone text).validate = .ok () := by
  have haddress : (SocketAddress.parse? ({} : Config.Listener).bindAddress).isSome = true := by
    decide +kernel
  refine Config.validate_eq_ok_iff.2
    ⟨haddress, List.forall_mem_singleton.2 ?_, List.pairwise_singleton _ _⟩
  have hroute : Config.IsRoute (Pattern.text [.literal text]) :=
    ⟨_, Route.wellFormed_literal h, rfl⟩
  have hmethod : Config.isMethod Config.defaultMethod = true := by decide +kernel
  simp [Config.endpointViolations, Config.pathViolations_eq_nil_iff.2 hroute, hmethod]

theorem exists_build_lone (h : Route.PlainLiteral text) :
    ∃ server, build (lone text) (fun _ => Pipeline.idle) = .ok server := by
  refine exists_build_of_shapes _ (validate_lone h) (List.forall_mem_singleton.2 ?_)
    (List.pairwise_singleton _ _)
  intro s hs
  rw [Config.shape?_of_text (Route.wellFormed_literal h) rfl] at hs
  cases hs
  exact Nat.zero_le _

/-- A configuration that passes validation, and whose server is built, though no request whose
target can be read comes as far as a pipeline. -/
def Dead (config : Config) : Prop :=
  config.validate = .ok () ∧ ∃ server, build config (fun _ => Pipeline.idle) = .ok server ∧
    ∀ handler target, ¬ CanReach server handler target

/-- Nothing comes as far as a pipeline where the only path cannot be that of a target. -/
theorem dead_lone (h : Route.PlainLiteral text)
    (hpath : ¬ Http.Uri.IsPath (Pattern.address [.literal text] [])) : Dead (lone text) := by
  obtain ⟨server, hbuild⟩ := exists_build_lone h
  refine ⟨validate_lone h, server, hbuild, ?_⟩
  rintro handler target ⟨visit, forwarded, hparse, hreach⟩
  obtain ⟨e, hchosen, rfl⟩ := exists_endpoint_of_reach hbuild hreach
  obtain rfl := List.mem_singleton.1 hchosen.mem
  exact hpath (isPath_address_of_canReach hbuild (Route.wellFormed_literal h) rfl
    ⟨visit, forwarded, hparse, hreach⟩)

end Lone

/-- A blank in a path, and a path of too many letters. -/
theorem blank_and_overlong_paths_are_never_reached :
    Dead (lone ['a', ' ', 'b']) ∧ Dead (lone (List.replicate Http.Uri.longest 'a')) := by
  constructor
  · refine dead_lone ⟨by simp, by decide, by decide⟩ fun hpath => ?_
    exact absurd (hpath.chars ' ' (by decide)) (by decide)
  · have hletter : ∀ c ∈ List.replicate Http.Uri.longest 'a', c = 'a' :=
      fun c hc => List.eq_of_mem_replicate hc
    refine dead_lone ⟨?_, ?_, ?_⟩ fun hpath => ?_
    · intro c hc
      rw [hletter c hc]
      decide
    · exact fun h => absurd (hletter _ (List.mem_of_head? h)) (by decide)
    · exact fun h => absurd (hletter _ (List.mem_of_head? h)) (by decide)
    · have hlength := Utf8.length_le_utf8ByteSize
        (Pattern.address [.literal (List.replicate Http.Uri.longest 'a')] []).toList
      rw [String.ofList_toList, Route.toList_address_literal, List.length_cons,
        List.length_replicate] at hlength
      exact absurd hpath.fits (Nat.not_le.2 hlength)

end Server

end Gateway
