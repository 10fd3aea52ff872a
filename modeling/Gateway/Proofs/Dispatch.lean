/-
Module: Gateway.Proofs.Dispatch
Layer: Proofs
Purpose: Which handler a request gets.  It is the one of the endpoint whose pattern is the most
  specific of those that reach the request's path (`find?_of_chosen`), in whatever order the
  endpoints are listed (`exists_build_of_perm`); a request that no pattern reaches is answered
  without any handler.
Main exports: Config.Endpoint.Reaches, Server.Chosen, Server.find?_spec, Server.chosen_unique,
  Server.exists_build_of_perm, Server.requests_go_to_most_specific
-/
import Mathlib.Data.List.Nodup
import Gateway.Proofs.Building
import Gateway.Proofs.Following
import Gateway.Proofs.Independence
import Gateway.Proofs.Responses

namespace Gateway

open Route (Shape IsShape pathSegments? tokensOf)
open Endpoint (Handler)

/-! ### Endpoints and paths -/

/-- The pattern of an endpoint reaches a path. -/
def Config.Endpoint.Reaches (e : Config.Endpoint) (path : String) : Prop :=
  ∃ shapes segments, e.shape? = some shapes ∧ pathSegments? path = some segments ∧
    Route.Reaches shapes segments

/-- The pattern of an endpoint matches a path in the strict reading, in which a capture takes no
empty segment. -/
def Config.Endpoint.Matches (e : Config.Endpoint) (path : String) : Prop :=
  ∃ shapes segments, e.shape? = some shapes ∧ pathSegments? path = some segments ∧
    Route.Matches shapes segments

/-- The pattern of an endpoint goes before that of another. -/
def Config.Endpoint.MoreSpecific (e d : Config.Endpoint) : Prop :=
  ∃ s t, e.shape? = some s ∧ d.shape? = some t ∧ Route.MoreSpecific s t

namespace Server

variable {config : Config} {pipelineOf : Config.Endpoint → Pipeline} {server : Server}
  {path : String} {d e : Config.Endpoint}

/-- Of the endpoints that reach a path this one is the most specific. -/
structure Chosen (config : Config) (path : String) (e : Config.Endpoint) : Prop where
  mem : e ∈ config.endpoints
  reaches : e.Reaches path
  best : ∀ d ∈ config.endpoints, d.Reaches path → d = e ∨ e.MoreSpecific d

/-- There is at most one. -/
theorem chosen_unique (hd : Chosen config path d) (he : Chosen config path e) : d = e := by
  rcases he.best d hd.mem hd.reaches with heq | ⟨s, t, hs, ht, hfirst⟩
  · exact heq
  · rcases hd.best e he.mem he.reaches with heq | ⟨t', s', ht', hs', hsecond⟩
    · exact heq.symm
    · rw [hs] at hs'
      rw [ht] at ht'
      cases hs'
      cases ht'
      exact absurd hsecond hfirst.asymm

/-- The handler of an endpoint. -/
def handlerOf (config : Config) (pipelineOf : Config.Endpoint → Pipeline) (e : Config.Endpoint) :
    Handler :=
  ⟨e, config.security.maxBodySize, pipelineOf e⟩

/-! ### Where the router leads -/

/-- The routes of an endpoint's handler are those of its pattern. -/
structure Routed (config : Config) (e : Config.Endpoint) (shapes : List Shape) : Prop where
  mem : e ∈ config.endpoints
  shape_eq : e.shape? = some shapes
  isShape : IsShape shapes
  ne_nil : shapes ≠ []

theorem valid_of_build (hbuild : build config pipelineOf = .ok server) :
    config.validate = .ok () ∧
      Route.Router.ofList (handlers config pipelineOf) = .ok server.router := by
  unfold build at hbuild
  split at hbuild
  · cases hbuild
  · rename_i hvalid
    split at hbuild
    · cases hbuild
    · rename_i hrouter
      cases hbuild
      exact ⟨hvalid, hrouter⟩

theorem exists_routed (hvalid : config.validate = .ok ()) (he : e ∈ config.endpoints) :
    ∃ shapes, Routed config e shapes ∧ (Route.readRoute e.endpoint =
      if Route.mostParams < shapes.count .capture then .error .tooManyParams
      else .ok (tokensOf shapes)) := by
  obtain ⟨pattern, hwell, htext⟩ := (Config.shapes_of_valid hvalid).1 e he
  refine ⟨pattern.shape, ⟨he, Config.shape?_of_text hwell htext, hwell.isShape, ?_⟩, ?_⟩
  · exact fun hnil => hwell.1 (List.map_eq_nil_iff.1 hnil)
  · rw [htext]
    exact Route.readRoute_text hwell

/-- The branches of a server's router are the tokens of its endpoints' patterns, each with its
handler. -/
theorem mem_branches_iff (hbuild : build config pipelineOf = .ok server)
    {tokens : List Route.Token} {handler : Handler} :
    (tokens, handler) ∈ server.router.branches ↔ ∃ e shapes, Routed config e shapes ∧
      tokens = tokensOf shapes ∧ handler = handlerOf config pipelineOf e := by
  obtain ⟨hvalid, hrouter⟩ := valid_of_build hbuild
  obtain ⟨hreads, _⟩ := Route.Router.ofList_eq_ok_iff.1 hrouter
  have hmem : (tokens, handler) ∈ server.router.branches ↔ ∃ e ∈ config.endpoints,
      Route.readRoute e.endpoint = .ok tokens ∧ handler = handlerOf config pipelineOf e := by
    have hpair : ((.ok tokens : Except Route.RouteFault _), handler) ∈
        server.router.branches.map (fun b => (.ok b.1, b.2)) ↔
          (tokens, handler) ∈ server.router.branches := by
      simp only [List.mem_map, Prod.mk.injEq, Except.ok.injEq]
      constructor
      · rintro ⟨b, hb, rfl, rfl⟩
        exact hb
      · intro hb
        exact ⟨_, hb, rfl, rfl⟩
    rw [← hpair, ← hreads, handlers, List.map_map, List.mem_map]
    simp only [Function.comp_apply, Prod.mk.injEq, handlerOf, eq_comm]
  rw [hmem]
  constructor
  · rintro ⟨e, he, hread, rfl⟩
    obtain ⟨shapes, hrouted, hread'⟩ := exists_routed hvalid he
    refine ⟨e, shapes, hrouted, ?_, rfl⟩
    rw [hread] at hread'
    split at hread'
    · cases hread'
    · cases hread'
      rfl
  · rintro ⟨e, shapes, hrouted, rfl, rfl⟩
    obtain ⟨shapes', hrouted', hread⟩ := exists_routed hvalid hrouted.mem
    have heq := hrouted.shape_eq.symm.trans hrouted'.shape_eq
    cases heq
    have hfew := (shapes_of_build hvalid ⟨server, hbuild⟩).1 e hrouted.mem shapes hrouted.shape_eq
    rw [if_neg (Nat.not_lt.2 hfew)] at hread
    exact ⟨e, hrouted.mem, hread, rfl⟩

theorem Routed.accepts_iff {shapes : List Shape} (h : Routed config e shapes) :
    Route.Accepts (tokensOf shapes) path.toList ↔ e.Reaches path := by
  rw [Route.accepts_path_iff h.isShape h.ne_nil, Config.Endpoint.Reaches, h.shape_eq]
  simp

/-- No two endpoints of a valid configuration have one shape. -/
theorem eq_of_shape_eq (hvalid : config.validate = .ok ()) (hd : d ∈ config.endpoints)
    (he : e ∈ config.endpoints) (heq : d.shape? = e.shape?) : d = e := by
  have hnodup : (config.endpoints.map Config.Endpoint.shape?).Nodup :=
    List.pairwise_map.2 (Config.shapes_of_valid hvalid).2
  exact List.inj_on_of_nodup_map hnodup hd he heq

/-- Where the router of a server leads a path: to the handler of the most specific endpoint that
reaches it, and nowhere only if none does. -/
theorem find?_spec (hbuild : build config pipelineOf = .ok server) (path : String) :
    (∃ e, Chosen config path e ∧
      server.router.find? path = some (handlerOf config pipelineOf e)) ∨
    ((∀ e ∈ config.endpoints, ¬ e.Reaches path) ∧ server.router.find? path = none) := by
  have hleads := Route.leads_follow server.router.branches path.toList
  obtain ⟨hvalid, _⟩ := valid_of_build hbuild
  change Route.Leads server.router.branches path.toList (server.router.find? path) at hleads
  cases hfind : server.router.find? path with
  | none =>
      rw [hfind] at hleads
      refine Or.inr ⟨?_, rfl⟩
      intro e he hreaches
      obtain ⟨shapes, hrouted, _⟩ := exists_routed hvalid he
      have hmem := (mem_branches_iff hbuild).2 ⟨e, shapes, hrouted, rfl, rfl⟩
      exact hleads _ _ hmem (hrouted.accepts_iff.2 hreaches)
  | some handler =>
      rw [hfind] at hleads
      obtain ⟨tokens, hmem, haccepts, hbest⟩ := hleads
      obtain ⟨e, s, hrouted, rfl, rfl⟩ := (mem_branches_iff hbuild).1 hmem
      have hreaches := hrouted.accepts_iff.1 haccepts
      refine Or.inl ⟨e, ⟨hrouted.mem, hreaches, ?_⟩, rfl⟩
      intro d hd hreaches'
      obtain ⟨t, hrouted', _⟩ := exists_routed hvalid hd
      have hmem' := (mem_branches_iff hbuild).2 ⟨d, t, hrouted', rfl, rfl⟩
      rcases hbest _ _ hmem' (hrouted'.accepts_iff.2 hreaches') with heq | hprefers
      · -- Routes of the same tokens have one shape, so they are one endpoint's.
        obtain rfl := Route.tokensOf_injective hrouted'.isShape hrouted.isShape heq
        exact Or.inl (eq_of_shape_eq hvalid hd hrouted.mem
          (hrouted'.shape_eq.trans hrouted.shape_eq.symm))
      · obtain ⟨s', segments, hs, hsegments, hreach⟩ := hreaches
        obtain ⟨t', segments', ht, hsegments', hreach'⟩ := hreaches'
        rw [hsegments] at hsegments'
        rw [hrouted.shape_eq] at hs
        rw [hrouted'.shape_eq] at ht
        cases hsegments'
        cases hs
        cases ht
        exact Or.inr ⟨_, _, hrouted.shape_eq, hrouted'.shape_eq,
          Route.moreSpecific_of_prefers hrouted.isShape hrouted'.isShape hreach hreach' hprefers⟩

theorem find?_of_chosen (hbuild : build config pipelineOf = .ok server)
    (h : Chosen config path e) :
    server.router.find? path = some (handlerOf config pipelineOf e) := by
  rcases find?_spec hbuild path with ⟨d, hd, hfind⟩ | ⟨hnone, _⟩
  · rw [hfind, chosen_unique hd h]
  · exact absurd h.reaches (hnone e h.mem)

theorem find?_of_none (hbuild : build config pipelineOf = .ok server)
    (h : ∀ e ∈ config.endpoints, ¬ e.Reaches path) : server.router.find? path = none := by
  rcases find?_spec hbuild path with ⟨d, hd, _⟩ | ⟨_, hfind⟩
  · exact absurd hd.reaches (h d hd.mem)
  · exact hfind

/-! ### The order of the endpoints -/

/-- Whether a server can be built does not depend on the order of the endpoints. -/
theorem exists_build_of_perm {endpoints : List Config.Endpoint}
    (h : endpoints.Perm config.endpoints) (hbuild : build config pipelineOf = .ok server) :
    ∃ server', build { config with endpoints } pipelineOf = .ok server' := by
  obtain ⟨hvalid, hrouter⟩ := valid_of_build hbuild
  rw [exists_build_iff_router pipelineOf (Config.validate_of_perm h hvalid)]
  exact Route.Router.exists_ofList_of_perm (h.symm.map _) ⟨_, hrouter⟩

theorem chosen_of_perm {endpoints : List Config.Endpoint} (h : endpoints.Perm config.endpoints)
    (hchosen : Chosen { config with endpoints } path e) : Chosen config path e where
  mem := h.mem_iff.1 hchosen.mem
  reaches := hchosen.reaches
  best d hd := hchosen.best d (h.mem_iff.2 hd)

/-- Nor does it matter for where a path leads. -/
theorem find?_of_perm {endpoints : List Config.Endpoint} {server' : Server}
    (h : endpoints.Perm config.endpoints) (hbuild : build config pipelineOf = .ok server)
    (hbuild' : build { config with endpoints } pipelineOf = .ok server') (path : String) :
    server'.router.find? path = server.router.find? path := by
  rcases find?_spec hbuild' path with ⟨e, he, hfind⟩ | ⟨hnone, hfind⟩
  · rw [hfind, find?_of_chosen hbuild (chosen_of_perm h he)]
    rfl
  · rw [hfind, find?_of_none hbuild fun e he => hnone e (h.mem_iff.2 he)]

/-! ### Visits -/

/-- What becomes of a visit at a handler. -/
def served (handler : Handler) (start : Instant) (visit : Visit) : Endpoint.Handling :=
  let handling := handler.handle start (visit.patience.map (start + ·)) visit.identified
  { handling with reply := deliver visit handling.reply }

theorem handle_of_find? {handler : Handler} {visit : Visit} (start : Instant)
    (h : server.router.find? visit.request.uri.path = some handler) :
    server.handle start visit = served handler start visit := by
  rw [handle, h]
  rfl

/-- A handler's own refusal of a method: it carries the banner, and no pipeline takes part. -/
structure Refused (visit : Visit) (start : Instant) (handling : Endpoint.Handling) : Prop where
  reply : ∃ response, handling.reply = .answered start response ∧ response.status = 405 ∧
    Endpoint.Shows response Endpoint.bannerName ["Version 0.1.0"] ∧
    response.body = if visit.request.method = .head then [] else Utf8.encode "\n"
  notes : Journal.notes (handling.journal.map (·.entry)) = []

theorem method_identified (visit : Visit) : visit.identified.method = visit.request.method := by
  unfold Visit.identified
  split <;> rfl

theorem status_deliver (visit : Visit) (response : Http.Response) :
    (withId visit.id (response.framed visit.request.method)).status = response.status := by
  unfold withId Http.Response.framed
  split <;> rfl

/-- What leaves for the client of a response that is no success. -/
theorem deliver_of_failure {visit : Visit} {start : Instant} {response : Http.Response}
    (hstatus : Http.isSuccess response.status = false) :
    ∃ sent, deliver visit (.answered start response) = .answered start sent ∧
      sent.status = response.status ∧
      (∀ name texts, name ≠ requestId → name ≠ Http.contentLength →
        Endpoint.Shows response name texts → Endpoint.Shows sent name texts) ∧
      sent.body = if visit.request.method = .head then [] else response.body := by
  have hframed : ¬ (visit.request.method = .connect ∧ Http.isSuccess response.status = true) := by
    rw [hstatus]
    simp
  refine ⟨_, rfl, status_deliver visit response, ?_, ?_⟩
  · intro name texts hid hlength hshows
    rw [Endpoint.Shows, withId, Http.Headers.values_set_of_ne hid, Http.Response.framed,
      if_neg hframed, Http.Headers.values_append]
    have hnone : ∀ value : Option Http.HeaderValue,
        Http.Headers.values (value.map ((Http.contentLength, ·))).toList name = [] := by
      intro value
      cases value <;> simp [Http.Headers.values, Ne.symm hlength]
    rw [hnone, List.append_nil]
    exact hshows
  · rw [withId, Http.Response.framed, if_neg hframed]

theorem refused_of_wrongMethod {handler : Handler} {visit : Visit} (start : Instant)
    (hmethod : visit.request.method.text ≠ handler.endpoint.method) :
    Refused visit start (served handler start visit) := by
  have hother : visit.identified.method.text ≠ handler.endpoint.method := by
    rwa [method_identified]
  have hanswers := Endpoint.answers_render handler.endpoint.cacheTtlSecs .wrongMethod
  have hsent := @deliver_of_failure visit start _ (by rw [hanswers.status_eq]; rfl)
  obtain ⟨sent, hdeliver, hstatus, hshows, hbody⟩ := hsent
  constructor
  · refine ⟨sent, ?_, by rw [hstatus, hanswers.status_eq]; rfl, ?_, ?_⟩
    · rw [← hdeliver, served]
      exact congrArg (deliver visit) (Handler.reply_of_fated (.wrongMethod hother))
    · exact hshows _ _ (by decide) (by decide) hanswers.banner
    · rw [hbody, hanswers.body_eq]
      rfl
  · exact (Handler.handle_of_rejected (Handler.receive_of_wrongMethod hother) handler.pipeline).2

theorem reach_of_wrongMethod {handler : Handler} {visit : Visit}
    (h : server.router.find? visit.request.uri.path = some handler)
    (hmethod : visit.request.method.text ≠ handler.endpoint.method) :
    server.reach visit = none := by
  have hother : visit.identified.method.text ≠ handler.endpoint.method := by
    rwa [method_identified]
  rw [reach, h]
  simp only [Handler.receive_of_wrongMethod hother]

/-- Every request goes to the handler of the one most specific endpoint that reaches its path, and a
method that is wrong there is refused by that handler.  A path that no endpoint reaches is answered
with an empty 404, and nothing else happens.  In what order the endpoints are listed matters for
none of this, nor for whether the server can be built. -/
theorem requests_go_to_most_specific (config : Config) (pipelineOf : Config.Endpoint → Pipeline)
    (server : Server) (hbuild : build config pipelineOf = .ok server) :
    (∀ path, (∃ e ∈ config.endpoints, e.Reaches path) →
      ∃ e, Chosen config path e ∧ ∀ d, Chosen config path d → d = e) ∧
    (∀ start visit e, Chosen config visit.request.uri.path e →
      server.handle start visit = served (handlerOf config pipelineOf e) start visit ∧
      (visit.request.method.text ≠ e.method →
        Refused visit start (server.handle start visit) ∧ server.reach visit = none)) ∧
    (∀ start visit, (∀ e ∈ config.endpoints, ¬ e.Reaches visit.request.uri.path) →
      server.handle start visit = ⟨.answered start ⟨404, [(requestId, visit.id)], []⟩, []⟩ ∧
      server.reach visit = none) ∧
    (∀ endpoints : List Config.Endpoint, endpoints.Perm config.endpoints →
      ∃ server', build { config with endpoints } pipelineOf = .ok server' ∧
        ∀ start visit, server'.handle start visit = server.handle start visit) := by
  refine ⟨?_, ?_, ?_, ?_⟩
  · rintro path ⟨e, he, hreaches⟩
    rcases find?_spec hbuild path with ⟨chosen, hchosen, _⟩ | ⟨hnone, _⟩
    · exact ⟨chosen, hchosen, fun d hd => chosen_unique hd hchosen⟩
    · exact absurd hreaches (hnone e he)
  · intro start visit e hchosen
    have hfind := find?_of_chosen hbuild hchosen
    have hserved := handle_of_find? start hfind
    refine ⟨hserved, fun hmethod => ⟨?_, reach_of_wrongMethod hfind hmethod⟩⟩
    rw [hserved]
    exact refused_of_wrongMethod start hmethod
  · intro start visit hnone
    have hfind := find?_of_none hbuild hnone
    constructor
    · rw [handle, hfind]
      rfl
    · rw [reach, hfind]
  · intro endpoints hperm
    obtain ⟨server', hbuild'⟩ := exists_build_of_perm hperm hbuild
    refine ⟨server', hbuild', ?_⟩
    intro start visit
    rw [handle, find?_of_perm hperm hbuild hbuild', handle]

/-- Two patterns that both reach `/y/x`. -/
def crossingConfig : Config where
  endpoints := [{ endpoint := "/\x7ba\x7d/x" }, { endpoint := "/y/\x7bb\x7d" }]

theorem exists_build_crossingConfig (pipelineOf : Config.Endpoint → Pipeline) :
    ∃ server, build crossingConfig pipelineOf = .ok server := by
  have hvalid : crossingConfig.validate = .ok () := by rfl
  apply exists_build_of_shapes pipelineOf hvalid
  · intro e he s hs
    simp only [crossingConfig, List.mem_cons, List.not_mem_nil, or_false] at he
    rcases he with rfl | rfl
    · cases hs; decide
    · cases hs; decide
  · apply List.pairwise_pair.2
    intro s t hs ht hclash
    cases hs
    cases ht
    cases hclash

/-- The literal goes before the capture at the first segment, whatever follows. -/
theorem crossingConfig_literal_first :
    ∃ server, build crossingConfig (fun _ => Pipeline.idle) = .ok server ∧
      server.handle 0 (visitTo "/y/x") = served
        (handlerOf crossingConfig (fun _ => Pipeline.idle) { endpoint := "/y/\x7bb\x7d" }) 0
        (visitTo "/y/x") := by
  obtain ⟨server, hbuild⟩ := exists_build_crossingConfig fun _ => Pipeline.idle
  have hchosen : Chosen crossingConfig "/y/x" { endpoint := "/y/\x7bb\x7d" } := by
    refine ⟨by simp [crossingConfig], ⟨_, _, rfl, rfl, ?_⟩, ?_⟩
    · exact .literal (.capture (Or.inl (List.cons_ne_nil _ _)) .nil)
    · intro d hd _
      simp only [crossingConfig, List.mem_cons, List.not_mem_nil, or_false] at hd
      rcases hd with rfl | rfl
      · exact Or.inr ⟨_, _, rfl, rfl, .here (by decide)⟩
      · exact Or.inl rfl
  have h := requests_go_to_most_specific crossingConfig (fun _ => Pipeline.idle) server hbuild
  exact ⟨server, hbuild, (h.2.1 0 _ _ hchosen).1⟩

/-- In the strict reading no pattern matches the path `//x`, because its first segment is empty; yet
the first of these endpoints answers it. -/
theorem empty_segment_reaches_capture :
    ∃ server response, build crossingConfig (fun _ => Pipeline.idle) = .ok server ∧
      (∀ e ∈ crossingConfig.endpoints, ¬ e.Matches "//x") ∧
      (server.handle 0 (visitTo "//x")).reply = .answered 0 response ∧
      response.status = 200 := by
  obtain ⟨server, hbuild⟩ := exists_build_crossingConfig fun _ => Pipeline.idle
  have hstrict : ∀ e ∈ crossingConfig.endpoints, ¬ e.Matches "//x" := by
    rintro e he ⟨s, segments, hs, hsegments, hmatches⟩
    simp only [crossingConfig, List.mem_cons, List.not_mem_nil, or_false] at he
    cases hsegments
    rcases he with rfl | rfl
    · cases hs
      cases hmatches with
      | capture hne _ => exact hne rfl
    · cases hs
      cases hmatches
  have hchosen : Chosen crossingConfig "//x" { endpoint := "/\x7ba\x7d/x" } := by
    refine ⟨by simp [crossingConfig], ⟨_, _, rfl, rfl, ?_⟩, ?_⟩
    · exact .capture (Or.inr (List.cons_ne_nil _ _)) (.literal .nil)
    · rintro d hd ⟨s, segments, hs, hsegments, hreaches⟩
      simp only [crossingConfig, List.mem_cons, List.not_mem_nil, or_false] at hd
      cases hsegments
      rcases hd with rfl | rfl
      · exact Or.inl rfl
      · cases hs
        cases hreaches
  have hserved : server.handle 0 (visitTo "//x") = _ :=
    handle_of_find? 0 (find?_of_chosen hbuild hchosen)
  have hreply : ∃ response, (server.handle 0 (visitTo "//x")).reply = .answered 0 response ∧
      response.status = 200 := by
    rw [hserved]
    exact ⟨_, rfl, rfl⟩
  obtain ⟨response, hreply, hstatus⟩ := hreply
  exact ⟨server, response, hbuild, hstrict, hreply, hstatus⟩

end Server

end Gateway
