/-
Module: Gateway.Proofs.Identifiers
Layer: Proofs
Purpose: The identifiers of requests.  No handler puts one on a response
  (`values_requestId_handle`), so the layers around the routes put it there, once, and a server is
  its routes with these layers (`handle_eq_layered`).  The layer that repeats an identifier and the
  handlers behind it see one and the same request, in which the identifier is the first value of its
  name; therefore the response and the pipeline get the same one.
Main exports: Server.Identifies, Server.Repeats, Server.Receives, Server.handle_eq_layered,
  Server.responses_repeat_identifiers
-/
import Gateway.Proofs.Dispatch
import Gateway.Proofs.HeaderForwarding
import Gateway.Server.Layers

namespace Gateway

open Endpoint (Handler Handling Reply)

namespace Server

/-! ### What handlers leave to the layers -/

theorem values_requestId_render (outcome : Endpoint.Outcome) (caching : Option Http.HeaderValue) :
    (Endpoint.render outcome caching).headers.values requestId = [] := by
  cases outcome with
  | success payload =>
      cases payload with
      | none => rfl
      | some payload =>
          simp only [Endpoint.render]
          cases payload.complete && payload.hasData with
          | false => rfl
          | true => cases caching <;> rfl
  | failedWithData payload error => rfl
  | failed error => rfl
  | timeout => rfl
  | methodNotAllowed => rfl

/-- No handler puts an identifier on a response. -/
theorem values_requestId_handle {handler : Handler} {start instant : Instant}
    {leaves : Option Instant} {request : Http.Request} {response : Http.Response}
    (h : (handler.handle start leaves request).reply = .answered instant response) :
    response.headers.values requestId = [] := by
  obtain ⟨fate, hfated⟩ := Handler.exists_fated h
  rw [Handler.reply_of_fated hfated] at h
  cases h
  rw [Endpoint.withBanner, Http.Headers.values_set_of_ne (by decide), values_requestId_render]

theorem values_requestId_framed (response : Http.Response) (method : Http.Method) :
    (response.framed method).headers.values requestId = response.headers.values requestId := by
  unfold Http.Response.framed
  split
  · rfl
  · rw [Http.Headers.values_append]
    cases Http.HeaderValue.ofString? (toString response.body.length) with
    | none => simp [Http.Headers.values]
    | some value =>
        have hlength : Http.Headers.values [(Http.contentLength, value)] requestId = [] := rfl
        rw [Option.map_some, Option.toList_some, hlength, List.append_nil]

theorem repeatId_eq_withId {id : Http.HeaderValue} {response : Http.Response}
    (h : response.headers.values requestId = []) :
    repeatId (some id) response = withId id response := by
  have hfirst : response.headers.first? requestId = none := by
    rw [Http.Headers.first?_eq_head?, h, List.head?_nil]
  simp only [repeatId, hfirst, withId, Http.Headers.set_of_values_eq_nil id h]

/-! ### The identifier of a visit -/

/-- A visit has the first identifier that the client sent, and the fresh one if it sent none. -/
inductive Identifies (visit : Visit) : Http.HeaderValue → Prop where
  | own {id : Http.HeaderValue} {more : List Http.HeaderValue} :
      visit.request.headers.values requestId = id :: more → Identifies visit id
  | fresh : visit.request.headers.values requestId = [] → Identifies visit visit.freshId

theorem identifies_id (visit : Visit) : Identifies visit visit.id := by
  cases hvalues : visit.request.headers.values requestId with
  | nil =>
      have hid : visit.id = visit.freshId := by
        rw [Visit.id, Http.Headers.first?_eq_head?, hvalues]
        rfl
      rw [hid]
      exact .fresh hvalues
  | cons id more =>
      have hid : visit.id = id := by
        rw [Visit.id, Http.Headers.first?_eq_head?, hvalues]
        rfl
      rw [hid]
      exact .own hvalues

/-- The identifier is the first of its name in the request that the routes see. -/
theorem exists_values_identified (visit : Visit) :
    ∃ more, visit.identified.headers.values requestId = visit.id :: more := by
  cases hvalues : visit.request.headers.values requestId with
  | nil =>
      have hfirst : visit.request.headers.first? requestId = none := by
        rw [Http.Headers.first?_eq_head?, hvalues, List.head?_nil]
      have hidentified : visit.identified.headers =
          visit.request.headers ++ [(requestId, visit.freshId)] := by
        rw [Visit.identified, hfirst]
        rfl
      refine ⟨[], ?_⟩
      rw [hidentified, Http.Headers.values_append, hvalues, Visit.id, hfirst]
      rfl
  | cons id more =>
      have hfirst : visit.request.headers.first? requestId = some id := by
        rw [Http.Headers.first?_eq_head?, hvalues, List.head?_cons]
      have hidentified : visit.identified = visit.request := by
        rw [Visit.identified, hfirst]
        rfl
      refine ⟨more, ?_⟩
      rw [hidentified, hvalues, Visit.id, hfirst]
      rfl

theorem first?_identified (visit : Visit) :
    visit.identified.headers.first? requestId = some visit.id := by
  obtain ⟨more, hvalues⟩ := exists_values_identified visit
  rw [Http.Headers.first?_eq_head?, hvalues, List.head?_cons]

/-! ### The layers -/

variable {server : Server} {start : Instant} {visit : Visit}

/-- The outermost layer hands the identified request on. -/
theorem setId_eq (inner : Service) : setId visit.freshId inner visit.request =
    inner visit.identified := by
  unfold setId Visit.identified
  cases visit.request.headers.first? requestId <;> rfl

/-- A server is its routes with the layers around them. -/
theorem handle_eq_layered (server : Server) (start : Instant) (visit : Visit) :
    server.handle start visit = server.layered start visit := by
  have hpath : visit.identified.uri.path = visit.request.uri.path := by
    unfold Visit.identified
    split <;> rfl
  rw [layered, setId_eq, propagateId, first?_identified, routes, handle, hpath]
  cases server.router.find? visit.request.uri.path with
  | none =>
      have hnone : notFound.headers.values requestId = [] := rfl
      simp only [mapResponse, repeatId_eq_withId hnone]
  | some handler =>
      simp only [method_identified]
      let leaves := visit.patience.map (start + ·)
      cases hreply : (handler.handle start leaves visit.identified).reply with
      | answered instant response =>
          have hnone := values_requestId_framed response visit.request.method
          rw [values_requestId_handle hreply] at hnone
          simp only [deliver, mapResponse, repeatId_eq_withId hnone]
      | abandoned instant => rfl
      | unending => rfl

/-! ### Responses and pipelines -/

/-- Whoever gets an answer finds the identifier in it, once. -/
def Repeats (id : Http.HeaderValue) (reply : Reply) : Prop :=
  ∀ instant response, reply = .answered instant response →
    response.headers.values requestId = [id]

/-- A pipeline of an endpoint that forwards identifiers, in whatever case it spells their name, gets
what the bytes of the identifier say as the first value of the name. -/
def Receives (id : Http.HeaderValue) (handler : Handler) (forwarded : Pipeline.Request) : Prop :=
  (∃ spelling ∈ handler.endpoint.headersToPass, Http.lowered spelling = requestId.text) →
    ∃ first more, forwarded.headers.get? requestId.text = some (first :: more) ∧
      Utf8.Says id.bytes first.toList

theorem repeats_deliver (visit : Visit) (reply : Reply) :
    Repeats visit.id (deliver visit reply) := by
  intro instant response h
  cases reply with
  | answered instant' response' =>
      cases h
      exact Http.Headers.values_set_self _ _ _
  | abandoned instant' => cases h
  | unending => cases h

theorem repeats_handle (server : Server) (start : Instant) (visit : Visit) :
    Repeats visit.id (server.handle start visit).reply := by
  unfold handle
  split
  · intro instant response h
    cases h
    exact Http.Headers.values_set_self _ _ _
  · exact repeats_deliver visit _

theorem receives_of_reach {handler : Handler} {forwarded : Pipeline.Request}
    (h : server.reach visit = some (handler, forwarded)) :
    Receives visit.id handler forwarded := by
  rintro ⟨spelling, hspelling, hname⟩
  obtain ⟨more, hvalues⟩ := exists_values_identified visit
  obtain ⟨_, hreceive⟩ := reach_eq_some_iff.1 h
  obtain ⟨_, _, _, _, hheaders⟩ :=
    Endpoint.AllowList.forward_eq_ok_iff.1 (Handler.forward_of_receive hreceive)
  have hallowed : requestId.text ∈ handler.allowed.headers.map (·.text) :=
    Endpoint.AllowList.mem_headers_ofNames.2
      ⟨requestId.valid, List.mem_map.2 ⟨spelling, hspelling, hname⟩⟩
  have htexts : Endpoint.AllowList.textsOf visit.identified.headers requestId.text =
      visit.id.text :: more.map (·.text) := by
    rw [Endpoint.AllowList.textsOf_text, hvalues, List.map_cons]
  refine ⟨visit.id.text, more.map (·.text), ?_, Utf8.says_iff.2 rfl⟩
  rw [hheaders, Endpoint.AllowList.get?_forwardHeaders, htexts, if_pos ⟨hallowed, by simp⟩]

/-- Every request has one identifier, the first that the client sent or else a fresh one, and
whatever answers it, handler or router, in whatever way, the answer carries that identifier and no
other.  A pipeline whose endpoint forwards identifiers receives the same one first.  This holds of a
request by itself, where the layers do it, and of any requests at one server at the same time. -/
theorem responses_repeat_identifiers (server : Server) (visit : Visit) :
    ∃ id, Identifies visit id ∧
      (∀ start, server.handle start visit = server.layered start visit ∧
        Repeats id (server.handle start visit).reply) ∧
      (∀ handler forwarded, server.reach visit = some (handler, forwarded) →
        Receives id handler forwarded) ∧
      ∀ start moves t, (Traffic.begin start).run server moves = some t →
        (∀ p ∈ t.inFlight, p.1.visit = visit →
          Receives id p.1.handler p.1.forwarded ∧
            ∀ reply, p.1.reply? p.2 = some reply → Repeats id reply) ∧
        ∀ d ∈ t.dismissals, d.visit = visit → Repeats id d.handling.reply := by
  refine ⟨visit.id, identifies_id visit, ?_, fun _ _ h => receives_of_reach h, ?_⟩
  · intro start
    exact ⟨handle_eq_layered server start visit, repeats_handle server start visit⟩
  · intro start moves t hrun
    have hsound := (Traffic.Sound.begin server start).run hrun
    constructor
    · rintro p hp rfl
      refine ⟨receives_of_reach (hsound.flying p hp).reached, ?_⟩
      intro reply hreply
      obtain ⟨handling, _, rfl⟩ := Option.map_eq_some_iff.1 hreply
      exact repeats_deliver _ _
    · rintro d hd rfl
      rw [(hsound.dismissed d hd).2]
      exact repeats_handle server d.start d.visit

/-- An endpoint that forwards identifiers, and spells their name in its own way. -/
def tracingHandler : Handler where
  endpoint := { endpoint := "/t", headersToPass := ["X-Request-ID"] }
  maxBodySize := 0
  pipeline := Pipeline.idle

/-- A server with this endpoint. -/
def tracingServer : Server where
  config := { endpoints := [tracingHandler.endpoint] }
  router := ⟨[([.char '/', .char 't'], tracingHandler)]⟩

/-- An identifier that is no text. -/
def brokenId : Http.HeaderValue := ⟨[0x61, 0xFF], rfl⟩

/-- A visit whose client sent two identifiers. -/
def twofoldVisit : Visit where
  request := ⟨.get, { (default : Http.Uri) with path := "/t" },
    [(requestId, brokenId), (requestId, ⟨[0x62], rfl⟩)], []⟩
  freshId := ⟨[0x63], rfl⟩

theorem reach_twofoldVisit :
    ∃ forwarded, tracingServer.reach twofoldVisit = some (tracingHandler, forwarded) := by
  refine ⟨_, reach_eq_some_iff.2 ⟨?_, rfl⟩⟩
  simp [tracingServer, twofoldVisit, Route.Router.find?, Route.Branches.follow,
    Route.Branches.after, Route.Branches.here?, Route.inSegment]

/-- Of two identifiers the first one counts, for the response and for the pipeline.  A visit that no
route leads anywhere gets the fresh one. -/
theorem tracingServer_repeats_first :
    (∃ response, (tracingServer.handle 0 twofoldVisit).reply = .answered 0 response ∧
      response.headers.values requestId = [brokenId]) ∧
    (∃ forwarded more, tracingServer.reach twofoldVisit = some (tracingHandler, forwarded) ∧
      forwarded.headers.get? requestId.text = some ("a\ufffd" :: more)) ∧
    ∃ response, (tracingServer.handle 0 (visitTo "/u")).reply = .answered 0 response ∧
      response.status = 404 ∧ response.headers.values requestId = [(visitTo "/u").freshId] := by
  obtain ⟨forwarded, hreach⟩ := reach_twofoldVisit
  obtain ⟨hfind, _⟩ := reach_eq_some_iff.1 hreach
  have hlost : tracingServer.router.find? (visitTo "/u").request.uri.path = none := by
    simp [tracingServer, visitTo, Route.Router.find?, Route.Branches.follow,
      Route.Branches.after, Route.Branches.here?, Route.inSegment]
  obtain ⟨id, hid, hrepeats, hreceives, _⟩ :=
    responses_repeat_identifiers tracingServer twofoldVisit
  obtain ⟨id', hid', hrepeats', _⟩ := responses_repeat_identifiers tracingServer (visitTo "/u")
  obtain rfl : id = brokenId := by
    cases hid with
    | own hvalues => exact (List.cons.inj hvalues).1.symm
    | fresh hvalues => cases hvalues
  obtain rfl : id' = (visitTo "/u").freshId := by
    cases hid' with
    | own hvalues => cases hvalues
    | fresh _ => rfl
  refine ⟨?_, ?_, ?_⟩
  · have hreply : ∃ response,
        (tracingServer.handle 0 twofoldVisit).reply = .answered 0 response := by
      rw [handle_of_find? 0 hfind]
      exact ⟨_, rfl⟩
    obtain ⟨response, hreply⟩ := hreply
    exact ⟨response, hreply, (hrepeats 0).2 0 response hreply⟩
  · obtain ⟨first, more, hget, hsays⟩ := hreceives tracingHandler forwarded hreach
      ⟨"X-Request-ID", List.mem_singleton_self _, by decide +kernel⟩
    have hfirst : first = "a\ufffd" := (Utf8.says_iff.1 hsays).symm.trans (by decide +kernel)
    exact ⟨forwarded, more, hreach, hfirst ▸ hget⟩
  · have hreply : (tracingServer.handle 0 (visitTo "/u")).reply =
        .answered 0 (withId (visitTo "/u").id notFound) := by
      rw [handle, hlost]
    exact ⟨_, hreply, rfl, (hrepeats' 0).2 0 _ hreply⟩

end Server

end Gateway
