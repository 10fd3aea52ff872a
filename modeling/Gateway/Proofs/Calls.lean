/-
Module: Gateway.Proofs.Calls
Layer: Proofs
Purpose: Which calls requests lead to.  A call brings the forwarded query to the configured path
  exactly if the path holds no mark that ends paths, which validation does not see to
  (`Backend.query_arrives_iff_unmarked`).  All else that a call is made of has been seen to before:
  a forwarded request is no call only if its target is too long
  (`Backend.call_fails_iff_too_long`).
Main exports: Config.backend_of_valid, Config.headers_of_valid,
  Endpoint.AllowList.mem_flatten_forwardHeaders, Backend.call_eq_ok_iff, Backend.Delivers,
  Backend.query_arrives_iff_unmarked, Backend.parse_target, Backend.call_fails_iff_too_long
-/
import Gateway.Proofs.Building
import Gateway.Proofs.Headers
import Gateway.Proofs.Queries
import Gateway.Proofs.Targets

namespace Gateway

/-! ### What validation and forwarding see to -/

namespace Config

/-- What validation sees to in a backend. -/
theorem backend_of_valid {config : Config} {e : Endpoint} {backend : Backend}
    (hvalid : config.validate = .ok ()) (he : e ∈ config.endpoints)
    (hbackend : e.backend = some backend) :
    backend.address ≠ "" ∧ (∃ rest, backend.path.toList = '/' :: rest) ∧
      Http.isToken backend.method = true := by
  have hown := (validate_eq_ok_iff.1 hvalid).2.1 e he
  simp only [endpointViolations, List.append_eq_nil_iff, hbackend, Option.bind_some] at hown
  have hfault : backend.fault? = none := by simpa using hown.2
  unfold Backend.fault? at hfault
  split at hfault
  · cases hfault
  rename_i haddress
  split at hfault
  · cases hfault
  rename_i hpath
  split at hfault
  · cases hfault
  rename_i hmethod
  refine ⟨?_, ?_, by simpa [isMethod] using hmethod⟩
  · exact fun h => haddress (String.isEmpty_iff.2 h)
  · rw [Bool.not_eq_true, Bool.not_eq_false', opensWithSlash, beq_iff_eq] at hpath
    exact List.head?_eq_some_iff.1 hpath

/-- In a valid configuration every header to pass has a header name. -/
theorem headers_of_valid {config : Config} {e : Endpoint} (hvalid : config.validate = .ok ())
    (he : e ∈ config.endpoints) :
    ∀ spelling ∈ e.headersToPass, ∃ name, Http.HeaderName.ofString? spelling = some name := by
  have hown := (validate_eq_ok_iff.1 hvalid).2.1 e he
  simp only [endpointViolations, List.append_eq_nil_iff, List.map_eq_nil_iff,
    List.filter_eq_nil_iff] at hown
  intro spelling hmem
  rw [← Option.ne_none_iff_exists']
  simpa using hown.1.2 spelling hmem

end Config

namespace Endpoint.AllowList

/-- An allow-list of header names leaves none of them out. -/
theorem headers_ofNames {query headers : List String} {limit : Nat}
    (h : ∀ spelling ∈ headers, ∃ name, Http.HeaderName.ofString? spelling = some name) :
    (ofNames query headers limit).headers.map (·.text) = headers.map Http.lowered := by
  rw [ofNames]
  induction headers with
  | nil => rfl
  | cons spelling headers ih =>
      rw [List.forall_mem_cons] at h
      obtain ⟨name, hname⟩ := h.1
      rw [List.filterMap_cons_some hname, List.map_cons, List.map_cons, ih h.2,
        Http.HeaderName.ofString?_eq_some_iff.1 hname]

/-- A forwarded header is the text of a header of the request. -/
theorem mem_flatten_forwardHeaders {allowed : AllowList} {headers : Http.Headers}
    {field : String × String} (h : field ∈ Backend.flatten (allowed.forwardHeaders headers)) :
    ∃ header ∈ headers, field = (header.1.text, header.2.text) := by
  obtain ⟨name, value⟩ := field
  have hvalue : value ∈ valuesOf name (Backend.flatten (allowed.forwardHeaders headers)) := by
    simpa [valuesOf] using h
  rw [valuesOf_flatten, entry, get?_forwardHeaders] at hvalue
  split at hvalue
  · rw [Option.getD_some, textsOf, List.mem_map] at hvalue
    obtain ⟨header, hmem, rfl⟩ := hvalue
    rw [List.mem_filter, beq_iff_eq] at hmem
    exact ⟨header, hmem.1, by rw [hmem.2]⟩
  · cases hvalue

end Endpoint.AllowList

namespace Backend

open Endpoint.AllowList (entry listed_iff valuesOf valuesOf_flatten valuesOf_ne_nil_iff)
open Http.Uri (appended httpMark ofParts ReadsAs splitAuthority)

/-! ### Targets of calls -/

/-- A call is made if its method, its target and its headers can all be read. -/
theorem call_eq_ok_iff {backend : Config.Backend} {request : Pipeline.Request} {made : Call} :
    call backend request = .ok made ↔
      Http.Method.ofString? backend.method = some made.method ∧
      Http.Uri.parse (target backend request) = .ok made.uri ∧
      headersOf (flatten request.headers) = .ok made.headers ∧ made.body = request.body := by
  obtain ⟨method, uri, headers, body⟩ := made
  unfold call
  cases Http.Method.ofString? backend.method with
  | none => simp
  | some own =>
      cases Http.Uri.parse (target backend request) with
      | error fault => simp
      | ok read =>
          cases headersOf (flatten request.headers) with
          | error fault => simp
          | ok fields => simp [eq_comm]

theorem ofList_appended (query : String) :
    String.ofList (appended query) = if query.isEmpty then "" else "?" ++ query := by
  apply String.toList_injective
  rw [String.toList_ofList, appended]
  split
  · rfl
  · rw [String.toList_append]
    rfl

theorem toList_target (backend : Config.Backend) (request : Pipeline.Request) :
    (target backend request).toList = httpMark ++
      (backend.address.toList ++ backend.path.toList ++ appended (queryText request)) := by
  have hmark : "http://".toList = httpMark := rfl
  rw [target, ← ofList_appended]
  simp only [String.toList_append, String.toList_ofList, List.append_assoc, hmark]

theorem isFormChar_of_mem_queryText (request : Pipeline.Request) :
    ∀ c ∈ (queryText request).toList, Http.Form.isFormChar c = true :=
  fun _ => Http.Form.isFormChar_of_mem_print

/-- The target of a call to an address that nothing in it ends. -/
theorem uri_of_call {backend : Config.Backend} {request : Pipeline.Request} {made : Call}
    (haddress : ∀ c ∈ backend.address.toList, Http.Uri.endsAuthority c = false)
    (hpath : ∃ rest, backend.path.toList = '/' :: rest) (hmade : call backend request = .ok made) :
    ∃ path query, ReadsAs (backend.path.toList ++ appended (queryText request)) path query ∧
      made.uri = ofParts backend.address.toList path query := by
  obtain ⟨rest, hrest⟩ := hpath
  obtain ⟨_, huri, _⟩ := call_eq_ok_iff.1 hmade
  obtain ⟨_, _, _, path, query, hread, hparts⟩ :=
    (Http.Uri.parse_http_eq_ok_iff (toList_target backend request)).1 huri
  have hsplit : splitAuthority (backend.address.toList ++ backend.path.toList ++
      appended (queryText request)) =
      (backend.address.toList, backend.path.toList ++ appended (queryText request)) := by
    rw [hrest, List.append_assoc, List.cons_append]
    exact Http.Uri.splitAuthority_of_forall haddress _
  rw [hsplit] at hread hparts
  exact ⟨path, query, hread, hparts⟩

/-- A target brings what was forwarded to the configured path: the pairs that are read from its
query are the forwarded ones in order, and there is no query if nothing was forwarded. -/
structure Delivers (backend : Config.Backend) (request : Pipeline.Request) (uri : Http.Uri) :
    Prop where
  path : uri.path = backend.path
  pairs : Lists request.query (Http.Form.parseText (uri.query.getD ""))
  query : uri.query = none ↔ ∀ name, entry request.query name = []

theorem flatten_eq_nil_iff {m : SortedMap (List String)} :
    flatten m = [] ↔ ∀ name, entry m name = [] := by
  constructor
  · intro hnil name
    rw [← valuesOf_flatten, hnil]
    rfl
  · intro hentries
    rw [List.eq_nil_iff_forall_not_mem]
    rintro ⟨name, value⟩ hmem
    apply valuesOf_ne_nil_iff.2 ⟨value, hmem⟩
    rw [valuesOf_flatten, hentries]

section Target

variable {backend : Config.Backend} {request : Pipeline.Request} {path : List Char}
  {query : Option (List Char)}

/-- A path without marks is the path of the target, and the query is all that follows it. -/
theorem delivers_of_unmarked (hstart : backend.path.toList ≠ [])
    (hmark : '?' ∉ backend.path.toList) (hhash : '#' ∉ backend.path.toList)
    (hread : ReadsAs (backend.path.toList ++ appended (queryText request)) path query) :
    Delivers backend request (ofParts backend.address.toList path query) := by
  have hcut := hread.cut
  rw [Http.Uri.cutAt_hash_appended (isFormChar_of_mem_queryText request), if_neg hhash,
    Http.Uri.cutAt_mark_appended, if_neg hmark] at hcut
  cases hcut
  have hempty : (queryText request).isEmpty = true ↔ ∀ name, entry request.query name = [] :=
    (queryText_isEmpty request).trans flatten_eq_nil_iff
  have hquery : (ofParts backend.address.toList backend.path.toList
      (if (queryText request).isEmpty then none
        else some (queryText request).toList)).query.getD "" = queryText request := by
    by_cases h : (queryText request).isEmpty = true
    · rw [if_pos h, String.isEmpty_iff.1 h]
      rfl
    · rw [if_neg h]
      exact String.ofList_toList
  constructor
  · change (if backend.path.toList.isEmpty then "/" else String.ofList backend.path.toList) = _
    rw [if_neg (mt List.isEmpty_iff.1 hstart), String.ofList_toList]
  · rw [hquery, queryText_eq]
    exact lists_flatten request.query
  · rw [← hempty]
    by_cases h : (queryText request).isEmpty = true
    · rw [if_pos h]
      exact iff_of_true rfl h
    · rw [if_neg h]
      exact iff_of_false (fun hnone => by cases hnone) h

/-- The path of a target holds no mark that ends it. -/
theorem unmarked_of_readsAs {rest : List Char} (hread : ReadsAs rest path query) :
    '?' ∉ path ∧ '#' ∉ path := by
  have hpath : path = (cutAt '?' (cutAt '#' rest).1).1 := by rw [hread.cut]
  rw [hpath]
  exact ⟨not_mem_cutAt _, fun h => not_mem_cutAt rest (mem_of_mem_cutAt h)⟩

theorem unmarked_of_delivers {rest : List Char} (hread : ReadsAs rest path query)
    (h : Delivers backend request (ofParts backend.address.toList path query)) :
    '?' ∉ backend.path.toList ∧ '#' ∉ backend.path.toList := by
  rw [← h.path, ofParts]
  dsimp only
  split
  · decide
  · rw [String.toList_ofList]
    exact unmarked_of_readsAs hread

end Target

section Marked

variable {backend : Config.Backend} {request request' : Pipeline.Request} {made made' : Call}
  (haddress : ∀ c ∈ backend.address.toList, Http.Uri.endsAuthority c = false)
  (hpath : ∃ rest, backend.path.toList = '/' :: rest)

include haddress hpath

/-- Behind a `#` in the path nothing is read, so that the target is always the same. -/
theorem uri_eq_of_hash (hhash : '#' ∈ backend.path.toList) (hmade : call backend request = .ok made)
    (hmade' : call backend request' = .ok made') : made'.uri = made.uri := by
  obtain ⟨path, query, hread, huri⟩ := uri_of_call haddress hpath hmade
  obtain ⟨path', query', hread', huri'⟩ := uri_of_call haddress hpath hmade'
  have hcut := hread.cut
  have hcut' := hread'.cut
  rw [Http.Uri.cutAt_hash_appended (isFormChar_of_mem_queryText _), if_pos hhash] at hcut hcut'
  rw [hcut] at hcut'
  cases hcut'
  rw [huri, huri']

/-- A question mark in the path ends it, and the forwarded query goes on with what follows it. -/
theorem uri_of_mark (hhash : '#' ∉ backend.path.toList) (hmark : '?' ∈ backend.path.toList)
    (hmade : call backend request = .ok made) : ∃ before own,
      backend.path = before ++ "?" ++ own ∧ made.uri.path = before ∧
      made.uri.query = some (own ++
        if (queryText request).isEmpty then "" else "?" ++ queryText request) := by
  obtain ⟨path, query, hread, huri⟩ := uri_of_call haddress hpath hmade
  obtain ⟨before, own, hsplit, hown⟩ := exists_cutAt_of_mem hmark
  have hbefore : before ≠ [] := by
    rintro rfl
    obtain ⟨rest, hrest⟩ := hpath
    rw [hrest] at hsplit
    cases hsplit
  have hcut := hread.cut
  rw [Http.Uri.cutAt_hash_appended (isFormChar_of_mem_queryText _), if_neg hhash,
    Http.Uri.cutAt_mark_appended, if_pos hmark, hown] at hcut
  cases hcut
  refine ⟨String.ofList before, String.ofList own, ?_, ?_, ?_⟩
  · apply String.toList_injective
    simpa using hsplit
  · rw [huri, ofParts]
    exact if_neg (mt List.isEmpty_iff.1 hbefore)
  · rw [huri, ofParts, ← ofList_appended, ← String.ofList_append]
    rfl

end Marked

/-- A call goes to the configured address.  It brings what was forwarded to the configured path
exactly if that path holds neither a question mark nor a `#`.  Behind a `#` the forwarded query is
lost: the target is the same whatever was forwarded.  Behind a question mark it is no query of its
own: it goes on with the query that the path already has, question mark and all. -/
theorem query_arrives_iff_unmarked {config : Config} {e : Config.Endpoint}
    {backend : Config.Backend} {request : Pipeline.Request} {made : Call}
    (hvalid : config.validate = .ok ()) (he : e ∈ config.endpoints)
    (hbackend : e.backend = some backend)
    (haddress : ∀ c ∈ backend.address.toList, Http.Uri.endsAuthority c = false)
    (hmade : call backend request = .ok made) :
    made.uri.authority = some backend.address ∧
    (Delivers backend request made.uri ↔
      '?' ∉ backend.path.toList ∧ '#' ∉ backend.path.toList) ∧
    ('#' ∈ backend.path.toList → ∀ request' made', call backend request' = .ok made' →
      made'.uri = made.uri) ∧
    ('#' ∉ backend.path.toList → '?' ∈ backend.path.toList → ∃ before own,
      backend.path = before ++ "?" ++ own ∧ made.uri.path = before ∧
      made.uri.query = some (own ++
        if (queryText request).isEmpty then "" else "?" ++ queryText request)) := by
  have hpath := (Config.backend_of_valid hvalid he hbackend).2.1
  obtain ⟨path, query, hread, huri⟩ := uri_of_call haddress hpath hmade
  have hstart : backend.path.toList ≠ [] := by
    obtain ⟨rest, hrest⟩ := hpath
    rw [hrest]
    exact List.cons_ne_nil _ _
  refine ⟨?_, ⟨?_, ?_⟩, ?_, ?_⟩
  · rw [huri]
    exact congrArg some String.ofList_toList
  · intro hdelivers
    exact unmarked_of_delivers hread (huri ▸ hdelivers)
  · rintro ⟨hmark, hhash⟩
    rw [huri]
    exact delivers_of_unmarked hstart hmark hhash hread
  · exact fun hhash _ _ hmade' => uri_eq_of_hash haddress hpath hhash hmade hmade'
  · exact fun hhash hmark => uri_of_mark haddress hpath hhash hmark hmade

/-! ### Paths with and without marks -/

/-- A backend with the given path. -/
def findBackend (path : String) : Config.Backend := { address := "10.0.0.7:80", path := path }

/-- An endpoint in front of it. -/
def findEndpoint (path : String) : Config.Endpoint where
  endpoint := "/search"
  queryString := ["q", "c[]"]
  headersToPass := ["X-Trace"]
  backend := some (findBackend path)

/-- A configuration with that endpoint alone. -/
def findConfig (path : String) : Config := { endpoints := [findEndpoint path] }

/-- What is forwarded of a search. -/
def search : Pipeline.Request :=
  { (default : Pipeline.Request) with
    query := SortedMap.ofList [("q", ["ab"]), ("c[]", ["x", "y z"])] }

/-- The target of a search, with a path and a query. -/
def found (path : String) (query : Option String) : Http.Uri :=
  ⟨some "http", some "10.0.0.7:80", path, query⟩

theorem call_findBackend (path : String) {uri : Http.Uri}
    (h : Http.Uri.parse (target (findBackend path) search) = .ok uri) :
    call (findBackend path) search = .ok ⟨.get, uri, [], []⟩ := by
  have hmethod : Http.Method.ofString? Config.defaultMethod = some .get := by decide +kernel
  exact call_eq_ok_iff.2 ⟨hmethod, h, rfl, rfl⟩

/-- A path without marks: the search arrives as it was forwarded. -/
theorem unmarked_path_delivers_search :
    (findConfig "/find").validate = .ok () ∧
    ∃ made, call (findBackend "/find") search = .ok made ∧
      made.uri = found "/find" (some "c%5B%5D=x&c%5B%5D=y+z&q=ab") ∧
      Delivers (findBackend "/find") search made.uri := by
  have hvalid : (findConfig "/find").validate = .ok () := by decide +kernel
  have hparse : Http.Uri.parse (target (findBackend "/find") search) =
      .ok (found "/find" (some "c%5B%5D=x&c%5B%5D=y+z&q=ab")) := by decide +kernel
  have hcall := call_findBackend "/find" hparse
  have hall : (findBackend "/find").address.toList.all (!Http.Uri.endsAuthority ·) = true := by
    decide +kernel
  have haddress : ∀ c ∈ (findBackend "/find").address.toList, Http.Uri.endsAuthority c = false :=
    fun c hc => Bool.not_eq_true' _ ▸ List.all_eq_true.1 hall c hc
  obtain ⟨_, hdelivers, _⟩ :=
    query_arrives_iff_unmarked hvalid (List.mem_singleton_self _) rfl haddress hcall
  exact ⟨hvalid, _, hcall, rfl, hdelivers.2 (by decide +kernel)⟩

/-- Paths with marks that validation lets pass: behind a `#` the search is lost, and behind a
question mark its first pair is taken for a part of another parameter. -/
theorem marked_paths_spoil_search :
    ((findConfig "/find#top").validate = .ok () ∧
      ∃ made, call (findBackend "/find#top") search = .ok made ∧
        made.uri = found "/find" none ∧
        ¬ Lists search.query (Http.Form.parseText (made.uri.query.getD ""))) ∧
    (findConfig "/find?x=1").validate = .ok () ∧
      ∃ made, call (findBackend "/find?x=1") search = .ok made ∧
        Http.Form.parseText (made.uri.query.getD "") =
          [("x", "1?c[]=x"), ("c[]", "y z"), ("q", "ab")] ∧
        ¬ Lists search.query (Http.Form.parseText (made.uri.query.getD "")) := by
  have hhash : Http.Uri.parse (target (findBackend "/find#top") search) =
      .ok (found "/find" none) := by decide +kernel
  have hmark : Http.Uri.parse (target (findBackend "/find?x=1") search) =
      .ok (found "/find" (some "x=1?c%5B%5D=x&c%5B%5D=y+z&q=ab")) := by decide +kernel
  refine ⟨⟨by decide +kernel, _, call_findBackend _ hhash, rfl, ?_⟩,
    by decide +kernel, _, call_findBackend _ hmark, by decide +kernel, ?_⟩
  · intro h
    exact absurd (listed_iff.1 (h.values "c[]")) (by decide +kernel)
  · intro h
    exact absurd (listed_iff.1 (h.values "c[]")) (by decide +kernel)

/-! ### Calls that cannot be made -/

theorem exists_headerOf (header : Http.HeaderName × Http.HeaderValue) :
    ∃ made, headerOf (header.1.text, header.2.text) = .ok made := by
  have hname := Http.HeaderName.ofString?_eq_some_iff.2 header.1.lowered_text
  obtain ⟨value, hvalue, _⟩ :=
    Http.HeaderValue.exists_ofString? (Http.HeaderValue.isValueText_text header.2)
  refine ⟨(header.1, value), ?_⟩
  unfold headerOf
  dsimp only
  rw [hname]
  dsimp only
  rw [hvalue]

theorem exists_headersOf {fields : List (String × String)}
    (h : ∀ field ∈ fields, ∃ header, headerOf field = .ok header) :
    ∃ headers, headersOf fields = .ok headers := by
  induction fields with
  | nil => exact ⟨[], rfl⟩
  | cons field rest ih =>
      rw [List.forall_mem_cons] at h
      obtain ⟨header, hheader⟩ := h.1
      obtain ⟨headers, hheaders⟩ := ih h.2
      refine ⟨header :: headers, ?_⟩
      unfold headersOf
      rw [hheader]
      dsimp only
      rw [hheaders]
      rfl

/-- The headers of a request make headers of a call, even those that are no text. -/
theorem exists_headersOf_forwarded (allowed : Endpoint.AllowList) (headers : Http.Headers) :
    ∃ made, headersOf (flatten (allowed.forwardHeaders headers)) = .ok made := by
  apply exists_headersOf
  intro field hfield
  obtain ⟨header, _, rfl⟩ := Endpoint.AllowList.mem_flatten_forwardHeaders hfield
  exact exists_headerOf header

/-- If the target of a call without a query can be read, so can the target of a call with one,
unless it is too long. -/
theorem parse_target {backend : Config.Backend} {base : Http.Uri}
    (hpath : ∃ rest, backend.path.toList = '/' :: rest)
    (hbase : Http.Uri.parse ("http://" ++ backend.address ++ backend.path) = .ok base)
    (request : Pipeline.Request) :
    if Http.Uri.longest < (target backend request).utf8ByteSize then
      Http.Uri.parse (target backend request) = .error .tooLong
    else ∃ uri, Http.Uri.parse (target backend request) = .ok uri := by
  have hmark : "http://".toList = httpMark := rfl
  have hlist : ("http://" ++ backend.address ++ backend.path).toList =
      httpMark ++ (backend.address.toList ++ backend.path.toList) := by
    simp only [String.toList_append, List.append_assoc, hmark]
  have hends : ∃ c ∈ backend.address.toList ++ backend.path.toList,
      Http.Uri.endsAuthority c = true := by
    obtain ⟨rest, hrest⟩ := hpath
    refine ⟨'/', List.mem_append_right _ ?_, rfl⟩
    rw [hrest]
    exact List.mem_cons_self
  split
  · rename_i hlong
    rw [Http.Uri.parse]
    exact if_pos hlong
  · rename_i hfits
    exact Http.Uri.exists_parse_append hlist hends (isFormChar_of_mem_queryText request) hbase
      (toList_target backend request) (Nat.not_lt.1 hfits)

/-- With a method that is one and headers that can be read, all that can be wrong with a call is
that its target is too long. -/
theorem call_of_headers {backend : Config.Backend} {base : Http.Uri} {request : Pipeline.Request}
    {headers : Http.Headers} (hmethod : Http.isToken backend.method = true)
    (hpath : ∃ rest, backend.path.toList = '/' :: rest)
    (hbase : Http.Uri.parse ("http://" ++ backend.address ++ backend.path) = .ok base)
    (hheaders : headersOf (flatten request.headers) = .ok headers) :
    if Http.Uri.longest < (target backend request).utf8ByteSize then
      call backend request = .error (.uri .tooLong)
    else ∃ made, call backend request = .ok made := by
  have hown : Http.Method.ofString? backend.method = some ⟨backend.method, hmethod⟩ :=
    dif_pos hmethod
  have hread := parse_target hpath hbase request
  split
  · rename_i hlong
    rw [if_pos hlong] at hread
    simp only [call, hown, hread]
  · rename_i hfits
    rw [if_neg hfits] at hread
    obtain ⟨uri, huri⟩ := hread
    exact ⟨⟨_, uri, headers, request.body⟩, call_eq_ok_iff.2 ⟨hown, huri, hheaders, rfl⟩⟩

/-- A pipeline fails for the request itself exactly if no call can be made of it. -/
theorem pipeline_eq_invalidRequest_iff {network : Network} {backend : Config.Backend}
    {request : Pipeline.Request} {fault : Pipeline.RequestFault} :
    pipeline network backend request = failed (.invalidRequest fault) ↔
      call backend request = .error fault := by
  unfold pipeline
  cases call backend request with
  | error own => simp [failed]
  | ok made =>
      apply iff_of_false
      · dsimp only
        cases network made <;> intro h <;> cases h
      · intro h
        cases h

/-- No header to pass is left out, and of a request that is forwarded a call can be made unless its
target is longer than targets may be, which is the one fault that is ever reported: neither the
method, nor the address and the path, nor a header can be at fault, whatever bytes the client's
headers hold. -/
theorem call_fails_iff_too_long {config : Config} {e : Config.Endpoint} {backend : Config.Backend}
    {limit : Nat} {request : Http.Request} {forwarded : Pipeline.Request} {base : Http.Uri}
    (network : Network) (hvalid : config.validate = .ok ()) (he : e ∈ config.endpoints)
    (hbackend : e.backend = some backend)
    (hbase : Http.Uri.parse ("http://" ++ backend.address ++ backend.path) = .ok base)
    (hforward : (Endpoint.AllowList.ofNames e.queryString e.headersToPass limit).forward request =
      .ok forwarded) :
    (Endpoint.AllowList.ofNames e.queryString e.headersToPass limit).headers.map (·.text) =
      e.headersToPass.map Http.lowered ∧
    ((target backend forwarded).utf8ByteSize ≤ Http.Uri.longest →
      ∃ made, call backend forwarded = .ok made) ∧
    ∀ fault, (pipeline network backend forwarded = failed (.invalidRequest fault) ↔
        call backend forwarded = .error fault) ∧
      (call backend forwarded = .error fault ↔
        fault = .uri .tooLong ∧
          Http.Uri.longest < (target backend forwarded).utf8ByteSize) := by
  obtain ⟨_, hpath, hmethod⟩ := Config.backend_of_valid hvalid he hbackend
  obtain ⟨headers, hheaders⟩ : ∃ headers, headersOf (flatten forwarded.headers) = .ok headers := by
    rw [(Endpoint.AllowList.forward_eq_ok_iff.1 hforward).2.2.2.2]
    exact exists_headersOf_forwarded _ request.headers
  have hcall := call_of_headers hmethod hpath hbase hheaders
  refine ⟨Endpoint.AllowList.headers_ofNames (Config.headers_of_valid hvalid he), ?_, ?_⟩
  · intro hfits
    rwa [if_neg (Nat.not_lt.2 hfits)] at hcall
  · intro fault
    refine ⟨pipeline_eq_invalidRequest_iff, ?_⟩
    split at hcall
    · rename_i hlong
      rw [hcall]
      simp [hlong, eq_comm]
    · rename_i hfits
      obtain ⟨made, hmade⟩ := hcall
      rw [hmade]
      simp [hfits]

/-! ### A header that is no text, and a search that is too long -/

/-- A search for a run of letters, with a header whose bytes are no text. -/
def runSearch (count : Nat) : Http.Request where
  method := .get
  uri :=
    { (default : Http.Uri) with
      path := "/search"
      query := some (Http.Form.print [("q", String.ofList (List.replicate count 'a'))]) }
  headers := [(Endpoint.Handler.traceName, ⟨[0x61, 0xFF], by decide⟩)]
  body := []

/-- What the endpoint forwards. -/
def findAllowed : Endpoint.AllowList :=
  .ofNames (findEndpoint "/find").queryString (findEndpoint "/find").headersToPass 16

/-- What is forwarded of such a search. -/
def runForwarded (count : Nat) : Pipeline.Request where
  method := "GET"
  path := "/search"
  query := findAllowed.forwardQuery (runSearch count).uri.query
  headers := findAllowed.forwardHeaders (runSearch count).headers
  body := []

theorem forward_runSearch (count : Nat) :
    findAllowed.forward (runSearch count) = .ok (runForwarded count) := by
  rw [Endpoint.AllowList.forward_eq_ok_iff, runForwarded]
  dsimp only
  exact ⟨rfl, rfl, rfl, rfl, rfl⟩

theorem flatten_runForwarded (count : Nat) : flatten (runForwarded count).query =
    [("q", String.ofList (List.replicate count 'a'))] := by
  have hquery : (runSearch count).uri.query =
      some (Http.Form.print [("q", String.ofList (List.replicate count 'a'))]) := rfl
  rw [runForwarded]
  dsimp only
  rw [hquery, Endpoint.AllowList.forwardQuery, Option.getD_some, Http.Form.parse_print]
  rfl

theorem toList_queryText_runForwarded (count : Nat) :
    (queryText (runForwarded count)).toList = 'q' :: '=' :: List.replicate count 'a' := by
  have hrun : Http.Form.encode (String.ofList (List.replicate count 'a')) =
      List.replicate count 'a' := by
    have hascii : ∀ c ∈ List.replicate count 'a', c.toNat < 0x80 := by
      intro c hc
      rw [List.eq_of_mem_replicate hc]
      decide
    have hbyte : Http.Form.encodeByte (UInt8.ofNat 'a'.toNat) = ['a'] := by decide
    rw [Http.Form.encode, Utf8.encode_ofList_ascii hascii, Utf8.single, List.map_replicate,
      List.flatMap_replicate, hbyte]
    simp
  rw [queryText, flatten_runForwarded, Http.Form.print, String.toList_ofList]
  change Http.Form.encode "q" ++ '=' :: Http.Form.encode _ = _
  rw [hrun]
  rfl

theorem length_target_runForwarded (count : Nat) :
    26 + count ≤ (target (findBackend "/find") (runForwarded count)).utf8ByteSize := by
  have hlist : (target (findBackend "/find") (runForwarded count)).toList =
      "http://10.0.0.7:80/find?q=".toList ++ List.replicate count 'a' := by
    have hsome : (queryText (runForwarded count)).isEmpty = false := by
      rw [Bool.eq_false_iff, Ne, String.isEmpty_iff, ← String.toList_eq_nil_iff,
        toList_queryText_runForwarded]
      exact List.cons_ne_nil _ _
    rw [toList_target, appended, hsome, toList_queryText_runForwarded]
    rfl
  have hlength :=
    Utf8.length_le_utf8ByteSize (target (findBackend "/find") (runForwarded count)).toList
  rw [String.ofList_toList, hlist, List.length_append, List.length_replicate] at hlength
  exact hlength

/-- The header never stands in the way of a call, but a search that is too long does. -/
theorem long_search_is_no_call :
    (∃ made, call (findBackend "/find") (runForwarded 2) = .ok made) ∧
    call (findBackend "/find") (runForwarded 65520) = .error (.uri .tooLong) := by
  have hvalid : (findConfig "/find").validate = .ok () := by decide +kernel
  obtain ⟨base, hbase⟩ : ∃ base, Http.Uri.parse
      ("http://" ++ (findBackend "/find").address ++ (findBackend "/find").path) = .ok base :=
    ⟨found "/find" none, by decide +kernel⟩
  constructor
  · apply (call_fails_iff_too_long .empty hvalid (List.mem_singleton_self _) rfl hbase
      (forward_runSearch 2)).2.1
    decide +kernel
  · apply ((call_fails_iff_too_long .empty hvalid (List.mem_singleton_self _) rfl hbase
      (forward_runSearch 65520)).2.2 _).2.2
    exact ⟨rfl, Nat.lt_of_lt_of_le (by decide) (length_target_runForwarded 65520)⟩

end Backend

end Gateway
