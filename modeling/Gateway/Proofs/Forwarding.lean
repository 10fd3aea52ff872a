/-
Module: Gateway.Proofs.Forwarding
Layer: Proofs
Purpose: What a backend server can learn of a request.  A forwarded map is settled by the values of
  the allow-listed names (`AllowList.get?_forwardQuery`, `AllowList.get?_forwardHeaders`), because a
  sorted map is settled by its lookups (`SortedMap.eq_of_get?_eq`); and the call that is made
  depends on the forwarded maps and the body alone.  So requests that agree on these lead to the
  same call, whatever else they hold and however the allow-list is written
  (`Handler.allowed_parts_settle_call`).
Main exports: SortedMap.eq_of_get?_eq, AllowList.get?_forwardQuery, AllowList.get?_forwardHeaders,
  AllowList.forwardHeaders_eq_of_values, Backend.call_congr, Endpoint.SameNames,
  Handler.allowed_parts_settle_call
-/
import Mathlib.Data.List.Perm.Basic
import Gateway.Backend
import Gateway.Endpoint.Handler

namespace Gateway

/-! ### Sorted maps -/

theorem lookup_cons_eq {β : Type} (key k : String) (v : β) (rest : List (String × β)) :
    ((k, v) :: rest).lookup key = if key = k then some v else rest.lookup key := by
  by_cases h : key = k
  · simp [h]
  · have hne : (key == k) = false := by simpa using h
    simp [List.lookup_cons, hne, h]

theorem Ascending.lookup_eq_some_iff {β : Type} {entries : List (String × β)}
    (h : Ascending entries) {key : String} {value : β} :
    entries.lookup key = some value ↔ (key, value) ∈ entries := by
  induction entries with
  | nil => simp
  | cons head rest ih =>
      obtain ⟨k, v⟩ := head
      obtain ⟨hhead, hrest⟩ := List.pairwise_cons.1 h
      rw [lookup_cons_eq]
      by_cases hkey : key = k
      · subst hkey
        have hnot : (key, value) ∉ rest := fun hmem => String.lt_irrefl key (hhead _ hmem)
        simp [hnot, eq_comm]
      · simp [ih hrest, hkey]

namespace SortedMap

variable {β : Type}

theorem lookup_insertSorted (key other : String) (value : β) (entries : List (String × β)) :
    (insertSorted key value entries).lookup other =
      if other = key then some value else entries.lookup other := by
  induction entries with
  | nil => rw [insertSorted, lookup_cons_eq]
  | cons head rest ih =>
      obtain ⟨k, v⟩ := head
      unfold insertSorted
      split
      · rw [lookup_cons_eq]
      · rename_i hnlt
        split
        · rename_i hgt
          have hne : k ≠ key := fun heq => String.lt_irrefl key (heq ▸ hgt)
          rw [lookup_cons_eq, lookup_cons_eq, ih]
          by_cases hk : other = k
          · simp [hk, hne]
          · simp [hk]
        · rename_i hngt
          obtain rfl : key = k := String.le_antisymm hngt hnlt
          rw [lookup_cons_eq, lookup_cons_eq]
          by_cases h : other = key <;> simp [h]

@[simp] theorem get?_empty (key : String) : (({} : SortedMap β)).get? key = none := rfl

theorem get?_insert (m : SortedMap β) (key other : String) (value : β) :
    (m.insert key value).get? other = if other = key then some value else m.get? other :=
  lookup_insertSorted key other value m.entries

/-- A map is settled by its lookups: the order in which its entries were put in does not show. -/
theorem eq_of_get?_eq {m m' : SortedMap β} (h : ∀ key, m.get? key = m'.get? key) : m = m' := by
  have hmem : ∀ entry, entry ∈ m.entries ↔ entry ∈ m'.entries := by
    rintro ⟨key, value⟩
    rw [← m.ascending.lookup_eq_some_iff, ← m'.ascending.lookup_eq_some_iff]
    exact Eq.congr (h key) rfl
  have hnodup : ∀ m : SortedMap β, m.entries.Nodup := by
    intro m
    apply List.Pairwise.imp _ m.ascending
    rintro a b hlt rfl
    exact String.lt_irrefl _ hlt
  have hperm : m.entries.Perm m'.entries :=
    (List.perm_ext_iff_of_nodup (hnodup m) (hnodup m')).2 hmem
  have hentries : m.entries = m'.entries :=
    hperm.eq_of_pairwise (fun a b _ _ hab hba => absurd hab (String.lt_asymm hba))
      m.ascending m'.ascending
  cases m
  cases m'
  cases hentries
  rfl

end SortedMap

/-! ### Forwarded maps -/

namespace Endpoint.AllowList

/-- The texts of the values of the header fields with a name. -/
def textsOf (headers : Http.Headers) (name : String) : List String :=
  (headers.filter (·.1.text == name)).map (·.2.text)

theorem textsOf_text (headers : Http.Headers) (name : Http.HeaderName) :
    textsOf headers name.text = (headers.values name).map (·.text) := by
  have hsame : ∀ other : Http.HeaderName, (other.text == name.text) = (other == name) := by
    intro other
    rw [Bool.eq_iff_iff, beq_iff_eq, beq_iff_eq]
    exact ⟨fun h => by cases other; cases name; cases h; rfl, congrArg _⟩
  simp [textsOf, Http.Headers.values, hsame, Function.comp_def]

theorem get?_insertValues (m : SortedMap (List String)) (name key : String) (values : List String) :
    (insertValues m name values).get? key =
      if key = name ∧ values ≠ [] then some values else m.get? key := by
  unfold insertValues
  cases values with
  | nil => simp
  | cons first rest => simp [SortedMap.get?_insert]

/-- What is filed name by name is filed under the names that were walked, and has the values of its
name; how often a name was walked and in which order does not show. -/
theorem get?_foldl_insertValues (valuesOf : String → List String) (names : List String)
    (m : SortedMap (List String)) (key : String) :
    (names.foldl (fun m name => insertValues m name (valuesOf name)) m).get? key =
      if key ∈ names ∧ valuesOf key ≠ [] then some (valuesOf key) else m.get? key := by
  induction names generalizing m with
  | nil => simp
  | cons name rest ih =>
      rw [List.foldl_cons, ih, get?_insertValues]
      by_cases hrest : key ∈ rest ∧ valuesOf key ≠ []
      · rw [if_pos hrest, if_pos ⟨List.mem_cons_of_mem _ hrest.1, hrest.2⟩]
      · rw [if_neg hrest]
        by_cases hname : key = name
        · subst hname
          simp
        · simp only [hname, false_and, if_false, List.mem_cons, false_or, if_neg hrest]

/-- The forwarded query holds exactly the values of the named parameters. -/
theorem get?_forwardQuery (allowed : AllowList) (raw : Option String) (key : String) :
    (allowed.forwardQuery raw).get? key =
      if key ∈ allowed.query ∧ valuesOf key (Http.Form.parseText (raw.getD "")) ≠ [] then
        some (valuesOf key (Http.Form.parseText (raw.getD "")))
      else none :=
  get?_foldl_insertValues (valuesOf · (Http.Form.parseText (raw.getD ""))) allowed.query {} key

/-- The forwarded headers hold exactly the values of the named headers. -/
theorem get?_forwardHeaders (allowed : AllowList) (headers : Http.Headers) (key : String) :
    (allowed.forwardHeaders headers).get? key =
      if key ∈ allowed.headers.map (·.text) ∧ textsOf headers key ≠ [] then
        some (textsOf headers key)
      else none := by
  have hfold : allowed.forwardHeaders headers =
      (allowed.headers.map (·.text)).foldl
        (fun m name => insertValues m name (textsOf headers name)) {} := by
    rw [List.foldl_map, forwardHeaders]
    congr 1
    funext m name
    rw [textsOf_text]
  rw [hfold]
  exact get?_foldl_insertValues (textsOf headers) _ {} key

/-- What is forwarded depends on the set of allowed names and on the values of each. -/
theorem forwardHeaders_eq_of_values {allowed allowed' : AllowList} {headers headers' : Http.Headers}
    (hnames : ∀ key, key ∈ allowed.headers.map (·.text) ↔ key ∈ allowed'.headers.map (·.text))
    (hvalues : ∀ key ∈ allowed.headers.map (·.text), textsOf headers key = textsOf headers' key) :
    allowed.forwardHeaders headers = allowed'.forwardHeaders headers' := by
  apply SortedMap.eq_of_get?_eq
  intro key
  rw [get?_forwardHeaders, get?_forwardHeaders]
  by_cases hkey : key ∈ allowed.headers.map (·.text)
  · simp only [hkey, (hnames key).1 hkey, hvalues key hkey]
  · simp only [hkey, mt (hnames key).2 hkey, false_and, if_false]

/-- A request that can be forwarded is forwarded part by part. -/
theorem forward_eq_ok_iff {allowed : AllowList} {request : Http.Request}
    {forwarded : Pipeline.Request} : allowed.forward request = .ok forwarded ↔
      Http.collectBody allowed.maxBodySize request.body = .ok forwarded.body ∧
      forwarded.method = request.method.text ∧ forwarded.path = request.uri.path ∧
      forwarded.query = allowed.forwardQuery request.uri.query ∧
      forwarded.headers = allowed.forwardHeaders request.headers := by
  unfold forward
  cases hbody : Http.collectBody allowed.maxBodySize request.body with
  | error fault => simp
  | ok body =>
      obtain ⟨method, path, query, headers, bytes⟩ := forwarded
      simp only [Except.ok.injEq, Pipeline.Request.mk.injEq]
      constructor
      · rintro ⟨rfl, rfl, rfl, rfl, rfl⟩
        exact ⟨rfl, rfl, rfl, rfl, rfl⟩
      · rintro ⟨rfl, rfl, rfl, rfl, rfl⟩
        exact ⟨rfl, rfl, rfl, rfl, rfl⟩

end Endpoint.AllowList

/-! ### Names whatever their case -/

namespace Http

/-- A spelling with its upper-case letters made lower case. -/
def lowered (spelling : String) : String :=
  String.ofList (spelling.toList.map Ascii.lower)

theorem HeaderName.lowered_text (name : HeaderName) : lowered name.text = name.text := by
  have hvalid := name.valid
  simp only [isHeaderName, Bool.and_eq_true, Bool.not_eq_true', List.any_eq_false] at hvalid
  have hmap : name.text.toList.map Ascii.lower = name.text.toList := by
    have hlower : ∀ c ∈ name.text.toList, Ascii.lower c = id c :=
      fun c hc => if_neg (hvalid.2 c hc)
    rw [List.map_congr_left hlower, List.map_id]
  rw [lowered, hmap, String.ofList_toList]

theorem HeaderName.ofString?_eq_some_iff {spelling : String} {name : HeaderName} :
    ofString? spelling = some name ↔ lowered spelling = name.text := by
  have hunfold : ofString? spelling =
      if h : isHeaderName (lowered spelling) = true then some ⟨lowered spelling, h⟩ else none := rfl
  rw [hunfold]
  constructor
  · intro h
    split at h
    · cases h
      rfl
    · cases h
  · intro h
    rw [dif_pos (h ▸ name.valid)]
    cases name
    cases h
    rfl

/-- All values of the header that a spelling names, whatever the case, in their order. -/
def Headers.valuesSpelled (headers : Headers) (spelling : String) : List HeaderValue :=
  (headers.filter fun field => lowered field.1.text == lowered spelling).map (·.2)

end Http

namespace Endpoint.AllowList

theorem textsOf_lowered (headers : Http.Headers) (spelling : String) :
    textsOf headers (Http.lowered spelling) = (headers.valuesSpelled spelling).map (·.text) := by
  simp [textsOf, Http.Headers.valuesSpelled, Http.HeaderName.lowered_text, Function.comp_def]

/-- The header names of an allow-list are the configured spellings in lower case. -/
theorem mem_headers_ofNames {query headers : List String} {limit : Nat} {name : String} :
    name ∈ (ofNames query headers limit).headers.map (·.text) ↔
      Http.isHeaderName name = true ∧ name ∈ headers.map Http.lowered := by
  simp only [ofNames, List.mem_map, List.mem_filterMap, Http.HeaderName.ofString?_eq_some_iff]
  constructor
  · rintro ⟨header, ⟨spelling, hmem, hspelling⟩, rfl⟩
    exact ⟨header.valid, spelling, hmem, hspelling⟩
  · rintro ⟨hvalid, spelling, hmem, rfl⟩
    exact ⟨⟨_, hvalid⟩, ⟨spelling, hmem, rfl⟩, rfl⟩

end Endpoint.AllowList

/-! ### Bodies -/

namespace Http

/-- The bytes of a body, however they are cut into parts. -/
def bytesOf (body : List BodyPart) : List UInt8 :=
  body.flatMap fun part =>
    match part with
    | .data bytes => bytes
    | .failure _ => []

/-- A body that is read to its end is read whole. -/
theorem eq_bytesOf_of_collectBody {limit : Nat} {body : List BodyPart} {bytes : List UInt8}
    (h : collectBody limit body = .ok bytes) : bytes = bytesOf body := by
  induction body generalizing limit bytes with
  | nil => cases h; rfl
  | cons part rest ih =>
      cases part with
      | failure reason => cases h
      | data first =>
          rw [collectBody] at h
          split at h
          · cases h
          · cases hrest : collectBody (limit - first.length) rest with
            | error fault => rw [hrest] at h; cases h
            | ok more =>
                rw [hrest] at h
                cases h
                simp [bytesOf, ih hrest]

end Http

/-! ### Calls -/

/-- A call is made of the forwarded query, headers and body, and of nothing else in the request. -/
theorem Backend.call_congr (backend : Config.Backend) {request request' : Pipeline.Request}
    (hquery : request.query = request'.query) (hheaders : request.headers = request'.headers)
    (hbody : request.body = request'.body) : call backend request = call backend request' := by
  have htext : queryText request = queryText request' := by rw [queryText, queryText, hquery]
  have htarget : target backend request = target backend request' := by
    rw [target, target, htext]
  rw [call, call, htarget, hheaders, hbody]

/-- Whatever a backend does about a request, it does about the call. -/
theorem Backend.pipeline_congr (network : Network) (backend : Config.Backend)
    {request request' : Pipeline.Request} (h : call backend request = call backend request') :
    pipeline network backend request = pipeline network backend request' := by
  rw [pipeline, pipeline, h]

namespace Endpoint

/-- Two endpoints forward the same names, in whatever order, however often, and the headers in
whatever case they are listed. -/
structure SameNames (e e' : Config.Endpoint) : Prop where
  query : ∀ name, name ∈ e.queryString ↔ name ∈ e'.queryString
  headers : ∀ name, name ∈ e.headersToPass.map Http.lowered ↔
    name ∈ e'.headersToPass.map Http.lowered

/-- Two requests agree in everything that an endpoint lets through. -/
structure SameAllowedParts (e : Config.Endpoint) (request request' : Http.Request) : Prop where
  query : ∀ name ∈ e.queryString,
    AllowList.valuesOf name (Http.Form.parseText (request.uri.query.getD "")) =
      AllowList.valuesOf name (Http.Form.parseText (request'.uri.query.getD ""))
  headers : ∀ spelling ∈ e.headersToPass,
    request.headers.valuesSpelled spelling = request'.headers.valuesSpelled spelling
  body : Http.bytesOf request.body = Http.bytesOf request'.body

namespace Handler

variable {h h' : Handler} {request request' : Http.Request}
  {forwarded forwarded' : Pipeline.Request}

theorem forward_of_receive (hreceive : h.receive request = .ok forwarded) :
    h.allowed.forward request = .ok forwarded := by
  unfold receive at hreceive
  split at hreceive
  · cases hreceive
  · split at hreceive <;> cases hreceive
    assumption

theorem forwardQuery_congr (hnames : SameNames h.endpoint h'.endpoint)
    (hparts : SameAllowedParts h.endpoint request request') :
    h.allowed.forwardQuery request.uri.query = h'.allowed.forwardQuery request'.uri.query := by
  apply SortedMap.eq_of_get?_eq
  intro name
  have hquery : ∀ h : Handler, h.allowed.query = h.endpoint.queryString := fun _ => rfl
  rw [AllowList.get?_forwardQuery, AllowList.get?_forwardQuery, hquery, hquery]
  by_cases hname : name ∈ h.endpoint.queryString
  · simp only [hname, (hnames.query name).1 hname, hparts.query name hname]
  · simp only [hname, mt (hnames.query name).2 hname, false_and, if_false]

theorem forwardHeaders_congr (hnames : SameNames h.endpoint h'.endpoint)
    (hparts : SameAllowedParts h.endpoint request request') :
    h.allowed.forwardHeaders request.headers = h'.allowed.forwardHeaders request'.headers := by
  have hheaders : ∀ (h : Handler) (name : String), name ∈ h.allowed.headers.map (·.text) ↔
      Http.isHeaderName name = true ∧ name ∈ h.endpoint.headersToPass.map Http.lowered :=
    fun _ _ => AllowList.mem_headers_ofNames
  apply AllowList.forwardHeaders_eq_of_values
  · intro name
    rw [hheaders, hheaders, hnames.headers]
  · intro name hname
    obtain ⟨spelling, hmem, rfl⟩ := List.mem_map.1 ((hheaders h name).1 hname).2
    rw [AllowList.textsOf_lowered, AllowList.textsOf_lowered, hparts.headers spelling hmem]

/-- A backend server learns of a request its body and the values of the allow-listed names, and
nothing else: requests that agree on these lead to the same call, or to the same refusal to make
one, and to the same course of the pipeline in every network.  Neither the rest of the query and the
headers, nor the order of different names, nor the path, nor the way in which the allow-list is
written makes a difference. -/
theorem allowed_parts_settle_call (network : Backend.Network) (backend : Config.Backend)
    (hpipeline : h.pipeline = Backend.pipeline network backend)
    (hpipeline' : h'.pipeline = Backend.pipeline network backend)
    (hnames : SameNames h.endpoint h'.endpoint)
    (hparts : SameAllowedParts h.endpoint request request')
    (hreceive : h.receive request = .ok forwarded)
    (hreceive' : h'.receive request' = .ok forwarded') :
    Backend.call backend forwarded = Backend.call backend forwarded' ∧
    h.pipeline forwarded = h'.pipeline forwarded' := by
  obtain ⟨hbody, _, _, hquery, hheaders⟩ :=
    AllowList.forward_eq_ok_iff.1 (forward_of_receive hreceive)
  obtain ⟨hbody', _, _, hquery', hheaders'⟩ :=
    AllowList.forward_eq_ok_iff.1 (forward_of_receive hreceive')
  have hsame : Backend.call backend forwarded = Backend.call backend forwarded' := by
    apply Backend.call_congr
    · rw [hquery, hquery', forwardQuery_congr hnames hparts]
    · rw [hheaders, hheaders', forwardHeaders_congr hnames hparts]
    · rw [Http.eq_bytesOf_of_collectBody hbody, Http.eq_bytesOf_of_collectBody hbody', hparts.body]
  refine ⟨hsame, ?_⟩
  rw [hpipeline, hpipeline', Backend.pipeline_congr network backend hsame]

/-! ### Two spellings of one request -/

/-- A backend to which one parameter and one header are forwarded. -/
def searchBackend : Config.Backend := { address := "10.0.0.7:80", path := "/find" }

/-- An endpoint in front of it, its allow-list being written in the given way. -/
def searchHandler (query headers : List String) : Handler where
  endpoint :=
    { endpoint := "/search"
      queryString := query
      headersToPass := headers
      backend := some searchBackend }
  maxBodySize := 16
  pipeline := Backend.pipeline .empty searchBackend

theorem searchHandler_pipeline (query headers : List String) :
    (searchHandler query headers).pipeline = Backend.pipeline .empty searchBackend := rfl

/-- The header that is forwarded. -/
def traceName : Http.HeaderName := ⟨"x-trace", by decide +kernel⟩

/-- A request for a term, in plain letters. -/
def plainSearch : Http.Request where
  method := .get
  uri := { (default : Http.Uri) with path := "/search", query := some "q=ab&page=2" }
  headers := [(traceName, fixedValue "7")]
  body := [.data [1, 2], .data [3]]

/-- A request for the same term: percent signs, other parameters and headers, another path, and the
body cut in another way. -/
def escapedSearch : Http.Request where
  method := .get
  uri := { (default : Http.Uri) with path := "/search/", query := some "user=me&%71=a%62" }
  headers := [(contentType, fixedValue "text/plain"), (traceName, fixedValue "7")]
  body := [.data [1], .data [2, 3]]

/-- The call for the one request is the call for the other. -/
theorem escapedSearch_same_call :
    ∃ made forwarded forwarded',
      (searchHandler ["q"] ["X-Trace"]).receive plainSearch = .ok forwarded ∧
      (searchHandler ["q", "q"] ["x-trace", "X-TRACE"]).receive escapedSearch = .ok forwarded' ∧
      Backend.call searchBackend forwarded = .ok made ∧
      Backend.call searchBackend forwarded' = .ok made := by
  have hcase : Http.lowered "X-Trace" = Http.lowered "x-trace" ∧
      Http.lowered "X-TRACE" = Http.lowered "x-trace" := by decide +kernel
  have hnames : SameNames (searchHandler ["q"] ["X-Trace"]).endpoint
      (searchHandler ["q", "q"] ["x-trace", "X-TRACE"]).endpoint :=
    ⟨fun _ => by simp [searchHandler], fun _ => by simp [searchHandler, hcase]⟩
  have hparts : SameAllowedParts (searchHandler ["q"] ["X-Trace"]).endpoint plainSearch
      escapedSearch :=
    ⟨fun name hname => by obtain rfl := List.mem_singleton.1 hname; decide +kernel,
      fun spelling hmem => by obtain rfl := List.mem_singleton.1 hmem; decide +kernel, rfl⟩
  obtain ⟨forwarded, hreceive, hok⟩ : ∃ forwarded,
      (searchHandler ["q"] ["X-Trace"]).receive plainSearch = .ok forwarded ∧
      (Backend.call searchBackend forwarded).isOk = true := ⟨_, rfl, by decide +kernel⟩
  obtain ⟨made, hmade⟩ : ∃ made, Backend.call searchBackend forwarded = .ok made := by
    cases hcall : Backend.call searchBackend forwarded with
    | ok made => exact ⟨made, rfl⟩
    | error fault => rw [hcall] at hok; cases hok
  obtain ⟨forwarded', hreceive'⟩ : ∃ forwarded,
      (searchHandler ["q", "q"] ["x-trace", "X-TRACE"]).receive escapedSearch = .ok forwarded :=
    ⟨_, rfl⟩
  have hsame := allowed_parts_settle_call .empty searchBackend (searchHandler_pipeline _ _)
    (searchHandler_pipeline _ _) hnames hparts hreceive hreceive'
  exact ⟨made, forwarded, forwarded', hreceive, hreceive', hmade, hsame.1 ▸ hmade⟩

end Handler

end Endpoint

end Gateway
