/-
Module: Gateway.Proofs.HeaderForwarding
Layer: Proofs
Purpose: What becomes of the headers of a request.  A name that is allowed, in whatever case, and
  that occurs has one entry, which holds every value of the name in its place and reads it as text.
  So the forwarded headers depend on the set of allowed names and on the values of each name, and on
  nothing else in how either is written.
Main exports: AllowList.textPairs, AllowList.mem_entries_forwardHeaders_iff,
  AllowList.forwarded_headers_keep_values
-/
import Gateway.Proofs.Queries
import Gateway.Proofs.Replacement

namespace Gateway

theorem SortedMap.nodup_keys {β : Type} (m : SortedMap β) : (m.entries.map (·.1)).Nodup := by
  rw [List.Nodup, List.pairwise_map]
  apply List.Pairwise.imp _ m.ascending
  rintro a b hlt heq
  exact String.lt_irrefl _ (heq ▸ hlt)

namespace Endpoint.AllowList

/-- The fields of a message as pairs of texts. -/
def textPairs (headers : Http.Headers) : List (String × String) :=
  headers.map fun field => (field.1.text, field.2.text)

theorem textsOf_eq_valuesOf (headers : Http.Headers) (name : String) :
    textsOf headers name = valuesOf name (textPairs headers) := by
  simp [textsOf, valuesOf, textPairs, List.filter_map, Function.comp_def]

/-- A name has an entry exactly if it is allowed and occurs, and the entry holds all its values. -/
theorem mem_entries_forwardHeaders_iff {allowed : AllowList} {headers : Http.Headers} {key : String}
    {values : List String} : (key, values) ∈ (allowed.forwardHeaders headers).entries ↔
      key ∈ allowed.headers.map (·.text) ∧ values ≠ [] ∧ Listed key (textPairs headers) values := by
  rw [← (allowed.forwardHeaders headers).ascending.lookup_eq_some_iff]
  change (allowed.forwardHeaders headers).get? key = some values ↔ _
  rw [get?_forwardHeaders, listed_iff, ← textsOf_eq_valuesOf, Option.ite_none_right_eq_some,
    Option.some_inj, and_assoc]
  constructor
  · rintro ⟨hkey, hvalues, rfl⟩
    exact ⟨hkey, hvalues, rfl⟩
  · rintro ⟨hkey, hvalues, rfl⟩
    exact ⟨hkey, hvalues, rfl⟩

/-- The texts of a name's values follow the values. -/
theorem textsOf_congr {headers headers' : Http.Headers} {key : String}
    (h : ∀ name : Http.HeaderName, headers.values name = headers'.values name)
    (hkey : Http.isHeaderName key = true) : textsOf headers key = textsOf headers' key := by
  have htexts := fun headers => textsOf_text headers ⟨key, hkey⟩
  rw [htexts, htexts, h]

/-- A header is forwarded exactly if some configured spelling names it, whatever the case, and it
occurs.  It has one entry, under its name in lower case, with every value in its place; bytes that
are no text are read with replacement characters, and text is kept.  Neither how often, in which
order and in which case the names are configured makes a difference, nor how the fields of different
names are interleaved. -/
theorem forwarded_headers_keep_values (query names : List String) (limit : Nat)
    (headers : Http.Headers) :
    let forwarded := (ofNames query names limit).forwardHeaders headers
    (forwarded.entries.map (·.1)).Nodup ∧
    (∀ key values, (key, values) ∈ forwarded.entries ↔
      (Http.isHeaderName key = true ∧ ∃ spelling ∈ names, Http.lowered spelling = key) ∧
        values ≠ [] ∧ Listed key (textPairs headers) values) ∧
    (∀ (value : Http.HeaderValue) (text : String),
      (value.text = text ↔ Utf8.Says value.bytes text.toList) ∧
        (value.bytes = Utf8.encode text → value.text = text)) ∧
    (∀ query' names' limit',
      (∀ key, Http.isHeaderName key = true →
        (key ∈ names'.map Http.lowered ↔ key ∈ names.map Http.lowered)) →
      (ofNames query' names' limit').forwardHeaders headers = forwarded) ∧
    ∀ headers' : Http.Headers, (∀ name, headers'.values name = headers.values name) →
      (ofNames query names limit).forwardHeaders headers' = forwarded := by
  refine ⟨SortedMap.nodup_keys _, ?_, ?_, ?_, ?_⟩
  · intro key values
    rw [mem_entries_forwardHeaders_iff, mem_headers_ofNames, List.mem_map]
  · intro value text
    refine ⟨Utf8.says_iff.symm, fun hbytes => ?_⟩
    rw [Http.HeaderValue.text, hbytes, Utf8.decodeLossy_encode]
  · intro query' names' limit' hsame
    apply forwardHeaders_eq_of_values
    · intro key
      rw [mem_headers_ofNames, mem_headers_ofNames]
      exact and_congr_right (hsame key)
    · intro key _
      rfl
  · intro headers' hvalues
    apply forwardHeaders_eq_of_values
    · intro key
      rfl
    · intro key hkey
      exact textsOf_congr hvalues (mem_headers_ofNames.1 hkey).1

/-- A header that is not configured. -/
def cookieHeader : Http.HeaderName := ⟨"cookie", by decide +kernel⟩

/-- The values of the one header, with a field of the other between them.  The last value is no
text. -/
def tracedFields : Http.Headers :=
  [(Handler.traceName, ⟨[0xC3, 0xA9], by decide +kernel⟩),
    (cookieHeader, ⟨[0x73], by decide +kernel⟩),
    (Handler.traceName, ⟨[0x62, 0xFF, 0x61], by decide +kernel⟩)]

/-- Of the configured names, one is no header name and one does not occur; the third has the only
entry, and has it too if it is spelled otherwise and the fields come name by name. -/
theorem tracedFields_forwarded :
    let forwarded :=
      (ofNames [] ["X-Trace", "a b", "host", "x-trace"] 16).forwardHeaders tracedFields
    ("x-trace", ["\u00e9", "b\ufffda"]) ∈ forwarded.entries ∧
    (∀ values, ("cookie", values) ∉ forwarded.entries) ∧
    (∀ values, ("host", values) ∉ forwarded.entries) ∧
    (ofNames [] ["host", "X-TRACE"] 16).forwardHeaders tracedFields = forwarded ∧
    (ofNames [] ["X-Trace", "a b", "host", "x-trace"] 16).forwardHeaders
      (tracedFields.filter (·.1 = cookieHeader) ++ tracedFields.filter (·.1 ≠ cookieHeader)) =
        forwarded := by
  obtain ⟨_, hentries, _, hnames, hfields⟩ := forwarded_headers_keep_values []
    ["X-Trace", "a b", "host", "x-trace"] 16 tracedFields
  have hconfigured : ["X-Trace", "a b", "host", "x-trace"].map Http.lowered =
      ["x-trace", "a b", "host", "x-trace"] := by decide +kernel
  refine ⟨?_, fun values hmem => ?_, fun values hmem => ?_, ?_, ?_⟩
  · exact (hentries _ _).2 ⟨⟨by decide +kernel, "x-trace", by simp, by decide +kernel⟩, by simp,
      listed_iff.2 (by decide +kernel)⟩
  · obtain ⟨⟨_, spelling, hspelling, hcookie⟩, _⟩ := (hentries _ _).1 hmem
    have hconfigured' := List.mem_map_of_mem hspelling (f := Http.lowered)
    rw [hconfigured, hcookie] at hconfigured'
    simp at hconfigured'
  · obtain ⟨_, hvalues, hlisted⟩ := (hentries _ _).1 hmem
    have hnone : valuesOf "host" (textPairs tracedFields) = [] := by decide +kernel
    exact hvalues ((listed_iff.1 hlisted).trans hnone)
  · apply hnames
    intro key hkey
    have hspelled : ["host", "X-TRACE"].map Http.lowered = ["host", "x-trace"] := by
      decide +kernel
    have hkey' : key ≠ "a b" := by
      rintro rfl
      revert hkey
      decide +kernel
    rw [hconfigured, hspelled]
    simp only [List.mem_cons, List.not_mem_nil, or_false]
    tauto
  · apply hfields
    intro name
    by_cases htrace : name = Handler.traceName
    · subst htrace
      decide +kernel
    by_cases hcookie : name = cookieHeader
    · subst hcookie
      decide +kernel
    · have hdistinct : Handler.traceName ≠ cookieHeader := by decide +kernel
      simp [Http.Headers.values, tracedFields, hdistinct, Ne.symm htrace, Ne.symm hcookie]

end Endpoint.AllowList

end Gateway
