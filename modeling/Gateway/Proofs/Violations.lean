/-
Module: Gateway.Proofs.Violations
Layer: Proofs
Purpose: Which of the rules that a configuration breaks are reported.  A part of an endpoint, its
  path or its backend, reports one broken rule, the first that is looked at; everything else is
  reported rule by rule (`mem_endpointViolations_iff`).  With the endpoints before it given, what an
  endpoint adds to the list is what it breaks and nothing hides (`mem_report_iff`), so the list is
  empty exactly if no rule is broken.
Main exports: Config.Backend.fault?_eq_some_iff, Config.mem_pathViolations_iff,
  Config.mem_endpointViolations_iff, Config.mem_report_iff, Config.Endpoint.exists_hiding,
  Config.broken_rules_are_reported_unless_hidden
-/
import Gateway.Proofs.Collisions

namespace Gateway.Config

open Route (PathBreaks PathBreaksFirst)

/-! ### The backend of an endpoint -/

theorem Backend.breaks_emptyAddress_iff {b : Backend} :
    b.Breaks .emptyAddress ↔ b.address.isEmpty = true := by
  rw [String.isEmpty_iff]
  constructor
  · rintro ⟨h⟩
    exact h
  · exact .emptyAddress

theorem Backend.breaks_path_iff {b : Backend} :
    b.Breaks .path ↔ (!opensWithSlash b.path) = true := by
  rw [Bool.not_eq_true', ← Bool.not_eq_true, opensWithSlash_iff]
  constructor
  · intro h
    cases h with
    | path h => exact h
  · exact .path

theorem Backend.breaks_method_iff {b : Backend} :
    b.Breaks .method ↔ (!isMethod b.method) = true := by
  rw [Bool.not_eq_true', isMethod]
  constructor
  · intro h
    cases h with
    | method h => exact h
  · exact .method

theorem BackendFault.eq_of_rank_eq {fault other : BackendFault} (h : fault.rank = other.rank) :
    fault = other := by
  revert h
  cases fault <;> cases other <;> decide

theorem Backend.BreaksFirst.unique {b : Backend} {fault other : BackendFault}
    (h : b.BreaksFirst fault) (h' : b.BreaksFirst other) : fault = other :=
  BackendFault.eq_of_rank_eq (Nat.le_antisymm (h.2 _ h'.1) (h'.2 _ h.1))

/-- The first fault of a backend is found, and none is found only where there is none. -/
theorem Backend.fault?_breaks (b : Backend) :
    (∀ fault, b.fault? = some fault → b.BreaksFirst fault) ∧
      (b.fault? = none → ∀ fault, ¬ b.Breaks fault) := by
  unfold Backend.fault?
  split
  · rename_i haddress
    refine ⟨?_, nofun⟩
    rintro fault ⟨⟩
    exact ⟨breaks_emptyAddress_iff.2 haddress, fun other _ => Nat.zero_le _⟩
  · rename_i haddress
    rw [← breaks_emptyAddress_iff] at haddress
    split
    · rename_i hpath
      refine ⟨?_, nofun⟩
      rintro fault ⟨⟩
      refine ⟨breaks_path_iff.2 hpath, fun other hother => ?_⟩
      cases other with
      | emptyAddress => exact absurd hother haddress
      | _ => decide
    · rename_i hpath
      rw [← breaks_path_iff] at hpath
      split
      · rename_i hmethod
        refine ⟨?_, nofun⟩
        rintro fault ⟨⟩
        refine ⟨breaks_method_iff.2 hmethod, fun other hother => ?_⟩
        cases other with
        | emptyAddress => exact absurd hother haddress
        | path => exact absurd hother hpath
        | method => exact le_rfl
      · rename_i hmethod
        rw [← breaks_method_iff] at hmethod
        refine ⟨nofun, fun _ fault h => ?_⟩
        cases fault with
        | emptyAddress => exact haddress h
        | path => exact hpath h
        | method => exact hmethod h

theorem Backend.fault?_eq_some_iff {b : Backend} {fault : BackendFault} :
    b.fault? = some fault ↔ b.BreaksFirst fault := by
  refine ⟨b.fault?_breaks.1 fault, fun h => ?_⟩
  cases hfound : b.fault? with
  | none => exact absurd h.1 (b.fault?_breaks.2 hfound fault)
  | some other => rw [h.unique (b.fault?_breaks.1 other hfound)]

theorem Backend.Breaks.exists_first {b : Backend} {fault : BackendFault} (h : b.Breaks fault) :
    ∃ first, b.BreaksFirst first := by
  cases hfound : b.fault? with
  | none => exact absurd h (b.fault?_breaks.2 hfound fault)
  | some first => exact ⟨first, b.fault?_breaks.1 first hfound⟩

/-! ### The path of an endpoint -/

theorem mem_pathViolations_iff {path : String} {v : Violation} :
    v ∈ pathViolations path ↔ v = .endpointPath path ∧ ¬ OpensWithSlash path ∨
      OpensWithSlash path ∧ ∃ fault, v = .routePattern path fault ∧ PathBreaksFirst path fault := by
  unfold pathViolations
  by_cases hslash : OpensWithSlash path
  · obtain ⟨rest, hrest⟩ := id hslash
    rw [if_neg (by simp [opensWithSlash_iff.2 hslash])]
    simp only [← Route.Pattern.parse_eq_error_iff hrest, hslash, not_true_eq_false, and_false,
      false_or, true_and]
    cases Route.Pattern.parse path with
    | error fault => simp
    | ok pattern => simp
  · have hnot : (!opensWithSlash path) = true := by
      rw [Bool.not_eq_true', ← Bool.not_eq_true, opensWithSlash_iff]
      exact hslash
    rw [if_pos hnot]
    simp [hslash]

/-! ### An endpoint taken alone -/

/-- An endpoint taken alone is reported with every rule that it breaks and nothing hides. -/
theorem mem_endpointViolations_iff {e : Endpoint} {v : Violation} :
    v ∈ endpointViolations e ↔ e.Breaks v ∧ ∀ w, ¬ e.Hides w v := by
  rw [mem_endpointViolations, mem_pathViolations_iff]
  simp only [Backend.fault?_eq_some_iff]
  constructor
  · rintro ((⟨rfl, hslash⟩ | ⟨hslash, fault, rfl, hfirst⟩) | ⟨rfl, hmethod⟩ | ⟨rfl, hquery⟩ |
      ⟨name, hname, hnone, rfl⟩ | ⟨b, fault, hb, hfirst, rfl⟩)
    · exact ⟨.path hslash, fun _ hhides => nomatch hhides⟩
    · refine ⟨.pattern hfirst.breaks, fun w hhides => ?_⟩
      cases hhides with
      | slash hnot => exact hnot hslash
      | pattern hother hne => exact hne (hother.unique hfirst)
    · exact ⟨.method hmethod, fun _ hhides => nomatch hhides⟩
    · exact ⟨.queryParam hquery, fun _ hhides => nomatch hhides⟩
    · exact ⟨.header hname hnone, fun _ hhides => nomatch hhides⟩
    · refine ⟨.backend hb hfirst.1, fun w hhides => ?_⟩
      cases hhides with
      | backend hb' hother hne =>
          cases hb.symm.trans hb'
          exact hne (hother.unique hfirst)
  · rintro ⟨hbreaks, hnot⟩
    cases hbreaks with
    | path hslash => exact .inl (.inl ⟨rfl, hslash⟩)
    | pattern hpattern =>
        rename_i fault
        obtain ⟨first, hfirst⟩ := hpattern.exists_first
        have hslash : OpensWithSlash e.endpoint := by
          by_contra hslash
          exact hnot _ (.slash hslash)
        have hsame : first = fault := by
          by_contra hne
          exact hnot _ (.pattern hfirst hne)
        exact .inl (.inr ⟨hslash, fault, rfl, hsame ▸ hfirst⟩)
    | method hmethod => exact .inr (.inl ⟨rfl, hmethod⟩)
    | queryParam hquery => exact .inr (.inr (.inl ⟨rfl, hquery⟩))
    | header hname hnone => exact .inr (.inr (.inr (.inl ⟨_, hname, hnone, rfl⟩)))
    | backend hb hbackend =>
        rename_i b fault
        obtain ⟨first, hfirst⟩ := hbackend.exists_first
        have hsame : first = fault := by
          by_contra hne
          exact hnot _ (.backend hb hfirst hne)
        exact .inr (.inr (.inr (.inr ⟨b, fault, hb, hsame ▸ hfirst, rfl⟩)))

/-! ### An endpoint after those before it -/

/-- What an endpoint adds to the list is every rule that it breaks and nothing hides. -/
theorem mem_report_iff {before : List Endpoint} {e : Endpoint} {v : Violation} :
    v ∈ endpointViolations e ++ collisions before e ↔
      e.BreaksAfter before v ∧ ∀ w, ¬ e.Hides w v := by
  rw [List.mem_append, mem_endpointViolations_iff, mem_collisions_iff]
  constructor
  · rintro (⟨hbreaks, hnot⟩ | ⟨first, hfirst, rfl⟩)
    · exact ⟨.alone hbreaks, hnot⟩
    · split
      · rename_i hsame
        exact ⟨.duplicate hfirst hsame, fun _ hhides => nomatch hhides⟩
      · rename_i hdiffer
        exact ⟨.conflict hfirst hdiffer, fun _ hhides => nomatch hhides⟩
  · rintro ⟨hbreaks, hnot⟩
    cases hbreaks with
    | alone hbreaks => exact .inl ⟨hbreaks, hnot⟩
    | duplicate hfirst hsame => exact .inr ⟨_, hfirst, (if_pos hsame).symm⟩
    | conflict hfirst hdiffer => exact .inr ⟨_, hfirst, (if_neg hdiffer).symm⟩

/-- Where a broken rule is hidden, one of those that hide it is reported. -/
theorem Endpoint.exists_hiding {e : Endpoint} {v : Violation} (h : ∃ w, e.Hides w v) :
    ∃ w ∈ endpointViolations e, e.Hides w v := by
  obtain ⟨w, hhides⟩ := h
  cases hhides with
  | slash hslash =>
      exact ⟨_, mem_endpointViolations_iff.2 ⟨.path hslash, fun _ hhides => nomatch hhides⟩,
        .slash hslash⟩
  | pattern hfirst hne =>
      by_cases hslash : OpensWithSlash e.endpoint
      · refine ⟨_, mem_endpointViolations_iff.2 ⟨.pattern hfirst.breaks, fun w hhides => ?_⟩,
          .pattern hfirst hne⟩
        cases hhides with
        | slash hnot => exact hnot hslash
        | pattern hother hne => exact hne (hother.unique hfirst)
      · exact ⟨_, mem_endpointViolations_iff.2 ⟨.path hslash, fun _ hhides => nomatch hhides⟩,
          .slash hslash⟩
  | backend hb hfirst hne =>
      refine ⟨_, mem_endpointViolations_iff.2 ⟨.backend hb hfirst.1, fun w hhides => ?_⟩,
        .backend hb hfirst hne⟩
      cases hhides with
      | backend hb' hother hne =>
          cases hb.symm.trans hb'
          exact hne (hother.unique hfirst)

/-! ### A configuration -/

/-- What is reported where there are no endpoints. -/
theorem reported_nil (c : Config) : ({ c with endpoints := [] } : Config).reported =
    if SocketAddress.parse? c.listener.bindAddress = none then
      [.bindAddress c.listener.bindAddress] else [] := by
  rw [reported_eq, violations]
  cases SocketAddress.parse? c.listener.bindAddress <;> rfl

/-- What is reported of an endpoint by itself is reported of the configuration. -/
theorem mem_reported_of_mem_report {c : Config} {before after : List Endpoint} {e : Endpoint}
    (h : c.endpoints = before ++ e :: after) {v : Violation}
    (hv : v ∈ endpointViolations e ++ collisions before e) : v ∈ c.reported := by
  apply (reported_concat_isPrefix h).mem
  rw [reported_concat]
  exact List.mem_append_right _ hv

/-- A broken rule is reported, or a reported one hides it. -/
theorem Breaks.mem_reported {c : Config} {v : Violation} (h : c.Breaks v) :
    v ∈ c.reported ∨ ∃ e ∈ c.endpoints, ∃ w ∈ c.reported, e.Hides w v := by
  cases h with
  | bindAddress hnone =>
      have hfront := reported_isPrefix c [] c.endpoints
      rw [reported_nil, if_pos hnone] at hfront
      exact .inl (hfront.mem (List.mem_singleton_self _))
  | endpoint hendpoints hbreaks =>
      rename_i before after e
      by_cases hhidden : ∃ w, e.Hides w v
      · obtain ⟨w, hw, hhides⟩ := Endpoint.exists_hiding hhidden
        have hreport := mem_reported_of_mem_report hendpoints (List.mem_append_left _ hw)
        exact .inr ⟨e, hendpoints ▸ by simp, w, hreport, hhides⟩
      · have hreport := mem_report_iff.2 ⟨hbreaks, not_exists.1 hhidden⟩
        exact .inl (mem_reported_of_mem_report hendpoints hreport)

/-- Nothing but broken rules is reported. -/
theorem breaks_of_mem_reported {c : Config} {v : Violation} (h : v ∈ c.reported) : c.Breaks v := by
  suffices ∀ endpoints rest, c.endpoints = endpoints ++ rest →
      v ∈ ({ c with endpoints } : Config).reported → c.Breaks v from
    this c.endpoints [] (List.append_nil _).symm h
  intro endpoints
  induction endpoints using List.reverseRecOn with
  | nil =>
      intro _ _ hv
      rw [reported_nil] at hv
      split at hv
      · rename_i hnone
        rw [List.mem_singleton.1 hv]
        exact .bindAddress hnone
      · cases hv
  | append_singleton endpoints e ih =>
      intro rest heq hv
      rw [List.append_assoc, List.singleton_append] at heq
      rw [reported_concat, List.mem_append] at hv
      rcases hv with hv | hv
      · exact ih (e :: rest) heq hv
      · exact .endpoint heq (mem_report_iff.1 hv).1

theorem validate_eq_ok_iff_reported {c : Config} : c.validate = .ok () ↔ c.reported = [] := by
  rw [validate_eq_ok_iff_violations, reported_eq]

/-- A configuration is accepted exactly if no rule is broken. -/
theorem validate_eq_ok_iff_not_breaks {c : Config} : c.validate = .ok () ↔ ∀ v, ¬ c.Breaks v := by
  rw [validate_eq_ok_iff_reported]
  constructor
  · intro hnone v hbreaks
    rcases hbreaks.mem_reported with hv | ⟨_, _, w, hw, _⟩
    · exact List.not_mem_nil (hnone ▸ hv)
    · exact List.not_mem_nil (hnone ▸ hw)
  · intro hnone
    exact List.eq_nil_iff_forall_not_mem.2 fun v hv => hnone v (breaks_of_mem_reported hv)

/-- A configuration is accepted exactly if no rule is broken.  What else is reported comes from the
endpoints one after the other: of each, every rule that it breaks and that nothing hides, and only
these.  A hidden one is hidden by one that is reported; so what is still broken after all reported
violations are repaired is a fault of a path or a backend behind another fault of the same one. -/
theorem broken_rules_are_reported_unless_hidden (c : Config) :
    (c.validate = .ok () ↔ ∀ v, ¬ c.Breaks v) ∧
    ({ c with endpoints := [] } : Config).reported =
      (if SocketAddress.parse? c.listener.bindAddress = none then
        [.bindAddress c.listener.bindAddress] else []) ∧
    (∀ before e after, c.endpoints = before ++ e :: after → ∃ report,
      ({ c with endpoints := before ++ [e] } : Config).reported =
        ({ c with endpoints := before } : Config).reported ++ report ∧
      ({ c with endpoints := before ++ [e] } : Config).reported <+: c.reported ∧
      (∀ v, v ∈ report ↔ e.BreaksAfter before v ∧ ∀ w, ¬ e.Hides w v) ∧
      ∀ w v, e.Hides w v → ∃ w' ∈ report, e.Hides w' v) ∧
    ∀ repaired : Config, (∀ w ∈ c.reported, ¬ repaired.Breaks w) →
      ∀ v, c.Breaks v → repaired.Breaks v →
        ∃ e ∈ c.endpoints, ∃ w ∈ c.reported, e.Hides w v := by
  refine ⟨validate_eq_ok_iff_not_breaks, reported_nil c, ?_, ?_⟩
  · intro before e after hendpoints
    refine ⟨_, reported_concat c before e, reported_concat_isPrefix hendpoints,
      fun v => mem_report_iff, fun w v hhides => ?_⟩
    obtain ⟨w', hw', hhides'⟩ := Endpoint.exists_hiding ⟨w, hhides⟩
    exact ⟨w', List.mem_append_left _ hw', hhides'⟩
  · intro repaired hrepaired v hbreaks hbroken
    rcases hbreaks.mem_reported with hv | hhidden
    · exact absurd hbroken (hrepaired v hv)
    · exact hhidden

/-- An endpoint with a fault in every part. -/
def faultyEndpoint : Endpoint where
  endpoint := "/u/\x7bname\x7d"
  method := "G T"
  queryString := ["q", ""]
  headersToPass := ["a b", "accept", ""]
  backend := some { address := "", path := "api", method := "" }

/-- The endpoint comes after one with the same request paths. -/
def faultyConfig : Config where
  endpoints := [{ endpoint := "/u/\x7bid\x7d" }, faultyEndpoint]

/-- Both headers, the collision and the first fault of the backend are reported; its second and its
third are not. -/
theorem faultyConfig_report :
    ∃ report, faultyConfig.reported =
        ({ faultyConfig with endpoints := [{ endpoint := "/u/\x7bid\x7d" }] } : Config).reported ++
          report ∧
      .headerName faultyEndpoint.endpoint "a b" ∈ report ∧
      .headerName faultyEndpoint.endpoint "" ∈ report ∧
      .conflictingEndpoint faultyEndpoint.endpoint "/u/\x7bid\x7d" ∈ report ∧
      .backend faultyEndpoint.endpoint .emptyAddress ∈ report ∧
      .backend faultyEndpoint.endpoint .path ∉ report ∧
      .backend faultyEndpoint.endpoint .method ∉ report := by
  have hfirst : Backend.BreaksFirst { address := "", path := "api", method := "" } .emptyAddress :=
    ⟨.emptyAddress rfl, fun _ _ => Nat.zero_le _⟩
  have hcollides : FirstColliding [{ endpoint := "/u/\x7bid\x7d" }] faultyEndpoint
      { endpoint := "/u/\x7bid\x7d" } :=
    ⟨[], [], rfl, nofun, collides_iff.2
      ⟨isRoute_iff.2 ⟨_, rfl⟩, isRoute_iff.2 ⟨_, rfl⟩, by decide⟩⟩
  obtain ⟨report, hreported, _, hmem, _⟩ :=
    (broken_rules_are_reported_unless_hidden faultyConfig).2.2.1
      [{ endpoint := "/u/\x7bid\x7d" }] faultyEndpoint [] rfl
  refine ⟨report, hreported, ?_, ?_, ?_, ?_, ?_, ?_⟩
  · exact (hmem _).2 ⟨.alone (.header (by decide) (by decide)), fun _ hhides => nomatch hhides⟩
  · exact (hmem _).2 ⟨.alone (.header (by decide) (by decide)), fun _ hhides => nomatch hhides⟩
  · exact (hmem _).2 ⟨.conflict hcollides (by decide), fun _ hhides => nomatch hhides⟩
  · refine (hmem _).2 ⟨.alone (.backend rfl hfirst.1), fun _ hhides => ?_⟩
    cases hhides with
    | backend hb hother hne =>
        cases hb
        exact hne (hother.unique hfirst)
  · exact fun hreport => ((hmem _).1 hreport).2 _ (.backend rfl hfirst (by decide))
  · exact fun hreport => ((hmem _).1 hreport).2 _ (.backend rfl hfirst (by decide))

/-- An endpoint whose backend has no address and a path that does not open with a slash. -/
def pathlessConfig (address : String) : Config where
  endpoints := [{ endpoint := "/a", backend := some { address, path := "api" } }]

/-- Not every broken rule is reported: the address is, and the path only once the address has been
repaired. -/
theorem path_unreported_until_address_is_repaired :
    (pathlessConfig "").Breaks (.backend "/a" .path) ∧
    (pathlessConfig "").reported = [.backend "/a" .emptyAddress] ∧
    (pathlessConfig "10.0.0.7:80").reported = [.backend "/a" .path] := by
  refine ⟨?_, by decide, by decide⟩
  have hpath : ¬ OpensWithSlash "api" := by
    rw [← opensWithSlash_iff]
    decide
  have halone : Endpoint.Breaks
      { endpoint := "/a", backend := some { address := "", path := "api" } }
      (.backend "/a" .path) :=
    .backend rfl (.path hpath)
  exact .endpoint (List.nil_append _).symm (.alone halone)

end Gateway.Config
