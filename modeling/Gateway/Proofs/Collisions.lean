/-
Module: Gateway.Proofs.Collisions
Layer: Proofs
Purpose: What validation reports of endpoints that collide.  Walking the endpoints, it knows the
  first routable path of every key met so far (`lookup_keysAfter`), and two routes have one key
  exactly if they stand for the same request paths (`collides_iff`).  So an endpoint is reported if
  it collides with one before it, with the first such (`mem_collisions_iff`).  Every route but the
  first of its kind is reported once, which makes the number of collisions independent of the order
  (`collisions_add_kinds`).
Main exports: Config.isRoutable_iff, Config.collides_iff, Config.lookup_keysAfter,
  Config.endpointsViolations_concat, Config.mem_collisions_iff, Config.mem_endpointViolations,
  Config.collisions_add_kinds, Config.validate_eq_ok_iff, Config.validate_of_perm,
  Config.reported, Config.collision_names_first_of_same_paths
-/
import Mathlib.Data.Finset.Dedup
import Mathlib.Data.Finset.Card
import Gateway.Config.Rules
import Gateway.Proofs.RouteKeys

namespace Gateway.Config

open Route (Pattern)

/-! ### Routes -/

theorem opensWithSlash_iff {text : String} : opensWithSlash text = true ↔ OpensWithSlash text := by
  rw [opensWithSlash, beq_iff_eq, OpensWithSlash]
  cases text.toList with
  | nil => simp
  | cons c rest => simp

theorem IsRoute.opensWithSlash {path : String} (h : IsRoute path) : OpensWithSlash path := by
  obtain ⟨pattern, hwell, rfl⟩ := h
  obtain ⟨rest, hrest, _⟩ := hwell.exists_rest
  exact ⟨rest, hrest⟩

/-- A path is a route exactly if it is read as a pattern. -/
theorem isRoute_iff {path : String} :
    IsRoute path ↔ ∃ pattern, Pattern.parse path = .ok pattern := by
  simp only [IsRoute, Pattern.parse_eq_ok_iff]

theorem pathViolations_eq_nil_iff {path : String} : pathViolations path = [] ↔ IsRoute path := by
  rw [isRoute_iff, pathViolations]
  cases hparse : Pattern.parse path with
  | error fault => split <;> simp
  | ok pattern =>
      have hslash := opensWithSlash_iff.2 (isRoute_iff.2 ⟨pattern, hparse⟩).opensWithSlash
      simp [hslash]

theorem isRoutable_iff {e : Endpoint} : e.isRoutable = true ↔ IsRoute e.endpoint := by
  rw [Endpoint.isRoutable, List.isEmpty_iff, pathViolations_eq_nil_iff]

/-- Two paths collide exactly if both are routes and have one key. -/
theorem collides_iff {first second : String} : Collides first second ↔
    IsRoute first ∧ IsRoute second ∧ Route.routeKey first = Route.routeKey second := by
  constructor
  · rintro ⟨p, q, hp, hq, rfl, rfl, hpaths⟩
    exact ⟨⟨p, hp, rfl⟩, ⟨q, hq, rfl⟩,
      (Route.routeKey_eq_iff hp hq).2 ((Pattern.shape_eq_iff_standsFor hp hq).2 hpaths)⟩
  · rintro ⟨⟨p, hp, rfl⟩, ⟨q, hq, rfl⟩, hkey⟩
    exact ⟨p, q, hp, hq, rfl, rfl,
      (Pattern.shape_eq_iff_standsFor hp hq).1 ((Route.routeKey_eq_iff hp hq).1 hkey)⟩

theorem collides_text_iff {p q : Pattern} (hp : p.WellFormed) (hq : q.WellFormed) :
    Collides p.text q.text ↔ p.shape = q.shape := by
  rw [collides_iff, Route.routeKey_eq_iff hp hq, and_iff_right ⟨p, hp, rfl⟩,
    and_iff_right ⟨q, hq, rfl⟩]

/-! ### Keys met on the way -/

/-- The keys met after a list of endpoints. -/
def keysAfter (endpoints : List Endpoint) : SeenRoutes :=
  endpoints.foldl (fun seen e => (collision seen e).2) []

/-- An endpoint adds its key, if its path is routable and its key is new. -/
theorem lookup_collision (seen : SeenRoutes) (e : Endpoint) (key : String) :
    (collision seen e).2.lookup key =
      (seen.lookup key).or (if e.isRoutable && e.key == key then some e.endpoint else none) := by
  by_cases hroutable : e.isRoutable = true
  · simp only [collision, hroutable, Bool.not_true, Bool.false_eq_true, if_false, Bool.true_and]
    cases hseen : seen.lookup e.key with
    | none =>
        have hone : List.lookup key [(e.key, e.endpoint)] =
            if (e.key == key) = true then some e.endpoint else none := by
          by_cases hkey : e.key = key
          · simp [hkey]
          · simp [hkey, List.lookup_cons, beq_eq_false_iff_ne.2 (Ne.symm hkey)]
        rw [List.lookup_append, hone]
    | some existing =>
        have hkept : seen.lookup key = (seen.lookup key).or
            (if (e.key == key) = true then some e.endpoint else none) := by
          by_cases hkey : e.key = key
          · rw [← hkey, hseen]
            rfl
          · simp [hkey]
        by_cases hsame : existing = e.endpoint
        · simpa only [hsame, if_true] using hkept
        · simpa only [hsame, if_false] using hkept
  · rw [Bool.not_eq_true] at hroutable
    simp [collision, hroutable]

/-- Every key is known with the first routable path that has it. -/
theorem lookup_keysAfter (endpoints : List Endpoint) (key : String) :
    (keysAfter endpoints).lookup key =
      (endpoints.find? fun e => e.isRoutable && e.key == key).map (·.endpoint) := by
  induction endpoints using List.reverseRecOn with
  | nil => rfl
  | append_singleton endpoints e ih =>
      have hstep : keysAfter (endpoints ++ [e]) = (collision (keysAfter endpoints) e).2 :=
        List.foldl_concat ..
      rw [hstep, lookup_collision, ih, List.find?_append, Option.map_or]
      congr 1
      by_cases hmet : (e.isRoutable && e.key == key) = true
      · simp [hmet]
      · simp [hmet]

/-- What is reported of an endpoint's collision with one of those before it. -/
def collisions (before : List Endpoint) (e : Endpoint) : List Violation :=
  (collision (keysAfter before) e).1

theorem endpointsViolations_append (seen : SeenRoutes) (endpoints rest : List Endpoint) :
    endpointsViolations seen (endpoints ++ rest) = endpointsViolations seen endpoints ++
      endpointsViolations (endpoints.foldl (fun seen e => (collision seen e).2) seen) rest := by
  induction endpoints generalizing seen with
  | nil => rfl
  | cons e endpoints ih =>
      rw [List.cons_append, endpointsViolations, ih, endpointsViolations, List.foldl_cons]
      simp only [List.append_assoc]

/-- One more endpoint adds what it breaks by itself, and its collision. -/
theorem endpointsViolations_concat (endpoints : List Endpoint) (e : Endpoint) :
    endpointsViolations [] (endpoints ++ [e]) =
      endpointsViolations [] endpoints ++ (endpointViolations e ++ collisions endpoints e) := by
  rw [endpointsViolations_append, endpointsViolations, endpointsViolations, List.append_nil]
  rfl

/-- The endpoint that the walk takes for the first of a route's kind is the first that the route
collides with. -/
theorem find?_eq_some_iff {before : List Endpoint} {e first : Endpoint} (he : IsRoute e.endpoint) :
    (before.find? fun d => d.isRoutable && d.key == e.key) = some first ↔
      FirstColliding before e first := by
  have hmet : ∀ d : Endpoint, (d.isRoutable && d.key == e.key) = true ↔
      Collides d.endpoint e.endpoint := by
    intro d
    rw [Bool.and_eq_true, beq_iff_eq, isRoutable_iff, collides_iff, and_iff_right he]
    rfl
  rw [List.find?_eq_some_iff_append, hmet, FirstColliding]
  simp only [Bool.not_eq_true', ← Bool.not_eq_true, hmet]
  constructor
  · rintro ⟨hcollides, earlier, later, heq, hnone⟩
    exact ⟨earlier, later, heq, hnone, hcollides⟩
  · rintro ⟨earlier, later, heq, hnone, hcollides⟩
    exact ⟨hcollides, earlier, later, heq, hnone⟩

theorem FirstColliding.isRoute {before : List Endpoint} {e first : Endpoint}
    (h : FirstColliding before e first) : IsRoute e.endpoint := by
  obtain ⟨_, _, _, _, hcollides⟩ := h
  exact (collides_iff.1 hcollides).2.1

/-- Where there is no route, or none before it that it collides with, nothing is reported. -/
theorem collisions_eq_nil {before : List Endpoint} {e : Endpoint}
    (h : ∀ first, ¬ FirstColliding before e first) : collisions before e = [] := by
  by_cases hroute : IsRoute e.endpoint
  · have hnone : (keysAfter before).lookup e.key = none := by
      rw [lookup_keysAfter, Option.map_eq_none_iff, Option.eq_none_iff_forall_ne_some]
      intro first hfirst
      exact h first ((find?_eq_some_iff hroute).1 hfirst)
    simp [collisions, collision, isRoutable_iff.2 hroute, hnone]
  · rw [← isRoutable_iff, Bool.not_eq_true] at hroute
    simp [collisions, collision, hroute]

/-- An endpoint that collides is reported with the first that it collides with. -/
theorem collisions_of_firstColliding {before : List Endpoint} {e first : Endpoint}
    (h : FirstColliding before e first) : collisions before e =
      [if first.endpoint = e.endpoint then .duplicateEndpoint e.endpoint
        else .conflictingEndpoint e.endpoint first.endpoint] := by
  have hseen : (keysAfter before).lookup e.key = some first.endpoint := by
    rw [lookup_keysAfter, (find?_eq_some_iff h.isRoute).2 h]
    rfl
  simp only [collisions, collision, isRoutable_iff.2 h.isRoute, hseen]
  by_cases heq : first.endpoint = e.endpoint <;> simp [heq]

/-- An endpoint that collides with one of a list collides with a first one. -/
theorem exists_firstColliding_iff {before : List Endpoint} {e : Endpoint} :
    (∃ first, FirstColliding before e first) ↔ ∃ d ∈ before, Collides d.endpoint e.endpoint := by
  constructor
  · rintro ⟨first, earlier, later, rfl, _, hcollides⟩
    exact ⟨first, by simp, hcollides⟩
  · rintro ⟨d, hd, hcollides⟩
    have hroute := (collides_iff.1 hcollides).2.1
    cases hfind : before.find? fun d => d.isRoutable && d.key == e.key with
    | some first => exact ⟨first, (find?_eq_some_iff hroute).1 hfind⟩
    | none =>
        have hnot := List.find?_eq_none.1 hfind d hd
        obtain ⟨hroute', _, hkey⟩ := collides_iff.1 hcollides
        simp only [isRoutable_iff.2 hroute', Bool.true_and, beq_iff_eq] at hnot
        exact absurd hkey hnot

theorem mem_collisions_iff {before : List Endpoint} {e : Endpoint} {v : Violation} :
    v ∈ collisions before e ↔ ∃ first, FirstColliding before e first ∧
      v = if first.endpoint = e.endpoint then .duplicateEndpoint e.endpoint
        else .conflictingEndpoint e.endpoint first.endpoint := by
  constructor
  · intro hv
    by_cases hfirst : ∃ first, FirstColliding before e first
    · obtain ⟨first, hfirst⟩ := hfirst
      rw [collisions_of_firstColliding hfirst, List.mem_singleton] at hv
      exact ⟨first, hfirst, hv⟩
    · rw [collisions_eq_nil (not_exists.1 hfirst)] at hv
      cases hv
  · rintro ⟨first, hfirst, rfl⟩
    rw [collisions_of_firstColliding hfirst]
    exact List.mem_singleton_self _

/-! ### An endpoint taken alone -/

/-- What is reported of an endpoint taken alone, rule by rule. -/
theorem mem_endpointViolations {e : Endpoint} {v : Violation} : v ∈ endpointViolations e ↔
    v ∈ pathViolations e.endpoint ∨
    (v = .method e.endpoint e.method ∧ Http.isToken e.method = false) ∨
    (v = .emptyQueryParam e.endpoint ∧ "" ∈ e.queryString) ∨
    (∃ name ∈ e.headersToPass, Http.HeaderName.ofString? name = none ∧
      v = .headerName e.endpoint name) ∨
    ∃ b fault, e.backend = some b ∧ b.fault? = some fault ∧ v = .backend e.endpoint fault := by
  have hmethod : v ∈ (if isMethod e.method then [] else [Violation.method e.endpoint e.method]) ↔
      v = .method e.endpoint e.method ∧ Http.isToken e.method = false := by
    unfold isMethod
    split <;> simp_all
  have hquery : v ∈ (if e.queryString.any String.isEmpty then
      [Violation.emptyQueryParam e.endpoint] else []) ↔
      v = .emptyQueryParam e.endpoint ∧ "" ∈ e.queryString := by
    have hany : e.queryString.any String.isEmpty = true ↔ "" ∈ e.queryString := by simp
    rw [← hany]
    split <;> simp_all
  have hheader : v ∈ (e.headersToPass.filter fun h =>
      (Http.HeaderName.ofString? h).isNone).map (.headerName e.endpoint) ↔
      ∃ name ∈ e.headersToPass, Http.HeaderName.ofString? name = none ∧
        v = .headerName e.endpoint name := by
    simp only [List.mem_map, List.mem_filter, Option.isNone_iff_eq_none, and_assoc]
    exact exists_congr fun name => and_congr_right fun _ => and_congr_right fun _ => eq_comm
  have hbackend : v ∈ ((e.backend.bind Backend.fault?).map (.backend e.endpoint)).toList ↔
      ∃ b fault, e.backend = some b ∧ b.fault? = some fault ∧ v = .backend e.endpoint fault := by
    simp only [Option.mem_toList, Option.map_eq_some_iff, Option.bind_eq_some_iff]
    constructor
    · rintro ⟨fault, ⟨b, hb, hfirst⟩, rfl⟩
      exact ⟨b, fault, hb, hfirst, rfl⟩
    · rintro ⟨b, fault, hb, hfirst, rfl⟩
      exact ⟨fault, ⟨b, hb, hfirst⟩, rfl⟩
  simp only [endpointViolations, List.mem_append, hmethod, hquery, hheader, hbackend, or_assoc]

/-! ### Counting -/

/-- Whether a violation is a collision. -/
def Violation.isCollision : Violation → Bool
  | .duplicateEndpoint _ | .conflictingEndpoint .. => true
  | _ => false

theorem isCollision_of_mem_pathViolations {path : String} {v : Violation}
    (h : v ∈ pathViolations path) : v.isCollision = false := by
  unfold pathViolations at h
  split at h
  · obtain rfl := List.mem_singleton.1 h
    rfl
  · split at h
    · obtain rfl := List.mem_singleton.1 h
      rfl
    · cases h

theorem isCollision_of_mem_endpointViolations {e : Endpoint} {v : Violation}
    (h : v ∈ endpointViolations e) : v.isCollision = false := by
  rcases mem_endpointViolations.1 h with h | ⟨rfl, _⟩ | ⟨rfl, _⟩ | ⟨_, _, _, rfl⟩ |
    ⟨_, _, _, _, rfl⟩
  · exact isCollision_of_mem_pathViolations h
  · rfl
  · rfl
  · rfl
  · rfl

theorem isCollision_of_mem_collisions {before : List Endpoint} {e : Endpoint} {v : Violation}
    (h : v ∈ collisions before e) : v.isCollision = true := by
  obtain ⟨first, _, rfl⟩ := mem_collisions_iff.1 h
  split <;> rfl

/-- The keys of the routes among some endpoints. -/
def routeKeys (endpoints : List Endpoint) : List String :=
  (endpoints.filter Endpoint.isRoutable).map Endpoint.key

theorem mem_routeKeys_iff {before : List Endpoint} {e : Endpoint} (he : IsRoute e.endpoint) :
    e.key ∈ routeKeys before ↔ ∃ d ∈ before, Collides d.endpoint e.endpoint := by
  simp only [routeKeys, List.mem_map, List.mem_filter, isRoutable_iff, collides_iff, he, true_and,
    and_assoc]
  rfl

/-- A route is reported to collide once if its key has been met, and else not. -/
theorem length_collisions {before : List Endpoint} {e : Endpoint} (he : IsRoute e.endpoint) :
    (collisions before e).length = if e.key ∈ routeKeys before then 1 else 0 := by
  have hmet : e.key ∈ routeKeys before ↔ ∃ first, FirstColliding before e first := by
    rw [mem_routeKeys_iff he, exists_firstColliding_iff]
  by_cases hfirst : ∃ first, FirstColliding before e first
  · rw [if_pos (hmet.2 hfirst)]
    obtain ⟨first, hfirst⟩ := hfirst
    rw [collisions_of_firstColliding hfirst]
    rfl
  · rw [if_neg (mt hmet.1 hfirst), collisions_eq_nil (not_exists.1 hfirst)]
    rfl

/-- One more endpoint adds its collision to those that are reported. -/
theorem countP_concat (endpoints : List Endpoint) (e : Endpoint) :
    (endpointsViolations [] (endpoints ++ [e])).countP Violation.isCollision =
      (endpointsViolations [] endpoints).countP Violation.isCollision +
        (collisions endpoints e).length := by
  have hown : (endpointViolations e).countP Violation.isCollision = 0 := by
    rw [List.countP_eq_zero]
    intro v hv
    rw [isCollision_of_mem_endpointViolations hv]
    exact Bool.false_ne_true
  have hcollisions : (collisions endpoints e).countP Violation.isCollision =
      (collisions endpoints e).length :=
    List.countP_eq_length.2 fun v hv => isCollision_of_mem_collisions hv
  rw [endpointsViolations_concat, List.countP_append, List.countP_append, hown, hcollisions,
    Nat.zero_add]

/-- Of the routes of one kind, which have one key, all but the first are reported. -/
theorem collisions_add_kinds (endpoints : List Endpoint) :
    (endpointsViolations [] endpoints).countP Violation.isCollision +
      (routeKeys endpoints).toFinset.card = (routeKeys endpoints).length := by
  induction endpoints using List.reverseRecOn with
  | nil => rfl
  | append_singleton endpoints e ih =>
      rw [countP_concat]
      by_cases he : IsRoute e.endpoint
      · have hkeys : routeKeys (endpoints ++ [e]) = routeKeys endpoints ++ [e.key] := by
          simp [routeKeys, List.filter_append, isRoutable_iff.2 he]
        rw [length_collisions he, hkeys, List.toFinset_append, List.length_append]
        by_cases hmet : e.key ∈ routeKeys endpoints
        · have hsame : (routeKeys endpoints).toFinset ∪ [e.key].toFinset =
              (routeKeys endpoints).toFinset := by
            simp [hmet]
          rw [if_pos hmet, hsame, List.length_singleton]
          omega
        · have hnew : e.key ∉ (routeKeys endpoints).toFinset := by simpa using hmet
          have hmore : ((routeKeys endpoints).toFinset ∪ [e.key].toFinset).card =
              (routeKeys endpoints).toFinset.card + 1 := by
            rw [Finset.union_comm, List.toFinset_cons, List.toFinset_nil, insert_empty_eq,
              ← Finset.insert_eq, Finset.card_insert_of_notMem hnew]
          rw [if_neg hmet, hmore, List.length_singleton]
          omega
      · have hkeys : routeKeys (endpoints ++ [e]) = routeKeys endpoints := by
          simp [routeKeys, List.filter_append, mt isRoutable_iff.1 he]
        have hnone : collisions endpoints e = [] :=
          collisions_eq_nil fun first hfirst => he hfirst.isRoute
        rw [hkeys, hnone]
        exact ih

/-! ### What validation sees to -/

theorem isRoute_of_endpointViolations {e : Endpoint} (h : endpointViolations e = []) :
    IsRoute e.endpoint := by
  simp only [endpointViolations, List.append_eq_nil_iff] at h
  exact pathViolations_eq_nil_iff.1 h.1.1.1.1

/-- Endpoints raise no violation if none does by itself and no two routes have one key. -/
theorem endpointsViolations_eq_nil_iff {endpoints : List Endpoint} :
    endpointsViolations [] endpoints = [] ↔
      (∀ e ∈ endpoints, endpointViolations e = []) ∧ (routeKeys endpoints).Nodup := by
  induction endpoints using List.reverseRecOn with
  | nil => simp [endpointsViolations, routeKeys]
  | append_singleton endpoints e ih =>
      rw [endpointsViolations_concat, List.append_eq_nil_iff, List.append_eq_nil_iff, ih,
        List.forall_mem_append, List.forall_mem_singleton, and_assoc, and_assoc]
      refine and_congr_right fun _ => ?_
      rw [and_left_comm]
      refine and_congr_right fun hown => ?_
      have he := isRoute_of_endpointViolations hown
      have hkeys : routeKeys (endpoints ++ [e]) = (routeKeys endpoints).concat e.key := by
        simp [routeKeys, List.filter_append, isRoutable_iff.2 he]
      rw [hkeys, List.nodup_concat, and_comm, ← List.length_eq_zero_iff, length_collisions he]
      simp

theorem shape?_of_text {e : Endpoint} {pattern : Pattern} (hwell : pattern.WellFormed)
    (htext : e.endpoint = pattern.text) : e.shape? = some pattern.shape := by
  rw [Endpoint.shape?, Pattern.parse_eq_ok_iff.2 ⟨hwell, htext⟩]
  rfl

/-- Two routes have one key exactly if their patterns have one shape. -/
theorem key_eq_iff_shape?_eq {d e : Endpoint} (hd : IsRoute d.endpoint) (he : IsRoute e.endpoint) :
    d.key = e.key ↔ d.shape? = e.shape? := by
  obtain ⟨p, hp, hdtext⟩ := hd
  obtain ⟨q, hq, hetext⟩ := he
  rw [shape?_of_text hp hdtext, shape?_of_text hq hetext, Option.some_inj, Endpoint.key,
    Endpoint.key, hdtext, hetext, Route.routeKey_eq_iff hp hq]

theorem violations_eq_nil_iff {config : Config} : config.violations = [] ↔
    (SocketAddress.parse? config.listener.bindAddress).isSome = true ∧
    (∀ e ∈ config.endpoints, endpointViolations e = []) ∧ (routeKeys config.endpoints).Nodup := by
  rw [violations, List.append_eq_nil_iff, endpointsViolations_eq_nil_iff]
  cases SocketAddress.parse? config.listener.bindAddress <;> simp

theorem validate_eq_ok_iff_violations {config : Config} :
    config.validate = .ok () ↔ config.violations = [] := by
  unfold validate
  split
  · rename_i hempty
    exact iff_of_true rfl (List.isEmpty_iff.1 hempty)
  · rename_i hsome
    exact iff_of_false (by simp) fun hnil => hsome (List.isEmpty_iff.2 hnil)

/-- A configuration is valid if its address can be read, no endpoint breaks a rule by itself, and no
two endpoints have one shape. -/
theorem validate_eq_ok_iff {config : Config} : config.validate = .ok () ↔
    (SocketAddress.parse? config.listener.bindAddress).isSome = true ∧
    (∀ e ∈ config.endpoints, endpointViolations e = []) ∧
    config.endpoints.Pairwise fun d e => d.shape? ≠ e.shape? := by
  rw [validate_eq_ok_iff_violations, violations_eq_nil_iff]
  refine and_congr_right fun _ => and_congr_right fun hown => ?_
  have hroutes : ∀ e ∈ config.endpoints, IsRoute e.endpoint :=
    fun e he => isRoute_of_endpointViolations (hown e he)
  have hall : config.endpoints.filter Endpoint.isRoutable = config.endpoints :=
    List.filter_eq_self.2 fun e he => isRoutable_iff.2 (hroutes e he)
  rw [routeKeys, hall, List.Nodup, List.pairwise_map]
  apply List.Pairwise.iff_of_mem
  intro d e hd he
  exact not_congr (key_eq_iff_shape?_eq (hroutes d hd) (hroutes e he))

/-- Whether a configuration is valid does not depend on the order of its endpoints. -/
theorem validate_of_perm {config : Config} {endpoints : List Endpoint}
    (h : endpoints.Perm config.endpoints) (hvalid : config.validate = .ok ()) :
    ({ config with endpoints } : Config).validate = .ok () := by
  rw [validate_eq_ok_iff] at hvalid ⊢
  obtain ⟨haddress, hown, hpairwise⟩ := hvalid
  exact ⟨haddress, fun e he => hown e (h.mem_iff.1 he), (h.pairwise_iff Ne.symm).2 hpairwise⟩

/-! ### What validation reports -/

/-- What validation reports of a configuration. -/
def reported (c : Config) : List Violation :=
  match c.validate with
  | .ok () => []
  | .error violations => violations

theorem reported_eq (c : Config) : c.reported = c.violations := by
  unfold reported validate
  by_cases hnone : c.violations.isEmpty = true
  · simp only [if_pos hnone]
    exact (List.isEmpty_iff.1 hnone).symm
  · simp only [if_neg hnone]

/-- One more endpoint adds to what is reported, and whatever follows it changes nothing of that. -/
theorem reported_concat (c : Config) (before : List Endpoint) (e : Endpoint) :
    ({ c with endpoints := before ++ [e] } : Config).reported =
      ({ c with endpoints := before } : Config).reported ++
        (endpointViolations e ++ collisions before e) := by
  rw [reported_eq, reported_eq, violations, violations, endpointsViolations_concat,
    List.append_assoc]

theorem reported_isPrefix (c : Config) (endpoints rest : List Endpoint) :
    ({ c with endpoints } : Config).reported <+:
      ({ c with endpoints := endpoints ++ rest } : Config).reported := by
  rw [reported_eq, reported_eq, violations, violations, endpointsViolations_append,
    ← List.append_assoc]
  exact List.prefix_append _ _

/-- What is reported up to an endpoint stands at the front of all that is reported. -/
theorem reported_concat_isPrefix {c : Config} {before after : List Endpoint} {e : Endpoint}
    (h : c.endpoints = before ++ e :: after) :
    ({ c with endpoints := before ++ [e] } : Config).reported <+: c.reported := by
  have hfront := reported_isPrefix c (before ++ [e]) after
  rwa [List.append_assoc, List.singleton_append, ← h] at hfront

theorem countP_reported (c : Config) : c.reported.countP Violation.isCollision =
    (endpointsViolations [] c.endpoints).countP Violation.isCollision := by
  rw [reported_eq, violations, List.countP_append]
  split <;> simp [Violation.isCollision]

/-- How many collisions are reported does not depend on the order of the endpoints. -/
theorem countP_reported_of_perm {c : Config} {endpoints : List Endpoint}
    (h : endpoints.Perm c.endpoints) :
    ({ c with endpoints } : Config).reported.countP Violation.isCollision =
      c.reported.countP Violation.isCollision := by
  have hkeys : (routeKeys endpoints).Perm (routeKeys c.endpoints) := (h.filter _).map _
  have hcount := collisions_add_kinds endpoints
  have hcount' := collisions_add_kinds c.endpoints
  rw [hkeys.length_eq, List.toFinset_eq_of_perm _ _ hkeys] at hcount
  rw [countP_reported, countP_reported]
  exact Nat.add_right_cancel (hcount.trans hcount'.symm)

/-- What is reported of an endpoint's collisions. -/
theorem filter_isCollision (before : List Endpoint) (e : Endpoint) :
    (endpointViolations e ++ collisions before e).filter Violation.isCollision =
      collisions before e := by
  have hown : (endpointViolations e).filter Violation.isCollision = [] := by
    rw [List.filter_eq_nil_iff]
    intro v hv
    rw [isCollision_of_mem_endpointViolations hv]
    exact Bool.false_ne_true
  rw [List.filter_append, hown, List.nil_append]
  exact List.filter_eq_self.2 fun v hv => isCollision_of_mem_collisions hv

/-- Of every endpoint whose path is a route, what is reported holds at most one collision: the first
endpoint before it that stands for the same request paths, as a duplicate if it is spelled alike.
Paths stand for the same request paths exactly if they differ at most in the names of captures.
Neither the number of collisions nor validity depends on the order of the endpoints. -/
theorem collision_names_first_of_same_paths (c : Config) :
    (∀ before e after, c.endpoints = before ++ e :: after → IsRoute e.endpoint →
      ∃ report,
        ({ c with endpoints := before ++ [e] } : Config).reported =
          ({ c with endpoints := before } : Config).reported ++ report ∧
        ({ c with endpoints := before ++ [e] } : Config).reported <+: c.reported ∧
        (report.filter Violation.isCollision ≠ [] ↔
          ∃ d ∈ before, Collides d.endpoint e.endpoint) ∧
        ∀ first, FirstColliding before e first →
          report.filter Violation.isCollision =
            [if first.endpoint = e.endpoint then .duplicateEndpoint e.endpoint
              else .conflictingEndpoint e.endpoint first.endpoint]) ∧
    (∀ p q : Pattern, p.WellFormed → q.WellFormed →
      (Collides p.text q.text ↔ p.shape = q.shape)) ∧
    ∀ endpoints : List Endpoint, endpoints.Perm c.endpoints →
      ({ c with endpoints } : Config).reported.countP Violation.isCollision =
        c.reported.countP Violation.isCollision ∧
      (({ c with endpoints } : Config).validate = .ok () ↔ c.validate = .ok ()) := by
  refine ⟨?_, fun p q hp hq => collides_text_iff hp hq, ?_⟩
  · intro before e after hendpoints he
    refine ⟨_, reported_concat c before e, reported_concat_isPrefix hendpoints, ?_, ?_⟩
    · rw [filter_isCollision, ← exists_firstColliding_iff]
      constructor
      · intro hne
        by_contra hnone
        exact hne (collisions_eq_nil (not_exists.1 hnone))
      · rintro ⟨first, hfirst⟩
        rw [collisions_of_firstColliding hfirst]
        exact List.cons_ne_nil _ _
    · intro first hfirst
      rw [filter_isCollision, collisions_of_firstColliding hfirst]
  · intro endpoints hperm
    have hback : c.endpoints.Perm ({ c with endpoints } : Config).endpoints := hperm.symm
    exact ⟨countP_reported_of_perm hperm, validate_of_perm hback, validate_of_perm hperm⟩

/-- Three spellings of one path, with a path between them that is no route. -/
def usersConfig : Config where
  endpoints := [{ endpoint := "/u/\x7bid\x7d" }, { endpoint := "/u/\x7bname\x7d" },
    { endpoint := "u" }, { endpoint := "/u/\x7bid\x7d" }]

/-- The last endpoint is spelled like the first, so it is a duplicate of that one, although it
conflicts with the second as well. -/
theorem usersConfig_last_is_duplicate :
    ∃ report, usersConfig.reported =
        ({ usersConfig with endpoints := usersConfig.endpoints.dropLast } : Config).reported ++
          report ∧
      report.filter Violation.isCollision = [.duplicateEndpoint "/u/\x7bid\x7d"] := by
  have hroute : IsRoute "/u/\x7bid\x7d" := isRoute_iff.2 ⟨_, rfl⟩
  obtain ⟨report, hreported, _, _, hfirst⟩ := (collision_names_first_of_same_paths usersConfig).1
    [{ endpoint := "/u/\x7bid\x7d" }, { endpoint := "/u/\x7bname\x7d" }, { endpoint := "u" }]
    { endpoint := "/u/\x7bid\x7d" } [] rfl hroute
  refine ⟨report, hreported, ?_⟩
  exact hfirst { endpoint := "/u/\x7bid\x7d" }
    ⟨[], _, rfl, nofun, collides_iff.2 ⟨hroute, hroute, rfl⟩⟩

end Gateway.Config
