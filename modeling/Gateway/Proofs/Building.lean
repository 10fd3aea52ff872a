/-
Module: Gateway.Proofs.Building
Layer: Proofs
Purpose: Which valid configurations a server can be built from.  Validation sees to it that every
  path is a pattern and that no two have one shape (`shapes_of_valid`); the router also refuses
  patterns with too many captures, and a capture beside a catch-all.  A valid configuration is built
  exactly if it has neither (`exists_build_iff`).
Main exports: Config.shapes_of_valid, Server.shapes_of_build,
  Server.exists_build_of_shapes, Server.exists_build_iff
-/
import Gateway.Proofs.Collisions
import Gateway.Server

namespace Gateway

open Route (Pattern Shape Clash)

namespace Config

/-! ### What validation sees to -/

/-- In a valid configuration every path is a pattern, and no two have one shape. -/
theorem shapes_of_valid {config : Config} (h : config.validate = .ok ()) :
    (∀ e ∈ config.endpoints, ∃ pattern : Pattern, pattern.WellFormed ∧ e.endpoint = pattern.text) ∧
    config.endpoints.Pairwise fun d e => d.shape? ≠ e.shape? := by
  obtain ⟨_, hown, hpairwise⟩ := validate_eq_ok_iff.1 h
  exact ⟨fun e he => isRoute_of_endpointViolations (hown e he), hpairwise⟩

end Config

namespace Server

/-! ### What the router sees to -/

theorem exists_build_iff_router {config : Config} (pipelineOf : Config.Endpoint → Pipeline)
    (hvalid : config.validate = .ok ()) :
    (∃ server, build config pipelineOf = .ok server) ↔
      ∃ router, Route.Router.ofList (handlers config pipelineOf) = .ok router := by
  unfold build
  rw [hvalid]
  constructor
  · intro hgiven
    rcases hgiven with ⟨server, h⟩
    cases hrouter : Route.Router.ofList (handlers config pipelineOf) with
    | error fault => simp [hrouter] at h
    | ok router => exact ⟨router, rfl⟩
  · intro hgiven
    rcases hgiven with ⟨router, h⟩
    exact ⟨⟨config, router⟩, by simp only [h]⟩

/-- The router reads the path of an endpoint as the tokens of its shape. -/
theorem readRoute_of_shape {e : Config.Endpoint} {s : List Shape}
    (hpattern : ∃ pattern : Pattern, pattern.WellFormed ∧ e.endpoint = pattern.text)
    (hs : e.shape? = some s) :
    Route.IsShape s ∧ Route.readRoute e.endpoint =
      if Route.mostParams < s.count .capture then .error .tooManyParams
      else .ok (Route.tokensOf s) := by
  obtain ⟨pattern, hwell, htext⟩ := hpattern
  rw [Config.shape?_of_text hwell htext] at hs
  cases hs
  rw [htext]
  exact ⟨hwell.isShape, Route.readRoute_text hwell⟩

/-- What has been built has no pattern with too many captures, and no two that clash. -/
theorem shapes_of_build {config : Config} {pipelineOf : Config.Endpoint → Pipeline}
    (hvalid : config.validate = .ok ()) (h : ∃ server, build config pipelineOf = .ok server) :
    (∀ e ∈ config.endpoints, ∀ s, e.shape? = some s → s.count .capture ≤ Route.mostParams) ∧
    config.endpoints.Pairwise fun d e =>
      ∀ s t, d.shape? = some s → e.shape? = some t → ¬ Clash s t := by
  obtain ⟨hpatterns, _⟩ := Config.shapes_of_valid hvalid
  rw [exists_build_iff_router pipelineOf hvalid, Route.Router.exists_ofList_iff, handlers,
    List.forall_mem_map, List.pairwise_map] at h
  obtain ⟨hread, hfree⟩ := h
  have hfew : ∀ e ∈ config.endpoints, ∀ s, e.shape? = some s →
      s.count .capture ≤ Route.mostParams := by
    intro e he s hs
    obtain ⟨tokens, htokens⟩ := hread e he
    apply Nat.le_of_not_lt
    intro hmany
    rw [(readRoute_of_shape (hpatterns e he) hs).2, if_pos hmany] at htokens
    cases htokens
  refine ⟨hfew, hfree.imp_of_mem ?_⟩
  intro d e hd he hconflict s t hs ht hclash
  obtain ⟨hsShape, hsRead⟩ := readRoute_of_shape (hpatterns d hd) hs
  obtain ⟨htShape, htRead⟩ := readRoute_of_shape (hpatterns e he) ht
  rw [if_neg (Nat.not_lt.2 (hfew d hd s hs))] at hsRead
  rw [if_neg (Nat.not_lt.2 (hfew e he t ht))] at htRead
  have hboth := (Route.conflict_iff hsShape htShape).2 (Or.inr hclash)
  rw [hconflict _ _ hsRead htRead] at hboth
  cases hboth

/-- Nothing else is in the way of building a valid configuration. -/
theorem exists_build_of_shapes {config : Config} (pipelineOf : Config.Endpoint → Pipeline)
    (hvalid : config.validate = .ok ())
    (hfew : ∀ e ∈ config.endpoints, ∀ s, e.shape? = some s → s.count .capture ≤ Route.mostParams)
    (hapart : config.endpoints.Pairwise fun d e =>
      ∀ s t, d.shape? = some s → e.shape? = some t → ¬ Clash s t) :
    ∃ server, build config pipelineOf = .ok server := by
  obtain ⟨hpatterns, hdistinct⟩ := Config.shapes_of_valid hvalid
  rw [exists_build_iff_router pipelineOf hvalid, Route.Router.exists_ofList_iff, handlers,
    List.forall_mem_map, List.pairwise_map]
  have hread : ∀ e ∈ config.endpoints, ∃ s, e.shape? = some s ∧ Route.IsShape s ∧
      Route.readRoute e.endpoint = .ok (Route.tokensOf s) := by
    intro e he
    obtain ⟨pattern, hwell, htext⟩ := hpatterns e he
    have hs := Config.shape?_of_text hwell htext
    obtain ⟨hshape, hread⟩ := readRoute_of_shape (hpatterns e he) hs
    rw [if_neg (Nat.not_lt.2 (hfew e he _ hs))] at hread
    exact ⟨_, hs, hshape, hread⟩
  constructor
  · intro e he
    obtain ⟨s, _, _, hs⟩ := hread e he
    exact ⟨_, hs⟩
  · apply (hdistinct.and hapart).imp_of_mem
    intro d e hd he hboth tokens tokens' htokens htokens'
    rcases hboth with ⟨hne, hclash⟩
    obtain ⟨s, hs, hsShape, hsRead⟩ := hread d hd
    obtain ⟨t, ht, htShape, htRead⟩ := hread e he
    rw [hsRead] at htokens
    rw [htRead] at htokens'
    cases htokens
    cases htokens'
    rw [Bool.eq_false_iff]
    intro hconflict
    rcases (Route.conflict_iff hsShape htShape).1 hconflict with rfl | hboth
    · exact hne (hs.trans ht.symm)
    · exact hclash s t hs ht hboth

/-- A server can be built from a valid configuration exactly if no pattern has more captures than
the router takes, and no two patterns have a capture and a catch-all after the same beginning. -/
theorem exists_build_iff (config : Config) (pipelineOf : Config.Endpoint → Pipeline)
    (hvalid : config.validate = .ok ()) :
    (∃ server, build config pipelineOf = .ok server) ↔
      (∀ e ∈ config.endpoints, ∀ s, e.shape? = some s → s.count .capture ≤ Route.mostParams) ∧
      config.endpoints.Pairwise fun d e =>
        ∀ s t, d.shape? = some s → e.shape? = some t → ¬ Clash s t :=
  ⟨shapes_of_build hvalid, fun h => exists_build_of_shapes pipelineOf hvalid h.1 h.2⟩

/-- A capture at the root, and files below a directory. -/
def filesConfig : Config where
  endpoints := [{ endpoint := "/\x7bid\x7d" }, { endpoint := "/files/\x7b*rest\x7d" }]

theorem exists_build_filesConfig :
    filesConfig.validate = .ok () ∧
    ∃ server, build filesConfig (fun _ => Pipeline.idle) = .ok server := by
  have hvalid : filesConfig.validate = .ok () := by rfl
  refine ⟨hvalid, (exists_build_iff filesConfig (fun _ => Pipeline.idle) hvalid).2 ⟨?_, ?_⟩⟩
  · intro e he s hs
    simp only [filesConfig, List.mem_cons, List.not_mem_nil, or_false] at he
    rcases he with rfl | rfl
    · cases hs; decide
    · cases hs; decide
  · apply List.pairwise_pair.2
    intro s t hs ht hclash
    cases hs
    cases ht
    cases hclash

/-- A capture and a catch-all at the root. -/
def clashingConfig : Config where
  endpoints := [{ endpoint := "/\x7ba\x7d" }, { endpoint := "/\x7b*b\x7d" }]

/-- A valid configuration that no server can be built from. -/
theorem not_exists_build_clashingConfig :
    clashingConfig.validate = .ok () ∧
    ¬ ∃ server, build clashingConfig (fun _ => Pipeline.idle) = .ok server := by
  have hvalid : clashingConfig.validate = .ok () := by rfl
  refine ⟨hvalid, ?_⟩
  intro hbuild
  have hapart := List.pairwise_pair.1 (shapes_of_build hvalid hbuild).2
  exact hapart [.capture] [.catchAll] rfl rfl .capture

end Server

end Gateway
