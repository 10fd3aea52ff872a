/-
Module: Gateway.Config.Schema
Layer: Config
Purpose: The configuration of a gateway, with its defaults.
Main exports: Config, Config.Endpoint, Config.Backend, Config.toJson
-/
import Gateway.Json.Value

namespace Gateway

namespace Config

/-- Where the gateway listens. -/
structure Listener where
  bindAddress : String := "0.0.0.0:8080"
deriving Repr, DecidableEq

/-- The method of an endpoint or a backend that names none. -/
def defaultMethod : String := "GET"

/-- The server behind an endpoint. -/
structure Backend where
  address : String
  path : String
  method : String := defaultMethod
  /-- Wraps every body under one key, objects too. -/
  isCollection : Bool := false
  maxResponseBytes : Nat := 1024 * 1024
deriving Repr, DecidableEq

/-- One route, and how requests to it are served. -/
structure Endpoint where
  endpoint : String
  method : String := defaultMethod
  /-- Zero means no deadline. -/
  timeoutMs : Nat := 0
  /-- Zero means no caching. -/
  cacheTtlSecs : Nat := 0
  queryString : List String := []
  headersToPass : List String := []
  /-- An endpoint without a backend answers with no data. -/
  backend : Option Backend := none
deriving Repr, DecidableEq

/-- What the gateway reports. -/
structure Observability where
  logLevel : String := "info"
  metricsEnabled : Bool := false
  metricsAddress : String := "0.0.0.0:9090"
deriving Repr, DecidableEq

/-- Limits on requests. -/
structure Security where
  maxBodySize : Nat := 2 * 1024 * 1024
deriving Repr, DecidableEq

end Config

/-- The configuration of a gateway. -/
structure Config where
  listener : Config.Listener := {}
  endpoints : List Config.Endpoint := []
  observability : Config.Observability := {}
  security : Config.Security := {}
deriving Repr, DecidableEq

namespace Config

/-- A list of texts. -/
def textsToJson (texts : List String) : Json :=
  .array (texts.map .string)

/-- The JSON form of a backend. -/
def Backend.toJson (b : Backend) : Json :=
  Json.ofFields [
    ("address", .string b.address),
    ("path", .string b.path),
    ("method", .string b.method),
    ("is_collection", .bool b.isCollection),
    ("max_response_bytes", .nat b.maxResponseBytes)]

/-- The JSON form of an endpoint. -/
def Endpoint.toJson (e : Endpoint) : Json :=
  Json.ofFields [
    ("endpoint", .string e.endpoint),
    ("method", .string e.method),
    ("timeout_ms", .nat e.timeoutMs),
    ("cache_ttl_secs", .nat e.cacheTtlSecs),
    ("query_string", textsToJson e.queryString),
    ("headers_to_pass", textsToJson e.headersToPass),
    ("backend", (e.backend.map Backend.toJson).getD .null)]

/-- The JSON form of a configuration, with every field. -/
def toJson (c : Config) : Json :=
  Json.ofFields [
    ("listener", Json.ofFields [("bind_address", .string c.listener.bindAddress)]),
    ("endpoints", .array (c.endpoints.map Endpoint.toJson)),
    ("observability", Json.ofFields [
      ("log_level", .string c.observability.logLevel),
      ("metrics_enabled", .bool c.observability.metricsEnabled),
      ("metrics_address", .string c.observability.metricsAddress)]),
    ("security", Json.ofFields [("max_body_size", .nat c.security.maxBodySize)])]

end Config

end Gateway
