/-
Module: Gateway.Config.Decoding
Layer: Config
Purpose: Reading a configuration from an untyped document.
Main exports: Config.DecodeFault, Config.DecodeFault.message, Config.Dialect, Config.ofDocument,
  Config.ofJson
-/
import Gateway.Config.Schema
import Gateway.Document
import Gateway.Decimal.Format
import Gateway.Text.Quoted

namespace Gateway.Config

/-!
A document is read from front to back and the first fault is reported.  Fields that a structure does
not know are passed over, fields that are absent take their defaults, and a structure may also be
given as a list of its fields in their order.
-/

/-- How documents of a format are read and reported. -/
structure Dialect where
  numbers : Decimal.Format
  /-- A structure given as a list must not have more items than fields. -/
  strictLength : Bool

/-- What stood in a document where something else was expected. -/
inductive Found where
  | null
  | bool (value : Bool)
  | integer (value : Int)
  | double (value : Double)
  | string (value : String)
  | list
  | table
deriving Repr, DecidableEq

/-- What stands at the top of a document. -/
def found : Document → Found
  | .null => .null
  | .bool b => .bool b
  | .integer n => .integer n
  | .double d => .double d
  | .string s => .string s
  | .list _ => .list
  | .table _ => .table

/-- The wording of what was found. -/
def Found.describe (dialect : Dialect) : Found → String
  | .null => "null"
  | .bool b => "boolean `" ++ (if b then "true" else "false") ++ "`"
  | .integer n => "integer `" ++ toString n ++ "`"
  | .double d => "floating point `" ++ dialect.numbers.write d ++ "`"
  | .string s => "string " ++ Quoted.quote s
  | .list => "sequence"
  | .table => "map"

/-- Why a document is no configuration. -/
inductive DecodeFault where
  | wrongType (found : Found) (expected : String)
  | wrongValue (found : Found) (expected : String)
  | missingField (name : String)
  /-- A structure given as a list lacks a field that has no default. -/
  | tooFewItems (length : Nat) (expected : String) (fields : Nat)
  | tooManyItems (length : Nat)
deriving Repr, DecidableEq

/-- The wording of a fault. -/
def DecodeFault.message (dialect : Dialect) : DecodeFault → String
  | .wrongType found expected =>
    "invalid type: " ++ found.describe dialect ++ ", expected " ++ expected
  | .wrongValue found expected =>
    "invalid value: " ++ found.describe dialect ++ ", expected " ++ expected
  | .missingField name => "missing field `" ++ name ++ "`"
  | .tooFewItems length expected fields =>
    "invalid length " ++ toString length ++ ", expected " ++ expected ++ " with "
      ++ toString fields ++ " elements"
  | .tooManyItems length =>
    "invalid length " ++ toString length ++ ", expected fewer elements in array"

/-- The result of reading a part of a document. -/
abbrev Reading := Except DecodeFault

/-- Reads a text. -/
def readText : Document → Reading String
  | .string s => .ok s
  | d => .error (.wrongType (found d) "a string")

/-- A truth value. -/
def readBool : Document → Reading Bool
  | .bool b => .ok b
  | d => .error (.wrongType (found d) "a boolean")

/-- A natural number; the word names its width. -/
def readNat (width : String) : Document → Reading Nat
  | .integer n => if 0 ≤ n then .ok n.toNat else .error (.wrongValue (.integer n) width)
  | d => .error (.wrongType (found d) width)

/-- A list, each item read in the same way. -/
def readList {α : Type} (item : Document → Reading α) : Document → Reading (List α)
  | .list items => items.mapM item
  | d => .error (.wrongType (found d) "a sequence")

/-- A value that may be null. -/
def readOption {α : Type} (item : Document → Reading α) : Document → Reading (Option α)
  | .null => .ok none
  | d => some <$> item d

/-- The name of a structure and its fields in their order. -/
structure Layout where
  name : String
  fields : List String

/-- What a structure of that layout is called in messages. -/
def Layout.expected (layout : Layout) : String :=
  "struct " ++ layout.name

/-- A structure's entries as they are given, and what is reported if a field without default is
missing from them. -/
def readEntries (layout : Layout) :
    Document → Reading (List (String × Document) × (String → DecodeFault))
  | .table entries => .ok (entries, .missingField)
  | .list items =>
    .ok (layout.fields.zip items,
      fun _ => .tooFewItems items.length layout.expected layout.fields.length)
  | d => .error (.wrongType (found d) layout.expected)

/-- Refuses a list that is longer than the structure that it gives. -/
def checkLength (dialect : Dialect) (layout : Layout) : Document → Reading Unit
  | .list items =>
    if dialect.strictLength && layout.fields.length < items.length then
      .error (.tooManyItems items.length)
    else .ok ()
  | _ => .ok ()

/-- Reads a structure: the entries change a draft one after another, and the finished draft becomes
the structure. -/
def readStruct {δ α : Type} (dialect : Dialect) (layout : Layout) (draft : δ)
    (entry : δ → String → Document → Reading δ)
    (finish : (String → DecodeFault) → δ → Reading α) (document : Document) : Reading α := do
  let (entries, missing) ← readEntries layout document
  let draft ← entries.foldlM (fun draft e => entry draft e.1 e.2) draft
  let value ← finish missing draft
  checkLength dialect layout document
  return value

/-- A field that must be given. -/
def require {α : Type} (missing : String → DecodeFault) (name : String) :
    Option α → Reading α
  | some value => .ok value
  | none => .error (missing name)

def listenerLayout : Layout := ⟨"ListenerConfig", ["bind_address"]⟩

def backendLayout : Layout :=
  ⟨"BackendConfig", ["address", "path", "method", "is_collection", "max_response_bytes"]⟩

def endpointLayout : Layout :=
  ⟨"EndpointConfig", ["endpoint", "method", "timeout_ms", "cache_ttl_secs", "query_string",
    "headers_to_pass", "backend"]⟩

def observabilityLayout : Layout :=
  ⟨"ObservabilityConfig", ["log_level", "metrics_enabled", "metrics_address"]⟩

def securityLayout : Layout := ⟨"SecurityConfig", ["max_body_size"]⟩

def configLayout : Layout :=
  ⟨"GatewayConfig", ["listener", "endpoints", "observability", "security"]⟩

/-- Reads the listener. -/
def readListener (dialect : Dialect) : Document → Reading Listener :=
  readStruct dialect listenerLayout {} (fun draft name value =>
    match name with
    | "bind_address" => return { draft with bindAddress := ← readText value }
    | _ => return draft) (fun _ draft => .ok draft)

/-- A backend some of whose fields are still to be read. -/
structure BackendDraft where
  address : Option String := none
  path : Option String := none
  rest : Backend := { address := "", path := "" }

/-- Reads a backend. -/
def readBackend (dialect : Dialect) : Document → Reading Backend :=
  readStruct dialect backendLayout ({} : BackendDraft) (fun draft name value =>
    match name with
    | "address" => return { draft with address := some (← readText value) }
    | "path" => return { draft with path := some (← readText value) }
    | "method" => return { draft with rest.method := ← readText value }
    | "is_collection" => return { draft with rest.isCollection := ← readBool value }
    | "max_response_bytes" =>
      return { draft with rest.maxResponseBytes := ← readNat "usize" value }
    | _ => return draft) (fun missing draft => do
      let address ← require missing "address" draft.address
      let path ← require missing "path" draft.path
      return { draft.rest with address := address, path := path })

/-- An endpoint whose path may still be to be read. -/
structure EndpointDraft where
  endpoint : Option String := none
  rest : Endpoint := { endpoint := "" }

/-- Reads an endpoint. -/
def readEndpoint (dialect : Dialect) : Document → Reading Endpoint :=
  readStruct dialect endpointLayout ({} : EndpointDraft) (fun draft name value =>
    match name with
    | "endpoint" => return { draft with endpoint := some (← readText value) }
    | "method" => return { draft with rest.method := ← readText value }
    | "timeout_ms" => return { draft with rest.timeoutMs := ← readNat "u64" value }
    | "cache_ttl_secs" => return { draft with rest.cacheTtlSecs := ← readNat "u64" value }
    | "query_string" => return { draft with rest.queryString := ← readList readText value }
    | "headers_to_pass" => return { draft with rest.headersToPass := ← readList readText value }
    | "backend" => return { draft with rest.backend := ← readOption (readBackend dialect) value }
    | _ => return draft) (fun missing draft => do
      let endpoint ← require missing "endpoint" draft.endpoint
      return { draft.rest with endpoint := endpoint })

/-- Reads what the gateway reports. -/
def readObservability (dialect : Dialect) : Document → Reading Observability :=
  readStruct dialect observabilityLayout {} (fun draft name value =>
    match name with
    | "log_level" => return { draft with logLevel := ← readText value }
    | "metrics_enabled" => return { draft with metricsEnabled := ← readBool value }
    | "metrics_address" => return { draft with metricsAddress := ← readText value }
    | _ => return draft) (fun _ draft => .ok draft)

/-- Reads the limits. -/
def readSecurity (dialect : Dialect) : Document → Reading Security :=
  readStruct dialect securityLayout {} (fun draft name value =>
    match name with
    | "max_body_size" => return { draft with maxBodySize := ← readNat "usize" value }
    | _ => return draft) (fun _ draft => .ok draft)

/-- Reads a configuration. -/
def ofDocument (dialect : Dialect) : Document → Reading Config :=
  readStruct dialect configLayout {} (fun draft name value =>
    match name with
    | "listener" => return { draft with listener := ← readListener dialect value }
    | "endpoints" => return { draft with endpoints := ← readList (readEndpoint dialect) value }
    | "observability" => return { draft with observability := ← readObservability dialect value }
    | "security" => return { draft with security := ← readSecurity dialect value }
    | _ => return draft) (fun _ draft => .ok draft)

/-! ### JSON documents -/

/-- JSON reports numbers as JSON writes them, and does not let surplus items pass. -/
def jsonDialect : Dialect := ⟨Decimal.scientific, true⟩

/-- Reads a configuration from a JSON value; a refusal is given as its wording. -/
def ofJson (value : Json) : Except String Config :=
  (ofDocument jsonDialect (Document.ofJson value)).mapError (DecodeFault.message jsonDialect)

/-- Reads a backend from a JSON value; a refusal is given as its wording. -/
def Backend.ofJson (value : Json) : Except String Backend :=
  (readBackend jsonDialect (Document.ofJson value)).mapError (DecodeFault.message jsonDialect)

end Gateway.Config
