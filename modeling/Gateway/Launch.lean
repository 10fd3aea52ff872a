/-
Module: Gateway.Launch
Layer: Launch
Purpose: What the program says and how it ends, from its arguments to its shutdown.
Main exports: Launch.Environment, Launch.Report, Launch.run
-/
import Gateway.Backend
import Gateway.CommandLine
import Gateway.Config.Loading
import Gateway.Log.Filter
import Gateway.Server

namespace Gateway.Launch

/-!
A launch reads the arguments and the configuration, reports where it listens for metrics, builds the
server, and binds the listener; then it serves until it is told to stop.  Faults of the arguments
end it with status 2, all others with status 1.  Metrics are no condition for serving: a fault of
theirs is reported, and that is all.
-/

/-- What a launch finds around it. -/
structure Environment where
  /-- What stands at a path. -/
  fileAt : String → Config.FileContent
  /-- Addresses that others listen on. -/
  taken : List SocketAddress
  /-- The number that an address gets if it asks for any that is free. -/
  freePortNumber : Nat
  /-- The servers behind the endpoints. -/
  network : Backend.Network
  /-- The log filter that goes before the configured level. -/
  logFilter : Option String

/-- How a launch went. -/
structure Report where
  exitCode : Nat
  /-- Whether it came to serving. -/
  served : Bool
  output : List String
  errors : String
deriving Repr, DecidableEq

/-! ### Faults as they are shown -/

/-- A structure with named texts. -/
def showFields (name : String) (fields : List (String × String)) : String :=
  name ++ " \x7b "
    ++ ", ".intercalate (fields.map fun f => f.1 ++ ": " ++ Quoted.quote f.2) ++ " \x7d"

/-- A structure with one text. -/
def showText (name text : String) : String :=
  name ++ "(" ++ Quoted.quote text ++ ")"

/-- A violation with all that it holds. -/
def showViolation (v : Config.Violation) : String :=
  match v with
  | .bindAddress address => showText v.kind address
  | .endpointPath endpoint => showText v.kind endpoint
  | .routePattern endpoint fault =>
    showFields v.kind [("endpoint", endpoint), ("reason", fault.message)]
  | .duplicateEndpoint endpoint => showText v.kind endpoint
  | .conflictingEndpoint endpoint existing =>
    showFields v.kind [("endpoint", endpoint), ("existing", existing)]
  | .method endpoint method => showFields v.kind [("endpoint", endpoint), ("method", method)]
  | .emptyQueryParam endpoint => showText v.kind endpoint
  | .headerName endpoint header => showFields v.kind [("endpoint", endpoint), ("header", header)]
  | .backend endpoint fault =>
    showFields v.kind [("endpoint", endpoint), ("reason", fault.message)]

/-- A list of violations. -/
def showViolations (violations : List Config.Violation) : String :=
  "Validation([" ++ ", ".intercalate (violations.map showViolation) ++ "])"

/-- A fault of the system. -/
def showSystemFault (code : Nat) (kind message : String) : String :=
  "Os \x7b code: " ++ toString code ++ ", kind: " ++ kind ++ ", message: " ++ Quoted.quote message
    ++ " \x7d"

/-- A fault of a file. -/
def showFileFault (fault : Config.FileFault) : String :=
  match fault.code? with
  | some code => showSystemFault code fault.kind fault.reason
  | none =>
    "Error \x7b kind: " ++ fault.kind ++ ", message: " ++ Quoted.quote fault.reason ++ " \x7d"

/-- A fault of loading a configuration. -/
def showLoadFault (fault : Config.LoadFault) : String :=
  match fault with
  | .file fault => "Io(" ++ showFileFault fault ++ ")"
  | .invalid violations => showViolations violations
  | _ => showText "Parse" fault.message

/-- A launch that failed with a status; `shown` is the fault. -/
def failedWith (output : List String) (shown : String) : Report :=
  ⟨1, false, output, "Error: " ++ shown ++ "\n"⟩

/-! ### Addresses -/

/-- What the system says of an address that others listen on. -/
def addressInUse : String := "Address already in use"

/-- Whether an IP stands for every address of its version. -/
def isEveryAddress : IpAddress → Bool
  | .v4 octets => octets.all (· == 0)
  | .v6 groups _ => groups.all (· == 0)

/-- Whether two addresses are of one version. -/
def sameVersion : IpAddress → IpAddress → Bool
  | .v4 _, .v4 _ => true
  | .v6 .., .v6 .. => true
  | _, _ => false

/-- Whether nobody can listen on an address while someone listens on the other. -/
def exclude (a b : SocketAddress) : Bool :=
  a.portNumber == b.portNumber && a.portNumber != 0
    && (a.ip == b.ip || (sameVersion a.ip b.ip && (isEveryAddress a.ip || isEveryAddress b.ip)))

/-- The address at which one listens who asks for an address, unless it is taken. -/
def bind? (env : Environment) (taken : List SocketAddress) (address : SocketAddress) :
    Option SocketAddress :=
  if taken.any (exclude address) then none
  else some (if address.portNumber = 0 then { address with portNumber := env.freePortNumber }
    else address)

/-! ### Records -/

/-- A record of the program itself. -/
def record (level : Log.Level) (message : String) (fields : List (String × String)) : Log.Record :=
  { level, message, fields, target := "edge_gateway" }

/-- The first record. -/
def starting (config : Config) : Log.Record :=
  record .info "edge-gateway starting"
    [("version", Quoted.quote Endpoint.version),
     ("bind_address", config.listener.bindAddress),
     ("endpoints", toString config.endpoints.length)]

/-- What is told of the metrics, and the addresses taken after that. -/
def metrics (env : Environment) (config : Config) : List Log.Record × List SocketAddress :=
  let address := config.observability.metricsAddress
  if !config.observability.metricsEnabled then ([], env.taken)
  else
    match SocketAddress.parse? address with
    | none => ([record .error "Failed to parse metrics address" [("metrics_address", address)]],
        env.taken)
    | some parsed =>
      let target := "edge_gateway::observability::metrics"
      match bind? env env.taken parsed with
      | none => ([{ level := .error, target, message := "Failed to install metrics exporter",
                    fields := [("address", parsed.print),
                      ("error", "failed to create HTTP listener: " ++ addressInUse
                        ++ " (os error 98)")] }], env.taken)
      | some bound => ([{ level := .info, target, message := "Metrics endpoint listening",
                          fields := [("address", parsed.print)] }], bound :: env.taken)

/-- The records of serving at an address until the signal to stop comes. -/
def serving (config : Config) (address : SocketAddress) : List Log.Record :=
  let server := "edge_gateway::http::server"
  [{ level := .info, target := server, message := "HTTP server starting",
     fields := [("address", address.print), ("endpoints", toString config.endpoints.length)] },
   { level := .info, target := "edge_gateway::lifecycle::signals",
     message := "Shutdown signal received", fields := [] },
   { level := .info, target := server, message := "HTTP server stopped", fields := [] },
   record .info "Shutdown complete" []]

/-- The filter for a configured level. -/
def levelFilter (level : String) : String :=
  "edge_gateway=" ++ level ++ ",tower_http=" ++ level

/-- The filter of a launch, with complaints about its directives.  The filter of the environment
goes before the configured level if there is nothing wrong with it. -/
def filterOf (env : Environment) (config : Config) : Log.Filter × List String :=
  match env.logFilter.bind Log.Filter.strict? with
  | some filter => (filter, [])
  | none => Log.Filter.lenient (levelFilter config.observability.logLevel)

/-! ### Launching -/

/-- The lines of the records that a filter shows. -/
def linesOf (filter : Log.Filter) (records : List Log.Record) : List String :=
  (records.filter fun r => filter.passes r).flatMap fun r =>
    (splitOn '\n' r.line.toList).map String.ofList

/-- Serves a configuration. -/
def serve (env : Environment) (config : Config) : Report :=
  let (filter, complaints) := filterOf env config
  let complain (report : Report) : Report :=
    { report with errors := String.join (complaints.map (· ++ "\n")) ++ report.errors }
  let (metricsRecords, taken) := metrics env config
  let opening := starting config :: metricsRecords
  complain <|
    match Server.build config (Backend.pipelineOf env.network) with
    | .error (.invalid violations) =>
      failedWith (linesOf filter opening) (showViolations violations)
    | .error (.route _) =>
      { failedWith (linesOf filter (opening ++ Server.registrations config)) "Route"
        with exitCode := 101 }
    | .ok server =>
      let before := opening ++ Server.registrations server.config
      match (SocketAddress.parse? config.listener.bindAddress).bind (bind? env taken) with
      | none => failedWith (linesOf filter before) (showSystemFault 98 "AddrInUse" addressInUse)
      | some address => ⟨0, true, linesOf filter (before ++ serving config address), ""⟩

/-- Launches the program. -/
def run (env : Environment) (arguments : List String) : Report :=
  match CommandLine.parse arguments with
  | .error fault => ⟨2, false, [], fault.message⟩
  | .ok .help => ⟨0, false, CommandLine.help, ""⟩
  | .ok (.serve none) => serve env {}
  | .ok (.serve (some path)) =>
    match Config.load (env.fileAt path) with
    | .error fault => failedWith [] (showLoadFault fault)
    | .ok config => serve env config

end Gateway.Launch
