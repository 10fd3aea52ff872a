/-
Module: Gateway.Log
Layer: Observability
Purpose: Log records.
Main exports: Log.Level, Log.Record, Log.Record.line
-/
namespace Gateway.Log

/-- How serious a record is. -/
inductive Level where
  | error
  | warn
  | info
  | debug
  | trace
deriving Repr, DecidableEq, Inhabited

/-- The name of a level. -/
def Level.name : Level → String
  | .error => "ERROR"
  | .warn => "WARN"
  | .info => "INFO"
  | .debug => "DEBUG"
  | .trace => "TRACE"

/-- How much a level lets through: more for the less serious ones. -/
def Level.verbosity : Level → Nat
  | .error => 1
  | .warn => 2
  | .info => 3
  | .debug => 4
  | .trace => 5

/-- Something worth telling, by the part of the gateway that tells it. -/
structure Record where
  level : Level
  /-- The part of the gateway that writes the record. -/
  target : String
  message : String
  fields : List (String × String)
deriving Repr, DecidableEq

/-- A record as one line of text. -/
def Record.line (record : Record) : String :=
  record.level.name ++ " " ++ record.target ++ ": " ++ record.message
    ++ String.join (record.fields.map fun f => " " ++ f.1 ++ "=" ++ f.2)

end Gateway.Log
