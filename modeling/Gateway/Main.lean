/-
Module: Gateway.Main
Layer: Launch
Purpose: The command line.
Main exports: main
-/
import Gateway.Launch

/-!
The outer layer reads the file and the environment that a launch finds, and writes down how the
launch went.  It opens no sockets: every address counts as free, no backend server can be reached,
and the signal to stop comes as soon as the gateway serves.
-/

open Gateway

/-- What stands at a path. -/
def readFile (path : String) : IO Config.FileContent := do
  try
    let content ← IO.FS.readBinFile path
    return .bytes content.toList
  catch fault =>
    match fault with
    | .noFileOrDirectory .. => return .missing
    | _ => return .directory

/-- The path of the configuration that the arguments name. -/
def configPath? (arguments : List String) : Option String :=
  match CommandLine.parse arguments with
  | .ok (.serve path) => path
  | _ => none

/-- Launches the gateway. -/
def main (arguments : List String) : IO UInt32 := do
  let content ←
    match configPath? arguments with
    | some path => readFile path
    | none => pure .missing
  let environment : Launch.Environment := {
    fileAt := fun _ => content
    taken := []
    freePortNumber := 8080
    network := .empty
    logFilter := ← IO.getEnv "RUST_LOG" }
  let report := Launch.run environment arguments
  for line in report.output do
    IO.println line
  IO.eprint report.errors
  return UInt32.ofNat report.exitCode
