/-
Module: Gateway.Config.Loading
Layer: Config
Purpose: From the text or the bytes of a configuration file to a valid configuration.
Main exports: Config.LoadFault, Config.LoadFault.message, Config.parse, Config.load
-/
import Gateway.Config.Decoding
import Gateway.Config.Validation
import Gateway.Toml.Reader
import Gateway.Text.Utf8

namespace Gateway.Config

/-- Why a file could not be read. -/
inductive FileFault where
  | notFound
  | isDirectory
  | notText
deriving Repr, DecidableEq

/-- The kind of a fault. -/
def FileFault.kind : FileFault → String
  | .notFound => "NotFound"
  | .isDirectory => "IsADirectory"
  | .notText => "InvalidData"

/-- What the system says about a fault. -/
def FileFault.reason : FileFault → String
  | .notFound => "No such file or directory"
  | .isDirectory => "Is a directory"
  | .notText => "stream did not contain valid UTF-8"

/-- The number that the system gives a fault; text that cannot be decoded is none of its faults. -/
def FileFault.code? : FileFault → Option Nat
  | .notFound => some 2
  | .isDirectory => some 21
  | .notText => none

/-- The wording of a fault. -/
def FileFault.message (fault : FileFault) : String :=
  match fault.code? with
  | some code => fault.reason ++ " (os error " ++ toString code ++ ")"
  | none => fault.reason

/-- Why there is no configuration. -/
inductive LoadFault where
  | file (fault : FileFault)
  | malformed
  | shape (fault : DecodeFault)
  | invalid (violations : List Violation)
deriving Repr, DecidableEq

/-- TOML reports numbers without exponents, and lets surplus items of a list pass. -/
def tomlDialect : Dialect := ⟨Decimal.positional, false⟩

/-- The wording of all violations together. -/
def invalidMessage (violations : List Violation) : String :=
  "Validation failed: " ++ ", ".intercalate (violations.map Violation.message)

/-- The wording of a fault. -/
def LoadFault.message : LoadFault → String
  | .file fault => "IO error: " ++ fault.message
  | .malformed => "Parse error: not a TOML document"
  | .shape fault => "Parse error: " ++ fault.message tomlDialect
  | .invalid violations => invalidMessage violations

/-- Reads a text and checks what it holds. -/
def parse (text : String) : Except LoadFault Config :=
  match Toml.read? text with
  | none => .error .malformed
  | some document =>
    match ofDocument tomlDialect document with
    | .error fault => .error (.shape fault)
    | .ok config =>
      match config.validate with
      | .error violations => .error (.invalid violations)
      | .ok () => .ok config

/-- What stands at a path. -/
inductive FileContent where
  | missing
  | directory
  | bytes (content : List UInt8)
deriving Repr, DecidableEq

/-- Reads a file and checks what it holds. -/
def load : FileContent → Except LoadFault Config
  | .missing => .error (.file .notFound)
  | .directory => .error (.file .isDirectory)
  | .bytes content =>
    match Utf8.decode? content with
    | none => .error (.file .notText)
    | some text => parse text

end Gateway.Config
