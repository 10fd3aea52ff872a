/-
Module: Gateway.CommandLine
Layer: Launch
Purpose: The arguments of the program.
Main exports: CommandLine.Request, CommandLine.Fault, CommandLine.Fault.message,
  CommandLine.parse, CommandLine.help
-/
import Gateway.Text.Similarity
import Gateway.Text.Split

namespace Gateway.CommandLine

/-!
There is one option, the path of the configuration, with a long and a short name; its value follows
after a blank or an equals sign, or, after the short name, at once.  A word that opens with a hyphen
is never the value of an option in front of it, a lone hyphen apart.  Arguments are read from the
left, and the first fault or plea for help ends the reading.
-/

/-- What the arguments ask for. -/
inductive Request where
  | help
  | serve (configPath : Option String)
deriving Repr, DecidableEq

/-- What is wrong with the arguments. -/
inductive Fault where
  /-- An argument that is not known, with the name of a similar option, if there is one; the flag
  tells whether the path of the configuration came before it. -/
  | unexpected (argument : String) (similar : Option String) (configGiven : Bool)
  | unexpectedValue (value : String)
  | missingValue
  | repeated
deriving Repr, DecidableEq

/-- The name of the program. -/
def programName : String := "edge-gateway"

/-- The option for the configuration, with its value. -/
def configUsage : String := "--config <CONFIG>"

/-- How the program is called. -/
def usage (options : String) : String :=
  "Usage: " ++ programName ++ " " ++ options

/-- The usage that names all options. -/
def fullUsage : String :=
  usage "[OPTIONS]"

/-- The text of the help. -/
def help : List String :=
  ["HTTP gateway serving configured endpoints through backend pipelines",
   "",
   fullUsage,
   "",
   "Options:",
   "  -c, --config <CONFIG>  Path to the TOML configuration file",
   "  -h, --help             Print help"]

/-- The usage shown beside an argument that is not known. -/
def usageBeside (similar : Option String) (configGiven : Bool) : String :=
  if configGiven || similar == some "config" then usage configUsage
  else
    match similar with
    | some name => usage ("--" ++ name)
    | none => fullUsage

/-- The paragraphs of a fault's wording. -/
def Fault.paragraphs : Fault → List String
  | .unexpected argument similar configGiven =>
    ["unexpected argument '" ++ argument ++ "' found"]
      ++ (similar.map fun name => "  tip: a similar argument exists: '--" ++ name ++ "'").toList
      ++ [usageBeside similar configGiven]
  | .unexpectedValue value =>
    ["unexpected value '" ++ value ++ "' for '--help' found; no more were expected", fullUsage]
  | .missingValue => ["a value is required for '" ++ configUsage ++ "' but none was supplied"]
  | .repeated => ["the argument '" ++ configUsage ++ "' cannot be used multiple times", fullUsage]

/-- The wording of a fault. -/
def Fault.message (fault : Fault) : String :=
  "error: " ++ "\n\n".intercalate (fault.paragraphs ++ ["For more information, try '--help'.\n"])

/-- The option whose name is like a word; none of the names is like the other. -/
def similarOption (word : String) : Option String :=
  ["help", "config"].find? (Similarity.isClose word)

/-- Whether a word is no value: it opens with a hyphen and goes on. -/
def isFlagLike (word : String) : Bool :=
  word.toList.head? == some '-' && word.length != 1

/-- Takes the value of the option. -/
def setConfig (found : Option String) (value : String) : Except Fault (Option String) :=
  if found.isSome then .error .repeated
  else if value.isEmpty then .error .missingValue
  else .ok (some value)

/-- A value without the equals sign in front of it. -/
def afterEquals : List Char → List Char
  | '=' :: rest => rest
  | text => text

/-- What a word is. -/
inductive Word where
  | terminator
  | long (name : String) (value : Option String)
  | short (letters : List Char)
  | plain
deriving Repr, DecidableEq

/-- Classifies a word. -/
def Word.ofString (word : String) : Word :=
  match word.toList with
  | ['-', '-'] => .terminator
  | '-' :: '-' :: rest =>
    let (name, value) := cutAt '=' rest
    .long (String.ofList name) (value.map String.ofList)
  | '-' :: letter :: rest => .short (letter :: rest)
  | _ => .plain

/-- Reads the arguments; `found` is the path given before them. -/
def parseFrom (found : Option String) : List String → Except Fault Request
  | [] => .ok (.serve found)
  | word :: rest =>
    match Word.ofString word with
    | .terminator =>
      match rest with
      | [] => .ok (.serve found)
      | next :: _ => .error (.unexpected next none false)
    | .plain => .error (.unexpected word none false)
    | .long "help" none => .ok .help
    | .long "help" (some value) => .error (.unexpectedValue value)
    | .long "config" (some value) =>
      match setConfig found value with
      | .error fault => .error fault
      | .ok found => parseFrom found rest
    | .long "config" none => takeNext found rest
    | .long name _ => .error (.unexpected ("--" ++ name) (similarOption name) found.isSome)
    | .short ('h' :: _) => .ok .help
    | .short ['c'] => takeNext found rest
    | .short ('c' :: value) =>
      match setConfig found (String.ofList (afterEquals value)) with
      | .error fault => .error fault
      | .ok found => parseFrom found rest
    | .short (letter :: _) => .error (.unexpected (String.ofList ['-', letter]) none false)
    | .short [] => .error (.unexpected word none false)
where
  /-- Takes the next word as the value of the option. -/
  takeNext (found : Option String) : List String → Except Fault Request
    | [] => .error .missingValue
    | value :: rest =>
      if isFlagLike value then .error .missingValue
      else
        match setConfig found value with
        | .error fault => .error fault
        | .ok found => parseFrom found rest

/-- Reads the arguments. -/
def parse (arguments : List String) : Except Fault Request :=
  parseFrom none arguments

end Gateway.CommandLine
