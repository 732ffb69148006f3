import FleetEnergy.Scenario

/-! The command line: it names the configuration of one scenario, which is run. -/
namespace FleetEnergy
set_option autoImplicit false

namespace CommandLine

/-! ## Arguments -/

/-- What the arguments ask for. -/
inductive Request
  | run (config : String)
  | help
  | version
  | misuse
deriving DecidableEq, Repr

/-- An option that is already given cannot be given again. -/
def firstValue (given : Option String) (value : String) : Option String :=
  if given.isNone then some value else none

/-- What follows the options. -/
def requested (given : Option String) : Request := given.elim .misuse .run

/-- An argument that can be the value of an option: it does not look like an option itself. -/
def isValue (argument : String) : Bool := argument.toList.head? != some '-' || argument == "-"

/-- A long option and its value, if one is attached. -/
def splitLong (argument : String) : String × Option String :=
  let cs := argument.toList
  let name := cs.takeWhile (· != '=')
  match cs.dropWhile (· != '=') with
  | [] => (argument, none)
  | _ :: value => (String.ofList name, some (String.ofList value))

/-- How one argument is understood. -/
inductive Token
  /-- The option for the path, with its value if it is attached. -/
  | path (value : Option String)
  | help
  | version
  /-- The end of the options. -/
  | ending
  | unknown

def token (argument : String) : Token :=
  match argument.toList with
  | ['-', '-'] => .ending
  | '-' :: '-' :: _ =>
    match splitLong argument with
    | ("--config-path", value) => .path value
    | ("--help", none) => .help
    | ("--version", none) => .version
    | _ => .unknown
  | ['-', 'c'] => .path none
  | '-' :: 'c' :: '=' :: r => .path (some (String.ofList r))
  | '-' :: 'c' :: r => .path (some (String.ofList r))
  | '-' :: 'h' :: _ => .help
  | '-' :: 'V' :: _ => .version
  | _ => .unknown

/-- Reads arguments from left to right; the first that settles the request counts. -/
def parseFrom (given : Option String) : List String → Request
  | [] => requested given
  | a :: r =>
    match token a, r with
    | .help, _ => .help
    | .version, _ => .version
    | .unknown, _ => .misuse
    | .ending, r => if r.isEmpty then requested given else .misuse
    | .path (some value), r =>
      match firstValue given value with
      | some value => parseFrom (some value) r
      | none => .misuse
    | .path none, [] => .misuse
    | .path none, value :: r =>
      if isValue value then
        match firstValue given value with
        | some value => parseFrom (some value) r
        | none => .misuse
      else .misuse

def parse (arguments : List String) : Request := parseFrom none arguments

/-! ## Runs -/

/-- How the program ends. -/
structure Outcome where
  exitCode : UInt8
  stdout : String
  stderr : String

def usage : String := "Usage: local_ev_sim --config-path <CONFIG_PATH>\n"

def success : Outcome := ⟨0, "", ""⟩

/-- A message of a fault with the end of its line; one that ends before its cause stays as it is. -/
def errorText (f : Scenario.Fault) : String :=
  match f with
  | .config (.malformed _) | .attributes (.malformed ..) => f.message
  | _ => f.message ++ "\n"

def failure (f : Scenario.Fault) : Outcome :=
  ⟨if f.isUnforeseen then 101 else 1, "", errorText f⟩

def startedNotice (config : String) : Notice :=
  .info ("Started with args: "
    ++ Text.record "CommandLineArgs" [("config_path", Text.quoted config)])

variable {m : Type → Type} [Monad m] [Host m]

/-- Runs a scenario, with a log file in its output directory if its configuration asks for one. -/
def runLogged (path : String) (c : Config) : m Outcome := do
  let directory := Scenario.outputDirectory c
  let opened ← if c.output.1.logging = .info then Host.openLog (File.Path.join directory "log.txt")
    else pure (.ok ())
  match opened with
  | .error e => return ⟨101, "", e.message ++ "\n"⟩
  | .ok () =>
    Host.note (startedNotice path)
    let result ← Scenario.run c
    Host.closeLog
    match result with
    | .ok _ => return success
    | .error f => return failure f

def runPath (path : String) : m Outcome := do
  match ← Config.read path with
  | .error e => return failure (.config e)
  | .ok c =>
    match ← Host.makeDirectories (Scenario.outputDirectory c) with
    | .error e => return failure (Scenario.unwritable e)
    | .ok () => runLogged path c

def run (arguments : List String) : m Outcome :=
  match parse arguments with
  | .run path => runPath path
  | .help => return ⟨0, usage, ""⟩
  | .version => return ⟨0, "rust_ev_sim 0.1.0\n", ""⟩
  | .misuse => return ⟨2, "", usage⟩

end CommandLine

end FleetEnergy
