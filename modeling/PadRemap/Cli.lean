import PadRemap.Discovery.Opener
import PadRemap.Manager.Run
import PadRemap.Json

/-! The command line: usage, a list of the pads found, and the daemon. -/

namespace PadRemap.Cli

structure Request where
  config : Option String := none
  list : Bool := false
  json : Bool := false
  deriving DecidableEq, Repr

inductive UsageError where
  | unknownOption (option : String)
  | severalConfigs
  deriving DecidableEq, Repr

def UsageError.message : UsageError → String
  | unknownOption option => s!"unknown option: {option}"
  | severalConfigs => "only one configuration file may be given"

def parse : List String → Request → Except UsageError (Option Request)
  | [], r => .ok (some r)
  | arg :: args, r =>
    match arg with
    | "-h" | "--help" => .ok none
    | "-l" | "--list" => parse args { r with list := true }
    | "--json" => parse args { r with json := true }
    | _ =>
      if arg.startsWith "-" then .error (.unknownOption arg)
      else if r.config.isSome then .error .severalConfigs
      else parse args { r with config := some arg }

structure Outcome where
  code : UInt32 := 0
  stdout : String := ""
  stderr : String := ""
  log : List String := []
  deriving DecidableEq, Repr

def failure (message : String) : Outcome := { code := 1, stderr := s!"Error: {message}" }

def lines (ls : List String) : String := String.join (ls.map fun l => l ++ "\n")

def usage : String := lines
  ["Usage: padrelay [CONFIG]",
    "       padrelay --list [--json]",
    "",
    "Options:",
    "  -l, --list    list detected controllers and exit",
    "      --json    print the list as JSON",
    "  -h, --help    show this help"]

def banner (deviceName : String) : String := lines
  ["=== padrelay ===",
    "",
    "Controllers bound to a slot are grabbed and replaced by virtual devices",
    s!"named \"{deviceName}\".",
    "Press Ctrl+C to stop",
    ""]

def Request.path (r : Request) : String := r.config.getD "configs/default.toml"

/-- The scanners that the settings enable; without hardware the kernel offers no device. -/
def scanners (s : Settings) : List Discovery.Scanner :=
  (if s.scanEvdev then [.found []] else []) ++
    (if s.replay.isEmpty then [] else [.ofReplays s.replay])

def devices (s : Settings) : List Identity := Discovery.Scanner.together (scanners s)

def listing (ds : List Identity) : String :=
  if ds.isEmpty then lines ["No controllers found"]
  else lines (ds.mapIdx fun i d => Numeral.padLeft ' ' 2 (toString i) ++ s!": {d}")

def listingJson (ds : List Identity) : String :=
  lines [Json.pretty 0 (.list (ds.map fun d => .table d.fields))]

def backend : Backend := .absent OpenFault.missing.message

def opener (files : Discovery.FileReader) : Opener := fun d =>
  match Discovery.openFrames files d with
  | .ok _ => none
  | .error e => some e

def daemon (files : Discovery.FileReader) (c : Config) : Outcome :=
  let start := banner c.settings.deviceName
  match Manager.ofConfig backend c with
  | .error _ => { failure "Failed to set up virtual devices" with stdout := start }
  | .ok m =>
    let (_, reports) := m.run backend (opener files) [.found (devices c.settings)]
    { stdout := start ++ lines ["Stopped"], log := reports.map Report.text }

def answer (files : Discovery.FileReader) (r : Request) : Outcome :=
  match Config.load (files r.path) with
  | .error _ => failure s!"Failed to load {r.path}"
  | .ok c =>
    if r.list then
      let ds := devices c.settings
      { stdout := if r.json then listingJson ds else listing ds }
    else daemon files c

def run (files : Discovery.FileReader) (args : List String) : Outcome :=
  match parse args {} with
  | .error e => failure e.message
  | .ok none => { stdout := usage }
  | .ok (some r) => answer files r

end PadRemap.Cli
