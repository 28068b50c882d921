import Cadence.Encode
import Cadence.Scenario.Document
import Cadence.Scenario.Install
import Cadence.Simulation.Tick
import Cadence.Timeline
/-!
The command line: it runs a scenario file tick by tick and prints what every tick produced.
-/

namespace Cadence.CommandLine

structure Options where
  path : Option String := none
  ticks : Nat := 50
  asJson : Bool := false
  keepGoing : Bool := false
  verbose : Bool := false
  maxRounds : Option Nat := none
  maxSteps : Option Nat := none

inductive Request where
  | help
  | version
  | run (options : Options)

def number? (text : String) : Option Nat :=
  let digits :=
    match text.toList with
    | '+' :: rest => rest
    | all => all
  if digits.isEmpty || !digits.all Char.isDigit then none
  else
    let value := Nat.ofDigitChars 10 digits 0
    if value < UInt64.size then some value else none

def readNumber (flag : String) : List String → Except String (Nat × List String)
  | [] => .error s!"{flag} requires a number argument"
  | text :: rest =>
    match number? text with
    | some value => .ok (value, rest)
    | none => .error s!"Invalid {flag} value: {text}"

def readWord (word : String) (options : Options) : Except String Options :=
  if word.startsWith "-" then .error s!"Unknown option: {word}"
  else if options.path.isSome then .error s!"Unexpected argument: {word}"
  else .ok { options with path := some word }

/-- Reads arguments from left to right; `fuel` bounds their number. -/
def readArgs : Nat → List String → Options → Except String Request
  | 0, _, options => .ok (.run options)
  | _, [], options => .ok (.run options)
  | fuel + 1, word :: rest, options => do
    match word with
    | "--help" | "-h" => return .help
    | "--version" | "-V" => return .version
    | "--json" => readArgs fuel rest { options with asJson := true }
    | "--keep-going" => readArgs fuel rest { options with keepGoing := true }
    | "--verbose" | "-v" => readArgs fuel rest { options with verbose := true }
    | "--ticks" =>
      let (ticks, rest) ← readNumber word rest
      readArgs fuel rest { options with ticks }
    | "--max-rounds" =>
      let (rounds, rest) ← readNumber word rest
      readArgs fuel rest { options with maxRounds := some rounds }
    | "--max-steps" =>
      let (steps, rest) ← readNumber word rest
      readArgs fuel rest { options with maxSteps := some steps }
    | _ => readArgs fuel rest (← readWord word options)

def parse (args : List String) : Except String Request :=
  readArgs args.length args {}

def path? (args : List String) : Option String :=
  match parse args with
  | .ok (.run options) => options.path
  | _ => none

def name : String := "TickFlow"

def versionNumber : String := "0.1.0"

def usage : String :=
  "Usage: tickflow [OPTIONS] <SCENARIO_FILE>\n\n"
    ++ "Arguments:\n"
    ++ "  <SCENARIO_FILE>     Path to scenario YAML file\n\n"
    ++ "Options:\n"
    ++ "  --ticks N           Maximum ticks to run (default: 50)\n"
    ++ "  --json              Print each tick as a JSON document\n"
    ++ "  --keep-going        Keep ticking after the runtime goes idle\n"
    ++ "  --max-rounds N      Override rounds allowed per tick\n"
    ++ "  --max-steps N       Override steps allowed per flow activation\n"
    ++ "  --verbose           Enable debug logging\n"
    ++ "  --help              Show this help message\n"
    ++ "  --version           Show version information\n\n"
    ++ "Examples:\n"
    ++ "  tickflow checkout.yaml\n"
    ++ "  tickflow checkout.yaml --json > trace.jsonl\n"
    ++ "  tickflow checkout.yaml --ticks 200 --keep-going\n"

inductive Style where
  | bold
  | cyanBold
  | greenBold
  | green
  | yellow
  | dimmed

def Style.code : Style → String
  | bold => "1"
  | cyanBold => "1;36"
  | greenBold => "1;32"
  | green => "32"
  | yellow => "33"
  | dimmed => "2"

def paint (color : Bool) (style : Style) (text : String) : String :=
  if color then "\x1b[" ++ style.code ++ "m" ++ text ++ "\x1b[0m" else text

def padRight (n : Nat) (text : String) : String :=
  String.ofList (Timeline.padRight n text.toList)

def padLeft (n : Nat) (text : String) : String :=
  String.ofList (List.replicate (n - text.length) ' ') ++ text

def banner (color : Bool) : String :=
  "\n" ++ paint color .bold name ++ " v" ++ versionNumber
    ++ "\nDeterministic Flow Execution Engine\n\n"

def flowPrefix (id : FlowId) (flowName : String) : String :=
  "  #" ++ padRight 4 (toString id) ++ " " ++ padRight 24 flowName ++ " "

def responseLabel (response : Response) : String :=
  response.traffic.label ++ (if response.isAutoPop then "*" else "")

def reportLines (color : Bool) : Report → List String
  | .yielded id flowName responses =>
    [flowPrefix id flowName ++ " ".intercalate (responses.map responseLabel)]
  | .constructed id flowName value cancelled =>
    (flowPrefix id flowName ++ paint color .green "completed" ++ " " ++ value.compact)
      :: cancelled.map fun flow =>
        flowPrefix flow.id flow.name ++ paint color .yellow "cancelled"

def tickLines (color : Bool) (report : TickReport) (held : List TickReport) : List String :=
  let heading := "tick " ++ padLeft 4 (toString report.tick)
  if report.isEmpty && held.all TickReport.isEmpty then
    [paint color .dimmed (heading ++ " | idle")]
  else
    paint color .cyanBold heading
      :: (report :: held).flatMap fun r => r.reports.flatMap (reportLines color)

def jsonLines (report : TickReport) (held : List TickReport) : List String :=
  (report :: held).map fun r => r.encode.compact

structure Output where
  exitCode : Nat := 0
  stdout : String := ""
  stderr : String := ""

def fail (stdout stderr message : String) : Output where
  exitCode := 1
  stdout := stdout
  stderr := stderr ++ "\nError: " ++ message ++ "\n"

def warn (warnings : List Warning) : String :=
  String.join (warnings.map fun warning => s!"[WARN] {warning.message}\n")

structure Ticks where
  lines : List String
  simulation : Simulation Scenario.Invocation
  failure : Option EngineError := none

/-- Runs a number of ticks, or fewer if the simulation goes idle and should not be kept going. -/
def runTicks (options : Options) (color : Bool) :
    Nat → List String → Simulation Scenario.Invocation → Ticks
  | 0, lines, simulation => { lines := lines, simulation := simulation }
  | remaining + 1, lines, simulation =>
    match Simulation.tick simulation with
    | .error e simulation => { lines, simulation, failure := some e }
    | .ok report simulation =>
      let (held, simulation) := simulation.flush
      let printed := if options.asJson then jsonLines report held else tickLines color report held
      let lines := printed.reverse ++ lines
      if simulation.isIdle && !options.keepGoing then
        { lines := lines, simulation := simulation }
      else runTicks options color remaining lines simulation

def loadError (path : String) (content : Except String String) :
    Except (String × List Warning) Scenario := do
  match content with
  | .error e =>
    let advice := "Check that the file exists and is readable."
    throw (s!"Failed to read scenario file '{path}': {e}. {advice}", [])
  | .ok text =>
    match Scenario.parse? text with
    | none =>
      let advice := "Check the file format."
      throw (s!"Failed to parse scenario YAML: the document has no scenario. {advice}", [])
    | some scenario =>
      if scenario.isValid then return scenario
      else throw (scenario.errorText, scenario.warnings)

def limitsFor (options : Options) (scenario : Scenario) : Limits :=
  let limits := scenario.limits.getD {}
  { rounds := options.maxRounds.getD limits.rounds, steps := options.maxSteps.getD limits.steps }

def summary (color : Bool) (simulation : Simulation Scenario.Invocation) : String :=
  let entities := simulation.entities
  (Timeline.ofEntities entities).chart ++ paint color .greenBold "Done:"
    ++ s!" {entities.completed.length} completed, {entities.cancelled.length} cancelled\n"

def runScenario (options : Options) (color : Bool) (scenario : Scenario) : Output :=
  let banner := if options.asJson then "" else banner color
  let installed := scenario.install id (.withLimits (limitsFor options scenario))
  let stderr := warn (scenario.warnings ++ installed.warnings)
  match installed.failure with
  | some e => fail banner stderr e.message
  | none =>
    let ticks := runTicks options color options.ticks [] installed.simulation
    let stdout := banner ++ String.join (ticks.lines.reverse.map (· ++ "\n"))
    match ticks.failure with
    | some e => fail stdout stderr e.message
    | none =>
      let entities := ticks.simulation.entities
      let stopped :=
        if ticks.simulation.isIdle then []
        else [.stoppedEarly entities.active.length entities.suspended.length]
      { stdout := stdout ++ (if options.asJson then "" else summary color ticks.simulation),
        stderr := stderr ++ warn stopped }

def run (args : List String) (color : Bool) (content : Except String String) : Output :=
  match parse args with
  | .error e => fail usage s!"Error: {e}\n\n" e
  | .ok .help => { stdout := usage }
  | .ok .version => { stdout := name ++ " " ++ versionNumber ++ "\n" }
  | .ok (.run options) =>
    match options.path with
    | none => fail usage "" "no scenario file given"
    | some path =>
      match loadError path content with
      | .ok scenario => runScenario options color scenario
      | .error (e, warnings) =>
        let stdout := if options.asJson then "" else banner color
        fail stdout (warn warnings ++ s!"[ERROR] Failed to load scenario: {e}\n")
          s!"Could not load scenario from '{path}': {e}"

end Cadence.CommandLine
