import MemPort.Simulation.Run
import MemPort.Text.Lines
import MemPort.Toml.Document

/-!
# The command line

What a call of the program asks for, and what comes of it.  Everything but the
reading and writing of files is a function of the arguments and of the text of
the configuration.

Arguments are taken in order, and the first that is wrong, or asks for the help
text or the version, settles the matter.

## Main definitions

* `Options`, `Request` — a call of the program, understood.
* `parseArguments` — the arguments of a call.
* `conclude` — a simulation of a configuration, with the options of the call.
* `report` — what is printed and returned.

## References

`SPEC_FULL.md`, sections 10.4 and 10.7: the flags, and what the program prints.
-/

namespace MemPort

namespace CommandLine

/-! ### Options -/

/-- The options that take a value. -/
inductive OptionName where
  /-- The number of ports. -/
  | numPorts
  /-- Whether loads of one line share an access. -/
  | coalescing
  /-- The latency of the memory. -/
  | backendLatency
  /-- How much is reported. -/
  | log
  /-- The number of cycles after which the simulation is given up. -/
  | timeout
  /-- Where the summary goes. -/
  | statsJson
  deriving DecidableEq, Repr

/-- The options of a call; what is not given is left as it is configured. -/
structure Options where
  /-- The path of the configuration. -/
  configPath : Option String := none
  /-- The number of ports. -/
  numPorts : Option Nat := none
  /-- Whether loads of one line share an access. -/
  coalescing : Option Bool := none
  /-- The latency of the memory. -/
  backendLatency : Option Nat := none
  /-- How much is reported. -/
  log : Option Nat := none
  /-- The number of cycles after which the simulation is given up. -/
  timeout : Option Nat := none
  /-- Where the summary goes. -/
  statsPath : Option String := none
  deriving DecidableEq, Repr, Inhabited

/-- What a call asks for. -/
inductive Request where
  /-- The arguments are wrong. -/
  | wrong
  /-- The help text. -/
  | help
  /-- The version. -/
  | version
  /-- A simulation of the configuration at a path. -/
  | simulation (configPath : String) (options : Options)
  deriving DecidableEq, Repr

/-- The option of a name. -/
def OptionName.ofName? : String → Option OptionName
  | "num-ports" => some numPorts
  | "coalescing" => some coalescing
  | "backend-latency" => some backendLatency
  | "log" => some log
  | "timeout" => some timeout
  | "stats-json" => some statsJson
  | _ => none

/-- A natural number of 64 bits, in decimal digits with a plus before them or
not. -/
def number? (text : String) : Option Nat :=
  let ds := match text.toList with
    | '+' :: rest => rest
    | cs => cs
  if ds.isEmpty || !ds.all Char.isDigit then none
  else
    let n := Toml.digitsValue 10 ds
    if n ≤ maxWord then some n else none

/-- A truth value. -/
def truth? : String → Option Bool
  | "true" => some true
  | "false" => some false
  | _ => none

/-- A path, which is not empty. -/
def path? (text : String) : Option String := if text.isEmpty then none else some text

/-- A value for something that has none yet. -/
def once (old new : Option α) : Option (Option α) :=
  match old, new with
  | none, some a => some (some a)
  | _, _ => none

/-- Give an option a value, once. -/
def Options.set? (o : Options) (name : OptionName) (value : String) : Option Options :=
  match name with
  | .numPorts => (once o.numPorts (number? value)).map fun numPorts => { o with numPorts }
  | .coalescing => (once o.coalescing (truth? value)).map fun coalescing => { o with coalescing }
  | .backendLatency =>
      (once o.backendLatency (number? value)).map fun backendLatency => { o with backendLatency }
  | .log => (once o.log (number? value)).map fun log => { o with log }
  | .timeout => (once o.timeout (number? value)).map fun timeout => { o with timeout }
  | .statsJson => (once o.statsPath (path? value)).map fun statsPath => { o with statsPath }

/-- Take an argument that is no option: the path of the configuration. -/
def Options.setPath? (o : Options) (value : String) : Option Options :=
  (once o.configPath (path? value)).map fun configPath => { o with configPath }

/-! ### Arguments -/

/-- How an argument reads. -/
inductive Argument where
  /-- What follows is no option. -/
  | rest
  /-- An option by its name, with its value where that is in the same argument. -/
  | named (name : String) (value : Option String)
  /-- Options by their letters. -/
  | letters (first : Char)
  /-- No option. -/
  | plain (text : String)
  deriving DecidableEq, Repr

/-- Read an argument. -/
def Argument.ofText (text : String) : Argument :=
  match text.toList with
  | ['-', '-'] => rest
  | '-' :: '-' :: cs =>
      let name := String.ofList (cs.takeWhile (· != '='))
      match cs.dropWhile (· != '=') with
      | [] => named name none
      | _ :: value => named name (some (String.ofList value))
  | '-' :: c :: _ => letters c
  | _ => plain text

/-- All arguments are read. -/
def finish (o : Options) : Request :=
  match o.configPath with
  | some path => .simulation path o
  | none => .wrong

/-- Arguments none of which is an option. -/
def parsePlain (o : Options) : List String → Request
  | [] => finish o
  | arg :: rest =>
      match o.setPath? arg with
      | some o => parsePlain o rest
      | none => .wrong

/-- The help text or the version, if a name asks for one of them. -/
def special? : String → Option Request
  | "help" => some .help
  | "version" => some .version
  | _ => none

/-- The arguments of a call, after some options have been read. -/
def parseFrom (o : Options) : List String → Request
  | [] => finish o
  | arg :: rest =>
      match Argument.ofText arg with
      | .rest => parsePlain o rest
      | .letters 'h' => .help
      | .letters 'V' => .version
      | .letters _ => .wrong
      | .plain text =>
          match o.setPath? text with
          | some o => parseFrom o rest
          | none => .wrong
      | .named name (some value) =>
          match (OptionName.ofName? name).bind (o.set? · value) with
          | some o => parseFrom o rest
          | none => .wrong
      | .named name none =>
          match special? name, OptionName.ofName? name, rest with
          | some request, _, _ => request
          | none, some option, value :: rest =>
              match Argument.ofText value with
              | .plain value =>
                  match o.set? option value with
                  | some o => parseFrom o rest
                  | none => .wrong
              | _ => .wrong
          | _, _, _ => .wrong

/-- The arguments of a call. -/
def parseArguments (args : List String) : Request := parseFrom {} args

/-! ### Texts -/

/-- The version. -/
def versionLines : List String := ["cachealloc 0.1.0"]

/-- The help text. -/
def helpLines : List String :=
  ["Usage: cachealloc [OPTIONS] <CONFIG_PATH>",
    "",
    "Arguments:",
    "  <CONFIG_PATH>  Path to config.toml",
    "",
    "Options:",
    "      --num-ports <NUM_PORTS>",
    "          Override number of requestor ports",
    "      --coalescing <COALESCING>",
    "          Override same-line read coalescing [possible values: true, false]",
    "      --backend-latency <BACKEND_LATENCY>",
    "          Override backend latency in cycles",
    "      --log <LOG>",
    "          Enable log at level (0:warn, 1:info, 2:debug)",
    "      --timeout <TIMEOUT>",
    "          Override simulation timeout in cycles",
    "      --stats-json <STATS_JSON>",
    "          Write the run summary as JSON to this path",
    "  -h, --help",
    "          Print help",
    "  -V, --version",
    "          Print version"]

/-! ### A call -/

/-- Settings under the options of a call. -/
def override (s : Settings) (o : Options) : Settings where
  simulation := { s.simulation with
    logLevel := o.log.getD s.simulation.logLevel
    timeout := o.timeout.getD s.simulation.timeout
    statsPath := o.statsPath.or s.simulation.statsPath }
  allocator := { s.allocator with
    numPorts := o.numPorts.getD s.allocator.numPorts
    enableCoalescing := o.coalescing.getD s.allocator.enableCoalescing }
  memory := { s.memory with latency := o.backendLatency.getD s.memory.latency }
  traffic := s.traffic

/-- What comes of a call. -/
inductive Conclusion where
  /-- Something went wrong; its causes, outermost first. -/
  | failed (chain : List String)
  /-- A contract was broken. -/
  | broken
  /-- The summary, and the path it goes to if it is not printed. -/
  | summary (document : List String) (path : Option String)
  deriving DecidableEq, Repr

/-- A call that came to an end. -/
structure Ending where
  /-- The texts printed on the way. -/
  printed : List String
  /-- The notices kept on the way, oldest first. -/
  notices : List String
  /-- What came of it. -/
  conclusion : Conclusion
  deriving Repr

/-- What comes of settings that make no simulation. -/
def concludeSetup : SetupError → Conclusion
  | .broken _ => .broken
  | e => .failed e.chain

/-- What comes of a simulation that fails. -/
def concludeRun : RunError → Conclusion
  | .broken _ => .broken
  | e => .failed e.chain

/-- Simulate under some settings. -/
def simulate (s : Settings) : Ending :=
  match Simulation.new s (Level.ofVerbosity s.simulation.logLevel) with
  | .error e => ⟨[], [], concludeSetup e⟩
  | .ok simulation =>
      match simulation.simulate with
      | .error e simulation =>
          ⟨simulation.output.reverse, simulation.assembly.journal.lines, concludeRun e⟩
      | .ok summary simulation =>
          ⟨simulation.output.reverse, simulation.assembly.journal.lines,
            .summary summary.toJson.lines s.simulation.statsPath⟩

/-- What comes of a call, given the text of the configuration if it can be read. -/
def conclude (configPath : String) (o : Options) : Option String → Ending
  | none => ⟨[], [], .failed [s!"failed to read config file {configPath}"]⟩
  | some text =>
      match Toml.parse? text with
      | none => ⟨[], [], .failed ["cannot parse config toml"]⟩
      | some fields =>
          match (Settings.read fields).value with
          | .error e => ⟨[], [], .failed [e.message]⟩
          | .ok settings => simulate (override settings o)

/-- What a call prints and returns. -/
structure Report where
  /-- The exit code. -/
  code : Nat
  /-- The texts of the output, each on a line of its own. -/
  output : List String
  /-- What went wrong, with its causes, outermost first. -/
  error : List String
  deriving DecidableEq, Repr

/-- The lines of the output; a text that holds ends of lines takes more than one. -/
def Report.lines (r : Report) : List String := r.output.flatMap Lines.ofText

/-- The line that tells what went wrong, without its causes. -/
def Report.errorLine? (r : Report) : Option String :=
  r.error.head?.bind fun message => (Lines.ofText s!"Error: {message}").head?

/-- The report of a call that came to an end, given whether a path can be
written. -/
def report (e : Ending) (canWrite : String → Bool) : Report :=
  match e.conclusion with
  | .failed chain => ⟨1, e.printed, chain⟩
  | .broken => ⟨101, e.printed, []⟩
  | .summary document none => ⟨0, e.printed ++ document, []⟩
  | .summary _ (some path) =>
      if canWrite path then ⟨0, e.printed, []⟩
      else ⟨1, e.printed, [s!"failed to write stats to {path}"]⟩

end CommandLine

end MemPort
