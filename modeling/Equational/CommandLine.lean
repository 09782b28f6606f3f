import Equational.FileTree
import Equational.Import
import Equational.Report
import Equational.Script
import Equational.Statement.Printer

/-!
# The command line

Arguments are read from left to right, and the first one that settles the matter does: a request
for the version or for help, or a mistake.  The files named are then parsed one after another; what
is asked for goes to the output, and every diagnostic is reported on the error stream.
-/

namespace Equational.CommandLine

/-! ## Arguments -/

structure Command where
  files : List String := []
  searchPaths : List String := []
  dumpAst : Bool := false
  dumpTokens : Bool := false
  failFast : Bool := false
  verbose : Bool := false
  deriving DecidableEq, Repr

inductive Request where
  | parse (command : Command)
  | version
  | help
  | invalid
  deriving DecidableEq, Repr

def raise (isRaised : Bool) (raised : Command) : Except Request Command :=
  if isRaised then .error .invalid else .ok raised

def longFlag (command : Command) : String → Except Request Command
  | "dump-ast" => raise command.dumpAst { command with dumpAst := true }
  | "dump-tokens" => raise command.dumpTokens { command with dumpTokens := true }
  | "fail-fast" => raise command.failFast { command with failFast := true }
  | "verbose" => raise command.verbose { command with verbose := true }
  | "version" => .error .version
  | "help" => .error .help
  | _ => .error .invalid

def shortFlag (command : Command) : Char → Except Request Command
  | 'v' => raise command.verbose { command with verbose := true }
  | 'V' => .error .version
  | 'h' => .error .help
  | _ => .error .invalid

def addFile (command : Command) (file : String) : Except Request Command :=
  if file.isEmpty then .error .invalid
  else .ok { command with files := command.files ++ [file] }

def addSearchPath (command : Command) (path : String) : Except Request Command :=
  if path.isEmpty then .error .invalid
  else .ok { command with searchPaths := command.searchPaths ++ [path] }

def looksLikeOption (argument : String) : Bool :=
  match argument.toList with
  | '-' :: _ :: _ => true
  | _ => false

def assigned? (option : List Char) : Option (String × String) :=
  match option.dropWhile (· != '=') with
  | '=' :: value => some (String.ofList (option.takeWhile (· != '=')), String.ofList value)
  | _ => none

def takeLongOption (command : Command) (option : List Char) : Except Request Command :=
  match assigned? option with
  | some ("search-path", value) => addSearchPath command value
  | some _ => .error .invalid
  | none => longFlag command (String.ofList option)

def takeArguments : Command → List String → Except Request Command
  | command, [] => .ok command
  | command, "--" :: rest => rest.foldlM addFile command
  | _, ["--search-path"] => .error .invalid
  | command, "--search-path" :: value :: rest =>
    if looksLikeOption value then .error .invalid
    else do takeArguments (← addSearchPath command value) rest
  | command, argument :: rest => do
    match argument.toList with
    | '-' :: '-' :: option => takeArguments (← takeLongOption command option) rest
    | '-' :: first :: more => takeArguments (← (first :: more).foldlM shortFlag command) rest
    | _ => takeArguments (← addFile command argument) rest

def Request.ofArguments (arguments : List String) : Request :=
  match takeArguments {} arguments with
  | .error request => request
  | .ok command => if command.files.isEmpty then .invalid else .parse command

/-! ## Outcomes -/

structure Outcome where
  exitCode : Nat := 0
  output : String := ""
  errors : String := ""
  deriving DecidableEq, Repr

def Outcome.andThen (first second : Outcome) : Outcome :=
  ⟨max first.exitCode second.exitCode, first.output ++ second.output,
    first.errors ++ second.errors⟩

def Outcome.all (outcomes : List Outcome) : Outcome := outcomes.foldl Outcome.andThen {}

def lines (texts : List String) : String := String.join (texts.map (· ++ "\n"))

def versionText : String := "qparse 0.1.0\n"

def usageText : String := "Usage: qparse [OPTIONS] <FILE>...\n"

def helpText : String :=
  "Parse Q scripts and report their diagnostics\n\n" ++ usageText ++ "\n" ++ lines
    ["Arguments:",
      "  <FILE>...  Source files to parse",
      "",
      "Options:",
      "      --dump-ast           Print the parsed statements",
      "      --dump-tokens        Print the token stream",
      "      --fail-fast          Stop each file at its first diagnostic",
      "      --search-path <DIR>  Directory searched for imported modules; enables import checking",
      "  -v, --verbose            Enable debug logging",
      "  -h, --help               Print help",
      "  -V, --version            Print version"]

/-! ## Parsing files -/

abbrev Reader (m : Type → Type) := String → m (Except ReadFault String)

variable {m : Type → Type} [Monad m]

def firstReadable (read : Reader m) : List String → m (Option String)
  | [] => return none
  | path :: rest => do
    match ← read path with
    | .ok text => return some text
    | .error _ => firstReadable read rest

def moduleSource (read : Reader m) (searchPaths : List String) (name : ModuleName) :
    m (Option String) :=
  firstReadable read (name.candidates searchPaths)

/-- The diagnostics for imports that cannot be found; without search paths nothing is checked. -/
def importDiagnostics (read : Reader m) (searchPaths : List String) (script : Script) :
    m (List Diagnostic) := do
  if searchPaths.isEmpty then return []
  else
    let known ← script.importedModules.filterM fun spec => do
      return (← moduleSource read searchPaths spec.moduleName).isSome
    return script.unknownImports fun name => (known.map ModuleSpec.moduleName).contains name

def tokenLines (source : String) : List String :=
  match Lexed.ofSource source with
  | .ok lexed => lexed.tokens.map Token.summary
  | .error _ => []

def fileOutcome (read : Reader m) (command : Command) (name source : String) : m Outcome := do
  let tokens := if command.dumpTokens then tokenLines source else []
  let mode := if command.failFast then .failFast else .batch
  match ParsedUnit.ofSource source { mode } with
  | .error diagnostic => return ⟨1, lines tokens, diagnostic.report source name⟩
  | .ok unit =>
    let missing ← importDiagnostics read command.searchPaths unit.script
    let diagnostics := unit.diagnostics ++ missing
    let statements := if command.dumpAst then unit.script.body.map Statement.text else []
    return ⟨if diagnostics.isEmpty then 0 else 1, lines (tokens ++ statements),
      String.join (diagnostics.map fun diagnostic => diagnostic.report source name)⟩

def unreadable (name : String) (fault : ReadFault) : Outcome :=
  ⟨1, "", "Error: could not read " ++ name ++ ": " ++ fault.message ++ "\n"⟩

/-- Every file is read before the first one is parsed. -/
def runCommand (read : Reader m) (command : Command) : m Outcome := do
  let sources ← command.files.mapM fun name => return (name, ← read name)
  let failures := sources.filterMap fun
    | (name, .error fault) => some (unreadable name fault)
    | _ => none
  let outcomes ← sources.filterMapM fun
    | (name, .ok source) => return some (← fileOutcome read command name source)
    | _ => return none
  return Outcome.all (failures ++ outcomes)

def run (read : Reader m) : Request → m Outcome
  | .parse command => runCommand read command
  | .version => return { output := versionText }
  | .help => return { output := helpText }
  | .invalid => return { exitCode := 2, errors := usageText }

end Equational.CommandLine
