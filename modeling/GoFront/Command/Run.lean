import GoFront.Build.Schedule
import GoFront.Command.Arguments

/-!
What the program does: dump the tokens or the outline of a file, or compile files together with
all that they import. The outside is reached through a `World`, so that the program runs on a tree
in memory as well as on a disk.
-/
namespace GoFront.Command

structure World (m : Type → Type) where
  /-- The length of a file in bytes. -/
  size : String → m (Except FileError Nat)
  read : String → m (Except FileError String)
  /-- The entries of a directory, if the name leads to one. -/
  entries? : String → m (Option (Except FileError (List Entry)))

def World.ofTree (tree : Tree) : World Id where
  size name := (tree.find name).map Node.size
  read name := tree.read name
  entries? name := tree.entries? name

/-- The settings that come from the environment. -/
structure Environment where
  searchPath : Option String := none
  mailboxDepth : Option String := none
  deriving Repr

inductive Complaint where
  | nothing
  | plain (text : String)
  | refusal (refusal : Refusal)
  | findings (file : String) (lines : LineIndex) (findings : List Finding)
  | failure (failure : Failure)
  deriving Repr

namespace Complaint

def withHelp (text : String) (help : Option String) : String :=
  match help with
  | some help => text ++ "\n" ++ help
  | none => text

def showFinding (file : String) (lines : LineIndex) (finding : Finding) : String :=
  let report := finding.diagnostic
  let place := (lines.position report.span.start).text
  withHelp s!"{file}:{place}: {report.text}" report.help

def text : Complaint → String
  | nothing => ""
  | plain words => words
  | refusal reason => reason.message
  | findings file lines found => "\n".intercalate (found.map (showFinding file lines))
  | failure reason =>
    let cause := match reason.cause with
      | some cause => s!"{reason.message}\n  caused by: {cause}"
      | none => reason.message
    withHelp cause reason.help

end Complaint

inductive Display where
  | text (value : String)
  /-- The help of the program. -/
  | help
  deriving Repr

namespace Display

def helpText : String :=
  "Concurrent compiler frontend for golite sources\n\n" ++
  "Usage: golite [OPTIONS] [FILES]... [COMMAND]\n\n" ++
  "Commands:\n" ++
  "  build  Compile files and every package they import\n" ++
  "  help   Print this message or the help of the given subcommand(s)\n\n" ++
  "Options:\n" ++
  "      --lex <FILE>    Tokenize only (debug)\n" ++
  "      --parse <FILE>  Parse only (debug)\n" ++
  "  -h, --help          Print help\n" ++
  "  -V, --version       Print version\n"

def written : Display → String
  | text value => value
  | help => helpText

end Display

structure Output where
  exitCode : Nat
  stdout : Display := .text ""
  stderr : Complaint := .nothing
  deriving Repr

namespace Output

def success (text : String) : Output := ⟨0, .text text, .nothing⟩

def failed (complaint : Complaint) : Output := ⟨1, .text "", complaint⟩

end Output

/-- The largest file that a dump reads: a hundred mebibytes. -/
def maxSourceSize : Nat := 100 * 1024 * 1024

/-- A bound on the jobs of a build that no build reaches. -/
def jobLimit : Nat := Nat.pow 2 62

section

variable {m : Type → Type} [Monad m]

/-- The text of a file to be dumped, or the complaint about it. -/
def readSource (world : World m) (name : String) : m (Except Complaint String) := do
  match ← world.size name with
  | .error error => return .error (.plain s!"Cannot access file '{name}': {error.message}")
  | .ok size =>
    if maxSourceSize < size then
      return .error <| .plain <|
        s!"Source file '{name}' is too large ({size} bytes, max {maxSourceSize} bytes)"
    else
      match ← world.read name with
      | .error error => return .error (.plain s!"Error reading file '{name}': {error.message}")
      | .ok source => return .ok source

/-- Reads a file and prints what `dump` makes of its text. -/
def dumpFile (world : World m) (name : String)
    (dump : String → Except (List Finding) String) : m Output := do
  match ← readSource world name with
  | .error complaint => return .failed complaint
  | .ok source =>
    match dump source with
    | .ok text => return .success text
    | .error findings => return .failed (.findings name (.ofSource source) findings)

def tokenLines (source : String) : Except (List Finding) String :=
  (Lexer.lex source).map fun tokens => String.join (tokens.map fun token => token.dump ++ "\n")

def outline (source : String) : Except (List Finding) String :=
  (Parser.parseSource source).map SourceFile.describe

/-- Performs a job of a build with files of the world. -/
def perform (world : World m) (locator : Locator) : Build.Job → m Build.Event
  | .parse file => do
    match ← world.read file with
    | .ok source => return .parsed file (Frontend.parseSource file source)
    | .error error => return .parsed file (Frontend.unreadable file error)
  | .locate package => do
    let listings ← (locator.candidates package).mapM fun directory => do
      return (directory, ← world.entries? directory)
    let entries? (directory : String) := (listings.lookup directory).join
    return .found package ((locator.locate entries? package).mapError .refused)

def buildFiles (world : World m) (environment : Environment) (files : List String)
    (options : BuildOptions) : m Output := do
  let config := (Config.ofEnvironment environment.searchPath environment.mailboxDepth).apply options
  let locator : Locator := ⟨config.searchPaths, config.sourceExtension⟩
  match ← Build.compile (perform world locator) config.keepGoing files jobLimit with
  | some .ok => return .success s!"✓ Compiled {files.length} file(s)\n"
  | some (.failed failure) => return .failed (.failure failure)
  | none => return .failed (.failure .disconnected)

/-- Carries out what the arguments ask for. Without anything to do it shows the help, as a
failure. -/
def execute (world : World m) (environment : Environment) (arguments : Arguments) : m Output :=
  match arguments with
  | ⟨_, _, some name, _⟩ => dumpFile world name tokenLines
  | ⟨_, _, none, some name⟩ => dumpFile world name outline
  | ⟨some (files, options), _, none, none⟩ => buildFiles world environment files options
  | ⟨none, [], none, none⟩ => return { exitCode := 1, stdout := .help }
  | ⟨none, files, none, none⟩ => buildFiles world environment files {}

def run (world : World m) (environment : Environment) (words : List String) : m Output :=
  match parseArguments words with
  | .ok arguments => execute world environment arguments
  | .error .help => return { exitCode := 0, stdout := .help }
  | .error .version => return .success "golite 0.1.0\n"
  | .error refusal => return { exitCode := refusal.exitCode, stderr := .refusal refusal }

end

end GoFront.Command
