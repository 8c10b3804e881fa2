import GoFront.Config

/-!
The command line. Options may stand before and after file names; `build` is a command of its own
when it stands before any file name. A value that was only begun, or file names that were only
collected, are looked at when the next option comes or the line ends, which decides which of two
faults is reported.
-/
namespace GoFront.Command

/-- Why a command line is not carried out. Asking for help or for the version ends it too. -/
inductive Refusal where
  | help
  | version
  /-- Two options exclude each other, or one is given twice. -/
  | conflict
  /-- A value is missing or empty. -/
  | noValue
  /-- A value is not of the right form. -/
  | badValue
  | noFiles
  | unknownOption
  /-- A flag is given a value. -/
  | needlessValue
  /-- Help is asked for a command that does not exist. -/
  | unknownCommand
  deriving DecidableEq, Repr

namespace Refusal

/-- The exit code: help and version are no faults. -/
def exitCode : Refusal → Nat
  | help | version => 0
  | _ => 2

def message : Refusal → String
  | help => "help requested"
  | version => "version requested"
  | conflict => "error: options conflict or are repeated"
  | noValue => "error: a value is required but none was supplied"
  | badValue => "error: invalid value"
  | noFiles => "error: no files given"
  | unknownOption => "error: unexpected argument"
  | needlessValue => "error: a value was given to a flag"
  | unknownCommand => "error: unrecognized command"

end Refusal

/-- The two commands: what the bare program does, and `build`. -/
inductive Verb where
  | main | build
  deriving DecidableEq, Repr

inductive Setting where
  | lex | parse | searchRoot | keepGoing | mailboxDepth | help | version
  deriving DecidableEq, Repr

namespace Setting

def takesValue : Setting → Bool
  | lex | parse | searchRoot | mailboxDepth => true
  | keepGoing | help | version => false

def ofLong? : Verb → String → Option Setting
  | .main, "lex" => some lex
  | .main, "parse" => some parse
  | .main, "version" => some version
  | .build, "keep-going" => some keepGoing
  | .build, "mailbox-depth" => some mailboxDepth
  | _, "help" => some help
  | _, _ => none

def ofShort? : Verb → Char → Option Setting
  | .main, 'V' => some version
  | .build, 'I' => some searchRoot
  | .build, 'k' => some keepGoing
  | _, 'h' => some help
  | _, _ => none

end Setting

structure Choices where
  files : List String := []
  lex : Option String := none
  parse : Option String := none
  options : BuildOptions := {}
  deriving DecidableEq, Repr

namespace Choices

def assign (choices : Choices) (setting : Setting) (value : String) : Except Refusal Choices :=
  match setting with
  | .lex =>
    if choices.lex.isSome then .error .conflict
    else if value = "" then .error .noValue
    else .ok { choices with lex := some value }
  | .parse =>
    if choices.parse.isSome then .error .conflict
    else if value = "" then .error .noValue
    else .ok { choices with parse := some value }
  | .searchRoot =>
    if value = "" then .error .noValue
    else
      let options := { choices.options with includes := choices.options.includes ++ [value] }
      .ok { choices with options }
  | .mailboxDepth =>
    if choices.options.mailboxDepth.isSome then .error .conflict
    else
      match Config.positive? value with
      | some depth => .ok { choices with options := { choices.options with mailboxDepth := depth } }
      | none => .error .badValue
  | .keepGoing | .help | .version => .error .needlessValue

def raise (choices : Choices) (setting : Setting) : Except Refusal Choices :=
  match setting with
  | .keepGoing =>
    if choices.options.keepGoing then .error .conflict
    else .ok { choices with options := { choices.options with keepGoing := true } }
  | .help => .error .help
  | .version => .error .version
  | .lex | .parse | .searchRoot | .mailboxDepth => .error .noValue

def addFiles (choices : Choices) (files : List String) : Except Refusal Choices :=
  if files.contains "" then .error .noValue
  else .ok { choices with files := choices.files ++ files }

end Choices

inductive Pending where
  | nothing
  /-- An option whose value comes next. -/
  | awaiting (setting : Setting)
  | value (setting : Setting) (value : String)
  | files (names : List String)
  deriving DecidableEq, Repr

structure Reader where
  verb : Verb
  choices : Choices := {}
  pending : Pending := .nothing
  deriving Repr

namespace Reader

def settle (reader : Reader) : Except Refusal Reader := do
  let choices ← match reader.pending with
    | .nothing => pure reader.choices
    | .awaiting _ => .error .noValue
    | .value setting value => reader.choices.assign setting value
    | .files names => reader.choices.addFiles names
  return { reader with choices, pending := .nothing }

/-- Reads an option with its value, if one is attached to it. -/
def option (reader : Reader) (setting : Setting) (attached : Option String) :
    Except Refusal Reader := do
  let reader ← reader.settle
  match attached with
  | some value => return { reader with choices := ← reader.choices.assign setting value }
  | none => return { reader with pending := .awaiting setting }

def flag (reader : Reader) (setting : Setting) : Except Refusal Reader := do
  let reader ← reader.settle
  return { reader with choices := ← reader.choices.raise setting }

/-- Reads a long option given without its dashes. -/
def long (reader : Reader) (text : List Char) : Except Refusal Reader :=
  let name := text.takeWhile (· ≠ '=')
  let attached := match text.drop name.length with
    | _ :: value => some (String.ofList value)
    | [] => none
  match Setting.ofLong? reader.verb (String.ofList name) with
  | none => .error .unknownOption
  | some setting =>
    if setting.takesValue then reader.option setting attached
    else if attached.isSome then .error .needlessValue
    else reader.flag setting

/-- Reads short options given without their dash. The rest of the word after an option with a
value is its value; an equals sign may stand before it. -/
def short (reader : Reader) : List Char → Except Refusal Reader
  | [] => .ok reader
  | c :: rest =>
    match Setting.ofShort? reader.verb c with
    | none => .error .unknownOption
    | some setting =>
      if setting.takesValue then
        match rest with
        | [] => reader.option setting none
        | '=' :: value => reader.option setting (some (String.ofList value))
        | value => reader.option setting (some (String.ofList value))
      else do short (← reader.flag setting) rest

def file (reader : Reader) (name : String) : Except Refusal Reader := do
  match reader.pending with
  | .files names => return { reader with pending := .files (names ++ [name]) }
  | _ => return { ← reader.settle with pending := .files [name] }

def word (reader : Reader) (text : String) : Except Refusal Reader :=
  match text.toList with
  | '-' :: '-' :: name => reader.long name
  | '-' :: c :: rest => reader.short (c :: rest)
  | _ =>
    match reader.pending with
    | .awaiting setting => .ok { reader with pending := .value setting text }
    | _ => reader.file text

/-- A command may come next: no option waits for its value and no file name came just before. -/
def allowsCommand (reader : Reader) : Bool :=
  match reader.pending with
  | .awaiting _ | .files _ => false
  | .nothing | .value _ _ => true

end Reader

/-- The end of the line for `build`, which needs files. -/
def finishBuild (reader : Reader) : Except Refusal Choices := do
  let reader ← reader.settle
  if reader.choices.files = [] then .error .noFiles else return reader.choices

/-- Reads the words of `build`. -/
def readBuild (reader : Reader) : List String → Except Refusal Choices
  | [] => finishBuild reader
  | text :: rest =>
    if text = "--" then do finishBuild (← rest.foldlM Reader.file reader)
    else do readBuild (← reader.word text) rest

structure Arguments where
  /-- The files and options of `build`, if that is the command. -/
  build : Option (List String × BuildOptions)
  files : List String
  lex : Option String
  parse : Option String
  deriving DecidableEq, Repr

/-- The end of the line for the bare program: dumps and files exclude each other. -/
def finishMain (reader : Reader) (build : Option Choices) : Except Refusal Arguments := do
  let ⟨files, lex, parse, _⟩ := (← reader.settle).choices
  if (lex.isSome && (parse.isSome || files ≠ [])) || (parse.isSome && files ≠ []) then
    .error .conflict
  else
    return ⟨build.map fun choices => (choices.files, choices.options), files, lex, parse⟩

def helpFor : List String → Refusal
  | [] => .help
  | [topic] => if topic = "build" || topic = "help" then .help else .unknownCommand
  | _ => .unknownCommand

def readMain (reader : Reader) : List String → Except Refusal Arguments
  | [] => finishMain reader none
  | text :: rest =>
    if reader.allowsCommand && text = "build" then do
      let choices ← readBuild { verb := .build } rest
      finishMain reader (some choices)
    else if reader.allowsCommand && text = "help" then .error (helpFor rest)
    else if text = "--" then do finishMain (← rest.foldlM Reader.file reader) none
    else do readMain (← reader.word text) rest

/-- Reads a command line, the program's name left out. -/
def parseArguments (words : List String) : Except Refusal Arguments :=
  readMain { verb := .main } words

end GoFront.Command
