import GoFront.Diagnostic

/-! Why a compilation fails, and the texts that say so. -/
namespace GoFront

/-- Why the files of a package could not be found. -/
inductive LocateError where
  /-- None of the searched directories exists. -/
  | notFound (package : String) (searched : List String)
  | unreadable (path message : String)
  | invalidName (package reason : String)
  deriving DecidableEq, Repr

namespace LocateError

def message : LocateError → String
  | notFound package searched =>
    let places := if searched = [] then "no search roots" else ", ".intercalate searched
    s!"package \"{package}\" not found in {places}"
  | unreadable path message => s!"cannot read package directory {path}: {message}"
  | invalidName package reason => s!"invalid package name \"{package}\": {reason}"

end LocateError

inductive Failure where
  | unreadable (file cause : String)
  | grammar (file : String) (position : Position) (message : String) (help : Option String)
  | naming (file : String) (position : Position) (message : String) (help : Option String)
  /-- The import of `package` at the position led to no package. -/
  | unresolved (package file : String) (position : Position) (cause : LocateError)
  /-- The import at the position closes a cycle; the packages on it start and end with the same
  one. -/
  | cyclicImport (file : String) (position : Position) (cycle : List String)
  /-- Work on the unit was refused after shutdown. -/
  | cancelled (unit : String)
  /-- A collaborator broke down. -/
  | internal (unit message : String)
  /-- The compiler is gone. -/
  | disconnected
  deriving DecidableEq, Repr

namespace Failure

def message : Failure → String
  | unreadable file cause => s!"cannot read {file}: {cause}"
  | grammar file position message _ => s!"{file}:{position.text}: {message}"
  | naming file position message _ => s!"{file}:{position.text}: {message}"
  | unresolved package file position _ =>
    s!"{file}:{position.text}: cannot import package \"{package}\""
  | cyclicImport file position cycle =>
    s!"{file}:{position.text}: import cycle not allowed: " ++ " -> ".intercalate cycle
  | cancelled unit => s!"{unit}: compilation cancelled"
  | internal unit message => s!"{unit}: internal compiler error: {message}"
  | disconnected => "the compiler has shut down"

def code : Failure → String
  | unreadable .. => "golite::io"
  | grammar .. => "golite::syntax"
  | naming .. => "golite::symbol"
  | unresolved .. => "golite::import"
  | cyclicImport .. => "golite::import_cycle"
  | cancelled .. => "golite::cancelled"
  | internal .. => "golite::internal"
  | disconnected => "golite::disconnected"

def help : Failure → Option String
  | grammar _ _ _ help => help
  | naming _ _ _ help => help
  | internal .. => some "this is a bug in golite"
  | _ => none

def file : Failure → Option String
  | unreadable file _ => some file
  | grammar file .. => some file
  | naming file .. => some file
  | unresolved _ file _ _ => some file
  | cyclicImport file _ _ => some file
  | cancelled _ | internal _ _ | disconnected => none

def position : Failure → Option Position
  | grammar _ position _ _ => some position
  | naming _ position _ _ => some position
  | unresolved _ _ position _ => some position
  | cyclicImport _ position _ => some position
  | _ => none

def cause : Failure → Option String
  | unreadable _ cause => some cause
  | unresolved _ _ _ cause => some cause.message
  | _ => none

/-- The failure comes from shutdown and not from the source. -/
def isCancelled : Failure → Bool
  | cancelled _ | disconnected => true
  | _ => false

/-- The failure that a diagnostic about a file amounts to. -/
def ofDiagnostic (file : String) (lines : LineIndex) (d : Diagnostic) : Failure :=
  let position := lines.position d.span.start
  match d.kind with
  | .naming => .naming file position d.message d.help
  | .grammar | .general => .grammar file position d.message d.help

end Failure

end GoFront
