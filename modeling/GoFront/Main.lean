import GoFront.Command.Run

/-! The program itself: files of the disk, the environment, and the two output channels. -/
namespace GoFront.Command

/-- The number of an error; some operations report it negated. -/
def errorNumber (code : UInt32) : Nat :=
  if code < 0x80000000 then code.toNat else (-code).toNat

def fileError : IO.Error → FileError
  | .noFileOrDirectory _ code text => .ofNumber (errorNumber code) text
  | .inappropriateType _ code text => .ofNumber (errorNumber code) text
  | .invalidArgument _ code text => .ofNumber (errorNumber code) text
  | .permissionDenied _ code text => .ofNumber (errorNumber code) text
  | .noSuchThing _ code text => .ofNumber (errorNumber code) text
  | .resourceExhausted _ code text => .ofNumber (errorNumber code) text
  | .otherError code text => .ofNumber (errorNumber code) text
  | error => .other 5 (toString error)

def attempt {α : Type} (action : IO α) : IO (Except FileError α) := do
  match ← action.toBaseIO with
  | .ok value => return .ok value
  | .error error => return .error (fileError error)

def readText (name : String) : IO (Except FileError String) := do
  match ← attempt (IO.FS.readBinFile name) with
  | .error error => return .error error
  | .ok bytes =>
    match String.fromUTF8? bytes with
    | some text => return .ok text
    | none => return .error .notText

def fileSize (name : String) : IO (Except FileError Nat) :=
  attempt do
    let path := (← IO.currentDir) / name
    return (← path.metadata).byteSize.toNat

def listDirectory (name : String) : IO (Option (Except FileError (List Entry))) := do
  let path := (← IO.currentDir) / name
  if ← path.isDir then
    some <$> attempt do
      (← path.readDir).toList.mapM fun entry => do
        let isFile ← attempt do return (← entry.path.metadata).type == .file
        return ⟨entry.fileName, isFile matches .ok true⟩
  else return none

def World.disk : World IO where
  size := fileSize
  read := readText
  entries? := listDirectory

end GoFront.Command

def main (arguments : List String) : IO UInt32 := do
  let environment : GoFront.Command.Environment :=
    ⟨← IO.getEnv "GOLITE_PATH", ← IO.getEnv "GOLITE_MAILBOX_DEPTH"⟩
  let output ← GoFront.Command.run .disk environment arguments
  IO.print output.stdout.written
  let complaint := output.stderr.text
  unless complaint.isEmpty do IO.eprintln complaint
  return output.exitCode.toUInt32
