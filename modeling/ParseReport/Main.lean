import ParseReport.CommandLine.Run

/-!
# The program

Checks the delimiters and string literals of one file.
-/

namespace ParseReport.CommandLine

/-- The reason for an error met while reading, in the words and with the number that came with
it. -/
def readError : IO.Error → ReadError
  | .noFileOrDirectory _ code words | .permissionDenied _ code words
  | .inappropriateType _ code words | .invalidArgument _ code words
  | .resourceExhausted _ code words | .alreadyExists _ code words | .noSuchThing _ code words
  | .interrupted _ code words | .otherError code words | .resourceBusy code words
  | .resourceVanished code words | .unsupportedOperation code words | .hardwareFault code words
  | .unsatisfiedConstraints code words | .illegalOperation code words | .protocolError code words
  | .timeExpired code words => .system words.toList code.toNat
  | .unexpectedEof | .userError _ => .inputOutput

/-- The bytes of a file. Nothing is asked of the file before it is opened, so that an error comes
with the words of the system. -/
def readBytes (path : Text) : IO ByteArray := do
  (← IO.FS.Handle.mk (String.ofList path) .read).readBinToEnd

/-- Reads a file of the system. -/
def readFile (path : Text) : BaseIO (Except ReadError Text) := do
  match ← (readBytes path).toBaseIO with
  | .ok bytes => return decodeSource bytes
  | .error error => return .error (readError error)

/-- Writes what a run leaves behind. -/
def Outcome.write (o : Outcome) : IO UInt32 := do
  (← IO.getStdout).putStr (String.ofList o.stdout)
  (← IO.getStderr).putStr (String.ofList o.stderr)
  return o.code.toUInt32

end ParseReport.CommandLine

open ParseReport CommandLine in
def main (arguments : List String) : IO UInt32 := do
  match Options.parse (arguments.map String.toList) with
  | .error error => (refuse error).write
  | .ok options =>
    let isTerminal ← (← IO.getStderr).isTty
    match conclude options isTerminal (← readFile options.path) with
    | .ok outcome => outcome.write
    | .error breach =>
      Outcome.write ⟨101, [], errorLine (breach.message?.getD "bad slice".toList)⟩
