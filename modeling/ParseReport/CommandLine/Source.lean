import ParseReport.Text.Numeral

/-!
# Source files

Reading a file gives its text or the reason why it cannot be read. What the
system says of an error, its words and its number, is taken as it is.
-/

namespace ParseReport

/-- Why a file cannot be read. -/
inductive ReadError
  /-- The words of the system for an error and the number of the error. -/
  | system (words : Text) (number : Nat)
  | notUnicode
  deriving DecidableEq, Repr

namespace ReadError

def notFound : ReadError := system "No such file or directory".toList 2
def inputOutput : ReadError := system "Input/output error".toList 5
def notDirectory : ReadError := system "Not a directory".toList 20
def isDirectory : ReadError := system "Is a directory".toList 21
def nameTooLong : ReadError := system "File name too long".toList 36

def message : ReadError → Text
  | system words number => words ++ " (os error ".toList ++ Text.decimal number ++ ")".toList
  | notUnicode => "stream did not contain valid UTF-8".toList

end ReadError

/-- The text that the bytes of a file stand for. -/
def decodeSource (bytes : ByteArray) : Except ReadError Text :=
  match String.fromUTF8? bytes with
  | some text => .ok text.toList
  | none => .error .notUnicode

end ParseReport
