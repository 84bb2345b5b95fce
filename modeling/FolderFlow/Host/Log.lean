import FolderFlow.Host.Basic

/-!
# Messages

Messages about a run go to the standard output, one a line, with their level in front.
-/

namespace FolderFlow

inductive Level where
  | info
  | warn
  deriving DecidableEq, Repr

def Level.name : Level → String
  | info => "INFO"
  | warn => "WARN"

namespace Log

/-- Characters that a terminal takes for commands are shown by their numbers. -/
def escapeChar (c : Char) : List Char :=
  match c with
  | '\x1b' => ['\\', 'x', '1', 'b']
  | '\x07' => ['\\', 'x', '0', '7']
  | '\x08' => ['\\', 'x', '0', '8']
  | '\x0c' => ['\\', 'x', '0', 'c']
  | '\x7f' => ['\\', 'x', '7', 'f']
  | c =>
    if 0x80 ≤ c.toNat && c.toNat ≤ 0x9F then
      ['\\', 'u', '\x7b'] ++ Nat.toDigits 16 c.toNat ++ ['\x7d']
    else [c]

def escape (text : String) : String :=
  String.ofList (text.toList.flatMap escapeChar)

end Log

namespace Host

variable {m : Type → Type} [Host m]

def log (level : Level) (message : String) : m Unit :=
  printLine (level.name ++ " " ++ Log.escape message)

/-- A message with a named value behind it, which is written as it is. -/
def logWith (level : Level) (message name value : String) : m Unit :=
  printLine (level.name ++ " " ++ Log.escape message ++ " " ++ name ++ "=" ++ value)

end Host

end FolderFlow
