import DeletionGuard.Log.Time
import DeletionGuard.Text.Styled

/-!
# Log entries

What a run tells about itself: each entry has a level and a target, which names the part of the
program that it comes from.
-/

namespace DeletionGuard

inductive Level where
  | error
  | warn
  | info
  | debug
  | trace
  deriving DecidableEq, Repr

namespace Level

/-- The levels from the gravest on are numbered from one; zero stands for none of them. -/
def rank : Level → Nat
  | error => 1
  | warn => 2
  | info => 3
  | debug => 4
  | trace => 5

/-- The name of a level, as wide as the longest one. -/
def label : Level → String
  | error => "ERROR"
  | warn => "WARN "
  | info => "INFO "
  | debug => "DEBUG"
  | trace => "TRACE"

def style : Level → Style
  | error => .boldRed
  | warn => .yellow
  | info => .green
  | debug => .blue
  | trace => .cyan

end Level

structure LogEntry where
  level : Level
  target : String
  message : String
  deriving DecidableEq, Repr

namespace LogEntry

/-- Further lines of a message are indented. -/
def indented (message : String) : String :=
  "\n    ".intercalate (message.splitOn "\n")

/-- What stands before the level of an entry: the time, unless times are left out. -/
def timeText (time : Option Timestamp) : String :=
  (time.map fun t => t.text ++ " ").getD ""

def styled (time : Option Timestamp) (e : LogEntry) : StyledText :=
  [⟨"[", .gray⟩, ⟨timeText time, .plain⟩, ⟨e.level.label, e.level.style⟩,
    ⟨" " ++ e.target, .plain⟩, ⟨"]", .gray⟩, ⟨" " ++ indented e.message ++ "\n", .plain⟩]

/-- The entry as it is written at a time. Without colours nothing of it is obeyed by a terminal. -/
def line (colors : Bool) (time : Option Timestamp) (e : LogEntry) : String :=
  if colors then (e.styled time).render else ControlSequence.strip true (e.styled time).text

end LogEntry

end DeletionGuard
