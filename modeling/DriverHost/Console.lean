import DriverHost.Fault

/-!
# Console and log

The console takes text as it comes.  The log writes one line for each message that is severe
enough for the current level: a marker for the severity, the source and the message.  On a machine
with a clock the time since the start stands behind the marker; that clock belongs to no device
here, so the lines of this log leave the time out and have everything else.  Text printed directly
passes the level by.

Main results:

- Definition `Severity.ofRaw` reads the numeric levels of the driver.
- Definition `Console.log` writes a line exactly when `Console.enabled` holds.
- Structure `Board` puts a console beside a register bus.
-/

namespace DriverHost

/-- How severe a message is, the most severe first. -/
inductive Severity where
  | error
  | warning
  | notice
  | debug
deriving DecidableEq, Repr

namespace Severity

/-- The level's number, one for the most severe. -/
def number : Severity → Nat
  | error => 1
  | warning => 2
  | notice => 3
  | debug => 4

/-- The severity of a numeric level: zero counts as an error and every number past the last
level as a debug message. -/
def ofRaw (level : UInt32) : Severity :=
  if level ≤ 1 then error else if level = 2 then warning else if level = 3 then notice else debug

/-- The character that marks a log line. -/
def marker : Severity → Char
  | error => 'E'
  | warning => 'W'
  | notice => ' '
  | debug => 'D'

/-- The severity's name. -/
def name : Severity → String
  | error => "Error"
  | warning => "Warning"
  | notice => "Notice"
  | debug => "Debug"

/-- Numbers and severities correspond one to one. -/
theorem ofRaw_number (severity : Severity) : ofRaw (UInt32.ofNat severity.number) = severity := by
  cases severity <;> rfl

end Severity

/-- A console with the level of its log and the text nobody has collected yet. -/
structure Console where
  /-- Messages less severe than this are dropped. -/
  level : Severity := .debug
  /-- What was written since the text was last collected. -/
  pending : String := ""
deriving DecidableEq, Repr

namespace Console

/-- Write text as it is. -/
def write (console : Console) (text : String) : Console :=
  { console with pending := console.pending ++ text }

/-- A message of this severity reaches the log. -/
def enabled (console : Console) (severity : Severity) : Bool :=
  severity.number ≤ console.level.number

/-- The line of a message: marker, source and text, without the time since the start that a
machine's own clock adds between the marker and the bracket. -/
def line (severity : Severity) (source message : String) : String :=
  "[" ++ severity.marker.toString ++ "] " ++ source ++ ": " ++ message ++ "\n"

/-- Write the line of a message that is severe enough. -/
def log (console : Console) (severity : Severity) (source message : String) : Console :=
  if console.enabled severity then console.write (line severity source message) else console

/-- The level does not change by writing. -/
@[simp] theorem level_write (console : Console) (text : String) :
    (console.write text).level = console.level := rfl

/-- The level does not change by logging. -/
@[simp] theorem level_log (console : Console) (severity : Severity) (source message : String) :
    (console.log severity source message).level = console.level := by
  unfold log
  split <;> rfl

/-- A disabled message leaves the console as it is. -/
theorem log_of_disabled {console : Console} {severity : Severity}
    (h : console.enabled severity = false) (source message : String) :
    console.log severity source message = console := by
  simp [log, h]

/-- An enabled message writes its line. -/
theorem log_of_enabled {console : Console} {severity : Severity}
    (h : console.enabled severity = true) (source message : String) :
    console.log severity source message = console.write (line severity source message) := by
  simp [log, h]

end Console

/-- A console beside the devices of a machine. -/
structure Board (δ : Type) where
  /-- Where drivers report. -/
  console : Console := {}
  /-- What drivers read and write. -/
  device : δ

/-- A driver of a board's devices reports to its console. -/
def Board.log {δ : Type} (board : Board δ) (severity : Severity) (source message : String) :
    Board δ :=
  { board with console := board.console.log severity source message }

end DriverHost
