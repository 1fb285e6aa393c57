import DriverHost.Script.Entries
import DriverHost.Script.Transfers

/-!
# Running a script

The operations of a script are performed by the boot context of a machine whose threads run
the script's programs.  Operations can make handlers and callbacks take steps of their own,
and those can do the same again; how deep this goes is limited, so that a handler that always
sets itself off has an end.

Main results:

- Definition `Script.run` is the trace of a script.
-/

namespace DriverHost.Script

/-- Perform an operation. -/
def Operation.perform (setting : Setting) : Operation → Code Reply
  | plain op => op.perform setting
  | console op => op.perform
  | lock index op => op.perform setting index
  | task op => op.perform
  | heap op => op.perform
  | interrupt op => op.perform setting
  | pool ofPlatform op => op.perform setting ofPlatform
  | list op => op.perform setting
  | device op => op.perform
  | mailbox setup op => op.perform setup
  | platform op => op.perform setting
  | entry index op => op.perform index

/-- Do something a number of times. -/
def times (code : Code Unit) : Nat → Code Unit
  | 0 => return ()
  | more + 1 => do
      code
      times code more

mutual

/-- Take a step: perform its operation and record the answer, or repeat its steps. -/
def takeStep (setting : Setting) : Step → Code Unit
  | .perform label operation => do
      let reply ← operation.perform setting
      Coroutine.act (note fun task => .finished task label reply)
  | .repeating count steps => times (takeSteps setting steps) count

/-- Take steps one after the other. -/
def takeSteps (setting : Setting) : List Step → Code Unit
  | [] => return ()
  | step :: rest => do
      takeStep setting step
      takeSteps setting rest

end

/-- How deep handlers and callbacks can set each other off. -/
def nestingLimit : Nat := 4096

/-- Take steps whose operations can make others take steps, down to a depth. -/
def stepsWithin (script : Script) : Nat → List Step → Code Unit
  | 0, _ => Coroutine.fault .blocked
  | depth + 1, steps => takeSteps { script, nested := stepsWithin script depth } steps

/-- Take steps of a script. -/
def code (script : Script) (steps : List Step) : Code Unit :=
  stepsWithin script nestingLimit steps

/-- The programs of a script, and what the scheduler's notices do in its world. -/
def host (script : Script) : Host String World where
  body program := script.code ((script.threads.lookup program).getD [])
  notify := hear

/-- The machine a script begins on. -/
def machine (script : Script) : Machine String World where
  scheduler := { bootCoreOnly := script.bootCoreOnly }
  shared := worldOf script

/-- Rounds that the boot context may wait through. -/
def roundLimit : Nat := 1 <<< 40

/-- The source behind the reports of faults. -/
def faultLogSource : String := "linuxemu::linux::bug"

/-- End a world with a fault, which reports itself first. -/
def endWith (cause : Fault) (world : World) : World :=
  let world :=
    match cause.report with
    | some text => world.log .error faultLogSource text
    | none => world
  emit (.ended cause) world

/-- The records of a world, in order. -/
def records (world : World) : List Record :=
  (collect world).outside.trace.reverse

/-- Everything that happens when a script is run. -/
def run (script : Script) : List Record :=
  match Machine.boot script.host roundLimit (script.code script.steps) script.machine with
  | .ok () machine => records machine.shared
  | .failed cause machine => records (endWith cause machine.shared)

end DriverHost.Script
