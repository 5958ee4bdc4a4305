import Outbox.Demo.Program

/-! # The command line

Runs the demonstration with the variables of the environment. There are no arguments.
-/

namespace Outbox

/-- The variables that the demonstration looks at. -/
def settingNames : List String :=
  ["DATABASE_URL", "OUTBOX_POLL_INTERVAL_MS", "OUTBOX_BATCH_SIZE", "OUTBOX_SWEEP_INTERVAL_SECS",
    "OUTBOX_RETENTION_DAYS", "OUTBOX_LEASE_SECS", "OUTBOX_RETRY_BASE_MS",
    "OUTBOX_RETRY_MULTIPLIER", "OUTBOX_RETRY_MAX_MS"]

/-- How many rounds and looks the command line has patience for. -/
def patience : Nat := 1000000000

end Outbox

open Outbox in
def main : IO UInt32 := do
  let settings ← settingNames.filterMapM fun name => do
    return (← IO.getEnv name).map fun value => (name, value)
  let (ending, _) := Demo.program (fun name => settings.lookup name) Demo.Network.deserted patience
  (← IO.getStdout).putStr ending.output
  (← IO.getStderr).putStr ending.complaint
  return ending.code.toUInt32
