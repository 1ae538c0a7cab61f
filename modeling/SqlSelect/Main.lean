import SqlSelect.Command.Run
/-!
The command line.
-/

open SqlSelect.Command

-- The number that the system gives a fault; some come negated.
def systemNumber (code : UInt32) : UInt32 :=
  if 0x80000000 ≤ code then 0 - code else code

def fileFault (e : IO.Error) : FileFault :=
  match e with
  | .noFileOrDirectory .. => .missing
  | .inappropriateType _ code _ =>
    if systemNumber code = 21 then .isADirectory else .notADirectory
  | .invalidArgument _ code _ =>
    if systemNumber code = 36 then .nameTooLong else .other (toString e)
  | e => .other (toString e)

def main (arguments : List String) : IO UInt32 := do
  let names := ["CLICOLOR", "CLICOLOR_FORCE", "HOME", "NO_COLOR", "PARAMQUERY_SCHEMA",
    "XDG_CONFIG_HOME"]
  let values ← names.mapM fun name => do pure (name, ← IO.getEnv name)
  let output ← IO.getStdout
  let host : Host IO := {
    environment := fun name => (values.lookup name).join
    terminal := ← output.isTty
    contents := fun path => do
      try pure (.ok (← IO.FS.readFile path))
      catch e => pure (.error (fileFault e))
    holds := fun path => do
      try
        let _ ← IO.FS.Handle.mk path .read
        pure true
      catch _ => pure false }
  let outcome ← run host arguments
  output.putStr outcome.output
  (← IO.getStderr).putStr outcome.errors
  pure (UInt32.ofNat outcome.exitCode)
