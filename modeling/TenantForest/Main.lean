import TenantForest.Console

/-!
# The console program

Reads command lines from standard input and runs each against one forest kept in
memory, under the default settings. Answers go to standard output, refusals and
unreadable lines to standard error; the exit code is 1 when any command was refused.
-/

open TenantForest

/-- Runs the lines of `stdin` against the forest `f`; `failed` tells whether a command
was refused so far. -/
partial def serve (stdin stdout stderr : IO.FS.Stream) (f : Forest) (failed : Bool) : IO Bool := do
  let line ← stdin.getLine
  if line.isEmpty then return failed
  let text := String.ofList (line.toList.filter (fun c => c != '\n' && c != '\r'))
  if (Text.trim text).isEmpty then return (← serve stdin stdout stderr f failed)
  match Console.parse text with
  | .error e =>
    stderr.putStrLn ("✗ " ++ e)
    serve stdin stdout stderr f true
  | .ok inv =>
    match Console.run f inv with
    | .error e =>
      stderr.putStrLn (Console.refusal e)
      serve stdin stdout stderr f true
    | .ok (out, f') =>
      match out with
      | .document d => stdout.putStrLn d.render
      | .message m => stdout.putStrLn m
      stdout.flush
      serve stdin stdout stderr f' failed

/-- Serves standard input; exits with 1 when a command was refused. -/
def main : IO UInt32 := do
  let failed ← serve (← IO.getStdin) (← IO.getStdout) (← IO.getStderr) (Forest.empty {}) false
  return (if failed then 1 else 0)
