import Formula.Command

/-!
The program: it runs the command of its command line and prints the answer. Variables that are not
given are read from the standard input, unless that is a terminal.
-/

namespace Formula

def Command.complete (command : Command) : IO Command := do
  let stdin ← IO.getStdin
  if command.wantsInput && !(← stdin.isTty) then
    return command.withInput (← stdin.readToEnd)
  return command

end Formula

/-- Runs a command line; the status is 0 if there is an answer. -/
def main (args : List String) : IO UInt32 := do
  match Formula.Command.ofArguments? args with
  | none =>
    IO.eprint Formula.Command.usage
    return 2
  | some command =>
    match (← command.complete).run with
    | .ok answer =>
      IO.print answer
      return 0
    | .error e =>
      IO.eprintln e.report
      return e.status
