import InfixArithmetic.Cli.Run

def main (arguments : List String) : IO UInt32 := do
  let answer := InfixArithmetic.Cli.answer arguments
  IO.print answer.stdout
  for line in answer.stderr do
    IO.eprintln line
  return answer.exitCode.toUInt32
