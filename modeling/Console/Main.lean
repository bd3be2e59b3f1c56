import Console.Program

/-! # The command line

    Runs the program on the files, the input and the environment of its process.
-/

namespace Console

/-- What a failure to read a file comes to. -/
def FileState.ofError : IO.Error → FileState
  | .noFileOrDirectory _ _ _ => absent
  | _ => unreadable

/-- The surroundings of the process. -/
def processHost : Host IO where
  file path := do
    try return .text (← IO.FS.readFile path)
    catch error => return .ofError error
  write path content := do
    try
      let folder := ((path.toList.reverse.dropWhile (· != '/')).drop 1).reverse
      unless folder.isEmpty do IO.FS.createDirAll (String.ofList folder)
      IO.FS.writeFile path content
      return true
    catch _ => return false
  input := do
    try return some (← (← IO.getStdin).readToEnd)
    catch _ => return none
  environment name := IO.getEnv name

end Console

/-- Runs the program with the arguments of the process. -/
def main (arguments : List String) : IO UInt32 := do
  let finished ← Console.Program.run Console.processHost arguments
  let stdout ← IO.getStdout
  stdout.putStr finished.output
  for note in finished.notes do IO.eprintln note
  return finished.code.toUInt32
