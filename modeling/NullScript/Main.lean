import NullScript.CommandLine

/-!
# NullScript — the program

Reads the file that the arguments name and prints what the run leaves. The standard input is read
only if the text is in order, so a text with errors takes nothing from it.
-/

namespace NullScript

/-- A bound on the number of steps that no run reaches. -/
def manySteps : Nat := Nat.pow 2 62

/-- The bytes of a script that is in a file, if it can be read. -/
def scriptBytes : Script → IO (Option ByteArray)
  | .code _ => return none
  | .file path => do
    try
      return some (← IO.FS.readBinFile path)
    catch _ =>
      return none

/-- Does what is asked for, up to printing. -/
def answer : Request → IO Exit
  | .misuse => return misuseExit []
  | .help => return helpExit []
  | .version => return versionExit []
  | .run i => do
    match i.script.text? (← scriptBytes i.script) with
    | none => return unreadableExit []
    | some text =>
      match i.prepare text with
      | .error read => return read.exit []
      | .ok (read, p) =>
        let input ← (← IO.getStdin).readBinToEnd
        return (i.execute manySteps input read p).getD (misuseExit [])

end NullScript

/-- The command line. -/
def main (args : List String) : IO UInt32 := do
  let exit ← NullScript.answer (NullScript.Invocation.ofArguments args)
  let stdout ← IO.getStdout
  stdout.write exit.printed
  stdout.flush
  return exit.code.toUInt32
