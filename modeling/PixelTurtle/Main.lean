import PixelTurtle.Host.CommandLine

/-!
# The program

Reads the arguments and, without a program text among them, the standard input; runs the program and
prints the reply. The status of the process tells whether there was an error.
-/

namespace PixelTurtle.Host

/-- The rest of a stream, after what has been read. -/
partial def readAll (stream : IO.FS.Stream) (read : String) : IO String := do
  let line ← stream.getLine
  if line.isEmpty then return read else readAll stream (read ++ line)

/-- Runs an invocation and prints the reply. -/
def Invocation.print (v : Invocation) : IO UInt32 := do
  let input ← if v.code.isNull then readAll (← IO.getStdin) "" else pure ""
  match v.run input with
  | .ok r =>
    IO.println r.toJson.render
    return (Invocation.status r).toUInt32
  | .error e =>
    IO.eprintln e.message
    return 1

end PixelTurtle.Host

def main (args : List String) : IO UInt32 :=
  match PixelTurtle.Host.Invocation.parse args with
  | .error exit => return exit.status.toUInt32
  | .ok v => v.print
