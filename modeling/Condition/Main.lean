import Condition.CommandLine.Session

namespace Condition.CommandLine

/-- All bytes of a stream. -/
partial def readAll (stream : IO.FS.Stream) (sofar : ByteArray) : IO ByteArray := do
  let chunk ← stream.read 65536
  if chunk.isEmpty then return sofar
  readAll stream (sofar ++ chunk)

end Condition.CommandLine

def main (args : List String) : IO UInt32 := do
  let arguments := args.map String.toList
  let input ←
    if Condition.CommandLine.readsInput arguments then
      Condition.CommandLine.readAll (← IO.getStdin) ByteArray.empty
    else pure ByteArray.empty
  let output := Condition.CommandLine.respond arguments input.toList
  (← IO.getStdout).putStr (String.ofList output.out)
  (← IO.getStderr).putStr (String.ofList output.err)
  return output.status.toUInt32
