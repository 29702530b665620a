import DclServer.Catalogue.Bundled
import DclServer.Json.Reader
import DclServer.Launch
import DclServer.Server.Wire

namespace DclServer

partial def readHeader (input : IO.FS.Stream) (length : Nat) : IO (Option Nat) := do
  let line ← input.getLine
  if line.isEmpty then return none
  if line.toList.all Json.isSpace then return some length
  readHeader input ((Wire.contentLength? line).getD length)

partial def readBytes (input : IO.FS.Stream) (length : Nat) (bytes : ByteArray) : IO ByteArray := do
  if length ≤ bytes.size then return bytes
  let more ← input.read (length - bytes.size).toUSize
  if more.isEmpty then return bytes
  readBytes input length (bytes ++ more)

def readMessage (input : IO.FS.Stream) : IO (Option Wire.Incoming) := do
  match ← readHeader input 0 with
  | none => return none
  | some length =>
    let bytes ← readBytes input length .empty
    let message := (String.fromUTF8? bytes).bind Json.parse?
    return some ((message.map Wire.read).getD .unknown)

/-- Serves until the client says to exit, and then tells whether it had asked to stop before. -/
partial def serveStream (input output : IO.FS.Stream) (s : Server) : IO UInt32 := do
  match ← readMessage input with
  | none => return 0
  | some .exit => return if s.stopped then 0 else 1
  | some .unknown => serveStream input output s
  | some (.event e) =>
    let t := s.step e
    for m in t.sent do
      output.putStr (Wire.frame m)
    output.flush
    serveStream input output t.server

end DclServer

def main : IO UInt32 := do
  let launch := DclServer.Launch.prepare (← IO.getEnv "DEBUG") false
  for line in launch.notices do
    IO.eprintln line
  DclServer.serveStream (← IO.getStdin) (← IO.getStdout) (.start DclServer.Catalogue.bundled)
