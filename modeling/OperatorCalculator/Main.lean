import OperatorCalculator.CommandLine

/-
The command.

This module only moves bytes and texts between the system and the library.
-/

set_option autoImplicit false

namespace OperatorCalculator
namespace CommandLine

/-- Reads the bytes of a line, with the newline byte that ends it. -/
partial def readLine (input : IO.FS.Stream) (bytes : ByteArray) : IO ByteArray := do
  let next ← input.read 1
  if next.isEmpty then
    return bytes
  else if next == ⟨#[10]⟩ then
    return bytes ++ next
  else
    readLine input (bytes ++ next)

/-- Performs acts on the streams of the system, and tells whether the session goes on. -/
def performAll (output log : IO.FS.Stream) : List Act → IO Bool
  | [] => return true
  | .write text :: acts => do
      output.putStr text
      output.flush
      performAll output log acts
  | .note event :: acts => do
      for line in logLines [event] do
        log.putStrLn line
      performAll output log acts
  | .giveUp :: _ => do
      log.putStrLn "stream did not contain valid UTF-8"
      return false

partial def converse (settings : Settings) (input output log : IO.FS.Stream) :
    IO UInt32 := do
  output.putStr settings.prompt
  output.flush
  let line ← readLine input .empty
  if line.isEmpty then
    return 0
  else if ← performAll output log (Session.respond settings (listener settings) line) then
    converse settings input output log
  else
    return 1

end CommandLine
end OperatorCalculator

open OperatorCalculator OperatorCalculator.CommandLine in
def main (arguments : List String) : IO UInt32 := do
  let output ← IO.getStdout
  let log ← IO.getStderr
  match request arguments with
  | .error stop =>
      output.putStr stop.output
      if let some complaint := stop.complaint? then
        log.putStrLn ("error: " ++ complaint)
      return stop.exitCode.toUInt32
  | .ok (.evaluate settings expressions) =>
      for expression in expressions do
        let (text, events) := (settings.answer (listener settings) expression).run #[]
        for line in logLines events.toList do
          log.putStrLn line
        output.putStrLn text
      return 0
  | .ok (.converse settings) =>
      converse settings (← IO.getStdin) output log
