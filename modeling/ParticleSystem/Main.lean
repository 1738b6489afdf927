import ParticleSystem.Emitter.Report

open ParticleSystem

/-- The contents of a file, none when it cannot be read. -/
def readContents (path : String) : IO (Option ByteArray) := do
  try
    return some (← IO.FS.readBinFile path)
  catch _ => return none

def main (arguments : List String) : IO UInt32 := do
  let request ←
    match arguments with
    | [] => pure .builtIn
    | path :: _ => Request.file <$> readContents path
  let outcome := request.run
  IO.print outcome.output
  return outcome.exitCode.toUInt32
