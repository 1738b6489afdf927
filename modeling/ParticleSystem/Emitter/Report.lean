import ParticleSystem.Emitter.Run
import ParticleSystem.Form.Config

namespace ParticleSystem

/-- The report of a run, one line for each entry. -/
def RunSummary.report (s : RunSummary Float32) : String :=
  let line (label value : String) : String := label ++ value ++ "\n"
  line "ticks       " (Nat.repr s.ticks) ++ line "spawned     " (Nat.repr s.spawned) ++
    line "alive       " (Nat.repr s.alive) ++ line "expired     " (Nat.repr s.expired) ++
    line "collisions  " (Nat.repr s.collisions) ++
      line "min world z " (Decimal.fixedText 4 s.minWorldZ)

/-- What the program is asked to run. -/
inductive Request
  | builtIn
  /-- A file, by its contents; there are none when it cannot be read. -/
  | file (contents : Option ByteArray)

/-- What the program leaves behind. -/
structure Outcome where
  exitCode : UInt8
  output : String

def Request.config : Request → Except ConfigError (Config Float32)
  | .builtIn => .ok .default
  | .file contents => Config.ofContents contents

/-- Runs a request: code 1 without a configuration, 101 when the run breaks off. -/
def Request.run (request : Request) : Outcome :=
  match request.config with
  | .error _ => ⟨1, ""⟩
  | .ok config =>
    match Emitter.run (Emitter.ofConfig config : Emitter Float32 UInt8) with
    | .ok summary _ => ⟨0, summary.report⟩
    | .error _ _ => ⟨101, ""⟩

end ParticleSystem
