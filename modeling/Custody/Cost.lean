import Custody.Failure
import Custody.Json.Schema

/-!
What a key derivation costs. Three named costs suit most uses; the limits bound what the cost that a
saved file names may make a reader spend.
-/

namespace Custody

/-- What a derivation costs: memory in KiB, passes over it, and lanes. -/
structure Cost where
  memory : UInt32
  time : UInt32
  parallelism : UInt32
deriving DecidableEq, Repr

namespace Cost

def interactive : Cost := ⟨65536, 3, 4⟩

def moderate : Cost := ⟨32768, 3, 2⟩

def sensitive : Cost := ⟨262144, 4, 4⟩

def named (name : String) : Except Failure Cost :=
  if name = "interactive" then .ok interactive
  else if name = "moderate" then .ok moderate
  else if name = "sensitive" then .ok sensitive
  else .error (.invalidInput
    s!"Unknown KDF strength '{name}': use interactive, moderate, or sensitive")

/-- Tells whether a cost is one that a saved file may ask for. -/
def withinLimits (c : Cost) : Bool :=
  1 ≤ c.memory && c.memory ≤ 262144 && 1 ≤ c.time && c.time ≤ 16 &&
    1 ≤ c.parallelism && c.parallelism ≤ 16

def describe (c : Cost) : String :=
  "KdfParams \x7b " ++ s!"memory_cost: {c.memory}, time_cost: {c.time}, parallelism: {c.parallelism}"
    ++ " \x7d"

def schema : Json.Schema [UInt32, UInt32, UInt32] :=
  .field "memory_cost" .word32 none <| .field "time_cost" .word32 none <|
    .field "parallelism" .word32 none .nil

def codec : Json.Codec Cost :=
  schema.codec "KdfParams" (fun c => (c.memory, c.time, c.parallelism, ()))
    fun (m, t, p, ()) => ⟨m, t, p⟩

end Cost

end Custody
