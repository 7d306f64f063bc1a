import EchoState.Matrix.Text
import EchoState.Reservoir.Basic

/-!
# Reservoir text

A dump of every part of a reservoir: the dimensions, the three weight matrices, the vectors, the
record of past steps and the settings of the integration. Matrices and vectors take the given
number of decimal places, all other numbers their fewest digits.
-/

namespace EchoState

def dumpRule : String :=
  "--------------------\n"

namespace Reservoir

variable {α : Type} [Scalar α] [Legible α] {d : Dims}

def format (places : Int) (r : Reservoir α d) : String :=
  let vector {n : Nat} (name : String) (v : Vector α n) : String :=
    name ++ ": " ++ bracketed places v.toList ++ "\n"
  let matrix (name : String) (m : Matrix α) : String :=
    name ++ ":\n" ++ m.format places
  String.join
    [ dumpRule
    , "Reservoir Parameters\n"
    , "k=" ++ toString d.inputs ++ " m=" ++ toString d.outputs
        ++ " n=" ++ toString d.latents ++ "\n"
    , matrix "A" (.ofGrid r.recurrent)
    , matrix "B" (.ofGrid r.inputWeights)
    , matrix "W" ⟨d.outputs, d.latents, r.readoutWeights⟩
    , vector "x" r.input
    , vector "d" r.bias
    , vector "r" r.state
    , vector "r*" r.fixedPoint
    , vector "x*" r.fixedInput
    , "converged: " ++ toString r.converged ++ " steps: " ++ toString r.steps ++
        " delta: " ++ Legible.general r.lastDelta ++ "\n"
    , "global_timescale: " ++ Legible.general r.settings.timescale ++ "\n"
    , "1/gamma: " ++ Legible.general (1 / r.settings.gamma) ++ "\n"
    , dumpRule ]

def text (r : Reservoir α d) : String :=
  r.format (-1)

end Reservoir

end EchoState
