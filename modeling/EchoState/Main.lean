import EchoState.Command.Invocation
import EchoState.Command.Run
import EchoState.Decimal.Text
import EchoState.Draws.Uniform
import EchoState.Scalar.Float

/-!
# The command line

Reads the arguments, carries out the request and prints its transcript.
-/

open EchoState EchoState.Command

/-- The flags and what they decide. -/
def usageText : String :=
  "reservoir - settle a tanh reservoir and print its linear readout\n\n" ++
    "flags: --input, -k  --output, -m  --latent, -n  --max-steps  --tolerance  --timescale\n" ++
    "       --gamma  --random  --seed  --simulate  --drive  --level  --compare  --probe\n" ++
    "       --dump  --profile  --help, -h  --version, -v\n"

def main (arguments : List String) : IO UInt32 := do
  match Invocation.ofArguments arguments with
  | .error error =>
      IO.eprintln ("reservoir: " ++ error.message)
      return 1
  | .ok .help =>
      IO.print usageText
      return 0
  | .ok (.unknownTopic topic) =>
      IO.eprint (unknownTopicText topic)
      return UInt32.ofNat unknownTopicCode
  | .ok .version =>
      IO.print versionLine
      return 0
  | .ok (.run request) =>
      let transcript := request.run Draws.uniforms
      IO.print transcript.output
      IO.eprint (transcript.logText ++ transcript.errorText)
      return UInt32.ofNat transcript.exitCode
