import EchoState.Command.Invocation
import EchoState.Command.Run
import EchoState.Decimal.Text
import EchoState.Draws.Uniform
import EchoState.Main
import EchoState.Matrix.Closeness
import EchoState.Matrix.Selector
import EchoState.Matrix.Text
import EchoState.Reservoir.Drive
import EchoState.Reservoir.FixedPoint
import EchoState.Reservoir.Operation
import EchoState.Reservoir.Text
import EchoState.Warping.Alignment
import EchoState.Proofs.Reservoir.Invariant
import EchoState.Proofs.Warping.Optimality
import EchoState.Proofs.Reservoir.Buffers
import EchoState.Proofs.Reservoir.Atomic
import EchoState.Proofs.Reservoir.Settling
import EchoState.Proofs.Reservoir.Simulation
import EchoState.Proofs.Binary64.Exact
import EchoState.Proofs.Scalar.Enclosure
import EchoState.Proofs.Scalar.Tangent
import EchoState.Proofs.Scalar.InverseTangent
import EchoState.Proofs.Scalar.Activation
import EchoState.Proofs.Scalar.Unit
import EchoState.Proofs.Reservoir.Rest
import EchoState.Proofs.Reservoir.Base
import EchoState.Proofs.Reservoir.Observation
import EchoState.Proofs.Reservoir.Boundedness
import EchoState.Proofs.Command.Outcome
import EchoState.Proofs.Command.Comparison
import EchoState.Proofs.Command.Independence
import EchoState.Proofs.Reservoir.Tolerance
import EchoState.Proofs.Warping.Backtracking
import EchoState.Proofs.Matrix.Walk
import EchoState.Proofs.Matrix.Representation
import EchoState.Proofs.Matrix.VectorProduct
import EchoState.Proofs.Distance.Supremum
import EchoState.Proofs.Scalar.Gap
import EchoState.Proofs.Scalar.Absorption
import EchoState.Proofs.Scalar.Real
import EchoState.Proofs.Scalar.Overflow
import EchoState.Proofs.Reservoir.Step
import EchoState.Proofs.Reservoir.Absorption
import EchoState.Proofs.Reservoir.Placement
import EchoState.Proofs.Reservoir.FixedPoint
import EchoState.Proofs.Reservoir.Overflow
import EchoState.Proofs.Reservoir.Acceptance
import EchoState.Proofs.Scalar.Unrounded
import EchoState.Proofs.Reservoir.Relaxation
import EchoState.Proofs.Scalar.Equality
import EchoState.Proofs.Reservoir.Equilibrium
import EchoState.Proofs.Reservoir.Chunks
import EchoState.Proofs.Warping.Separation
import EchoState.Proofs.Warping.Symmetry
import EchoState.Proofs.Warping.Stretching
import EchoState.Proofs.Warping.Monotonicity
import EchoState.Proofs.Scalar.Extent
import EchoState.Proofs.Warping.Reachability
import EchoState.Proofs.Distance.Extent
import EchoState.Proofs.Warping.Representation
import EchoState.Proofs.Warping.Extent
import EchoState.Proofs.Reservoir.Drive
import EchoState.Proofs.Reservoir.Assignment
import EchoState.Proofs.Warping.SingleChannel
import EchoState.Proofs.Binary64.Product
import EchoState.Proofs.Matrix.Closeness
import EchoState.Proofs.Matrix.Search
import EchoState.Proofs.Matrix.Registers
import EchoState.Proofs.Reservoir.Probe
import EchoState.Proofs.Decimal.Shortest
import EchoState.Proofs.Decimal.Text
import EchoState.Proofs.Scalar.Legible
import EchoState.Proofs.Matrix.Text
