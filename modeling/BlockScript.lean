import BlockScript.CommandLine.Directory
import BlockScript.Main
import BlockScript.Proofs.Heap.Closed
import BlockScript.Proofs.Verifier.Heights
import BlockScript.Proofs.World.Closed
import BlockScript.Proofs.Builtin.Sound
import BlockScript.Proofs.Machine.Invariant
import BlockScript.Proofs.Machine.StackSafety
import BlockScript.Proofs.Backend.Recorded
import BlockScript.Proofs.Backend.Verified
import BlockScript.Proofs.Backend.SameUnit
import BlockScript.Proofs.Backend.Poison
import BlockScript.Proofs.Backend.Restored
import BlockScript.Proofs.Backend.CodeTable
import BlockScript.Proofs.Backend.Script
import BlockScript.Proofs.Artifact.RoundTrip
import BlockScript.Proofs.Backend.Mirrored
import BlockScript.Proofs.Node.Balanced
import BlockScript.Proofs.Value.Shown
import BlockScript.Proofs.World.Alike
import BlockScript.Proofs.Code.Alike
import BlockScript.Proofs.Machine.Shown
import BlockScript.Proofs.Builtin.Alike
import BlockScript.Proofs.Machine.Alike
import BlockScript.Proofs.Value.Depth
import BlockScript.Proofs.Machine.Runs
import BlockScript.Proofs.Machine.StepLimit
import BlockScript.Proofs.Contract.Acceptance
import BlockScript.Proofs.Machine.Lockstep
import BlockScript.Proofs.Backend.Installed
import BlockScript.Proofs.Backend.Dated
import BlockScript.Proofs.Backend.Inscribed
import BlockScript.Proofs.Node.Attributed
import BlockScript.Proofs.Machine.Traced
import BlockScript.Proofs.Backend.Limited
import BlockScript.Proofs.Builtin.Effect
import BlockScript.Proofs.Machine.Effect
import BlockScript.Proofs.World.Provenance
import BlockScript.Proofs.Machine.Provenance
import BlockScript.Proofs.Machine.Literals
import BlockScript.Proofs.Machine.Recurring
import BlockScript.Proofs.Machine.Related
import BlockScript.Proofs.Machine.Reloaded
import BlockScript.Proofs.Backend.Lineage
import BlockScript.Proofs.Backend.Lexical
import BlockScript.Proofs.Machine.Scope
import BlockScript.Proofs.Machine.Closures
import BlockScript.Proofs.Builder.Lines
import BlockScript.Proofs.Builder.History
import BlockScript.Proofs.Value.Bisimilar
import BlockScript.Proofs.Verifier.Decides
import BlockScript.Proofs.Value.Unfolding
import BlockScript.Proofs.Backend.Forest
import BlockScript.Proofs.Node.Agreement
import BlockScript.Proofs.Unit.Handles
import BlockScript.Proofs.Node.Need
import BlockScript.Proofs.Machine.Integers
import BlockScript.Proofs.Machine.Elements
import BlockScript.Proofs.Backend.Reached
import BlockScript.Proofs.Backend.Replayed
import BlockScript.Proofs.Backend.Idempotent
import BlockScript.Proofs.Backend.Numbers
import BlockScript.Proofs.Backend.Unchecked
import BlockScript.Proofs.Builtin.Errors
import BlockScript.Proofs.Machine.Declared
import BlockScript.Proofs.Machine.Calls
import BlockScript.Proofs.Artifact.Interning
import BlockScript.Proofs.Backend.Turns
