import PushGuard.Main
import PushGuard.Binary
import PushGuard.Proofs.StateOrder
import PushGuard.Proofs.Transfer
import PushGuard.Proofs.Pass
import PushGuard.Proofs.Paths
import PushGuard.Proofs.ForwardPaths
import PushGuard.Proofs.Loops
import PushGuard.Proofs.KnownEffects
import PushGuard.Proofs.EarlyExit
import PushGuard.Proofs.Heights
import PushGuard.Proofs.InverseScans
import PushGuard.Proofs.Strictness
import PushGuard.Proofs.BuilderRuns
import PushGuard.Proofs.Encoding
import PushGuard.Proofs.CalleeText
import PushGuard.Proofs.IntegerText
import PushGuard.Proofs.IntegerOperands
import PushGuard.Proofs.OperandText
import PushGuard.Proofs.Rendering
import PushGuard.Proofs.ProducerStack
import PushGuard.Proofs.StraightLine
import PushGuard.Proofs.NopInsertion
import PushGuard.Proofs.BlockLines
import PushGuard.Proofs.ListingLabels
import PushGuard.Proofs.StringLiterals
import PushGuard.Proofs.ListingComposition
import PushGuard.Proofs.NumberedLabels
import PushGuard.Proofs.FaultLines
import PushGuard.Proofs.Remarks
import PushGuard.Proofs.HandlerEntries
import PushGuard.Proofs.Locality
import PushGuard.Proofs.CodeStream
import PushGuard.Proofs.Positions
import PushGuard.Proofs.SectionEncoding
import PushGuard.Proofs.Truncation
import PushGuard.Proofs.HeaderFields
import PushGuard.Proofs.SectionBounds
import PushGuard.Proofs.ScanOutcomes
import PushGuard.Proofs.JoinHistory
import PushGuard.Proofs.Neighbours
