import PixelTurtle.Canvas.Remote
import PixelTurtle.Host.CommandLine
import PixelTurtle.Host.Request
import PixelTurtle.Main
import PixelTurtle.Proofs.Meaning
import PixelTurtle.Proofs.Action
import PixelTurtle.Proofs.Rounding
import PixelTurtle.Proofs.Lines
import PixelTurtle.Proofs.Outcomes
import PixelTurtle.Proofs.Refinement
import PixelTurtle.Proofs.Reachable
import PixelTurtle.Proofs.Events
import PixelTurtle.Proofs.Spending
import PixelTurtle.Proofs.Driving
import PixelTurtle.Proofs.Budget
import PixelTurtle.Proofs.Engines
import PixelTurtle.Proofs.Endings
import PixelTurtle.Proofs.Replay
import PixelTurtle.Proofs.Grammar
import PixelTurtle.Proofs.Layout
import PixelTurtle.Proofs.Proper
import PixelTurtle.Proofs.Safety
import PixelTurtle.Proofs.Printer
import PixelTurtle.Proofs.Spelling
import PixelTurtle.Proofs.ExprRoundTrip
import PixelTurtle.Proofs.StatementRoundTrip
import PixelTurtle.Proofs.RoundTrip
import PixelTurtle.Proofs.Changes
import PixelTurtle.Proofs.Results
import PixelTurtle.Proofs.Plan
import PixelTurtle.Proofs.SideBySide
import PixelTurtle.Proofs.Position
import PixelTurtle.Proofs.Picture
import PixelTurtle.Proofs.View
import PixelTurtle.Proofs.Observers
import PixelTurtle.Proofs.Requests
import PixelTurtle.Proofs.Bounds
import PixelTurtle.Proofs.Truncation
import PixelTurtle.Proofs.Limits
import PixelTurtle.Proofs.Complaints
import PixelTurtle.Proofs.LineCells
import PixelTurtle.Proofs.Placement
import PixelTurtle.Proofs.Edits
import PixelTurtle.Proofs.Reports
import PixelTurtle.Proofs.Heading
import PixelTurtle.Proofs.Replies
import PixelTurtle.Proofs.Evaluation
import PixelTurtle.Proofs.Faults
import PixelTurtle.Proofs.FullLog
import PixelTurtle.Proofs.Seams
import PixelTurtle.Proofs.Pieces
import PixelTurtle.Proofs.Shortcuts
import PixelTurtle.Proofs.Entries
import PixelTurtle.Proofs.Trail
import PixelTurtle.Proofs.AfterFailure
import PixelTurtle.Proofs.Motions
import PixelTurtle.Proofs.Nesting
import PixelTurtle.Proofs.Variables
import PixelTurtle.Proofs.Capitals
import PixelTurtle.Proofs.Columns
import PixelTurtle.Proofs.Refusals
import PixelTurtle.Proofs.Culprits
import PixelTurtle.Proofs.Amounts
import PixelTurtle.Proofs.Wrapping
import PixelTurtle.Proofs.Ranges
import PixelTurtle.Proofs.Integers
import PixelTurtle.Proofs.Symmetry
import PixelTurtle.Proofs.Documents
