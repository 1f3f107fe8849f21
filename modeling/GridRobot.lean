import GridRobot.Level
import GridRobot.Machine.Walk
import GridRobot.Main
import GridRobot.Program.Outline
import GridRobot.Session
import GridRobot.World.Picture
import GridRobot.Proofs.Compilation
import GridRobot.Proofs.Reachability
import GridRobot.Proofs.ProperSources
import GridRobot.Proofs.Replay
import GridRobot.Proofs.Rerun
import GridRobot.Proofs.Connectivity
import GridRobot.Proofs.Grammar.Complete
import GridRobot.Proofs.Safety
import GridRobot.Proofs.Forms.Document
import GridRobot.Proofs.Forms.Spelling
import GridRobot.Proofs.Lines
import GridRobot.Proofs.Forms.Text
import GridRobot.Proofs.Forms.Agreement
import GridRobot.Proofs.Conservation
import GridRobot.Proofs.Dispatch
import GridRobot.Proofs.Winning
import GridRobot.Proofs.Layout
import GridRobot.Proofs.Restoration
import GridRobot.Proofs.Divergence
import GridRobot.Proofs.Grammar.Locality
import GridRobot.Proofs.Grammar.Sites
import GridRobot.Proofs.Grammar.Dialects
import GridRobot.Proofs.Headings
import GridRobot.Proofs.Segmentation
import GridRobot.Proofs.Conditions.Expressions
import GridRobot.Proofs.Conditions.Precedence
import GridRobot.Proofs.Conditions.Readback
import GridRobot.Proofs.Guards
import GridRobot.Proofs.Obstacles
import GridRobot.Proofs.Documents.Numbering
import GridRobot.Proofs.Documents.Unfolding
import GridRobot.Proofs.Stopping
import GridRobot.Proofs.Budgets
import GridRobot.Proofs.Accounting
import GridRobot.Proofs.Retracing
import GridRobot.Proofs.Documents.Quotations
import GridRobot.Proofs.Grammar.Deletion
import GridRobot.Proofs.Spacing
import GridRobot.Proofs.Blame
import GridRobot.Proofs.Placement
import GridRobot.Proofs.Grammar.Calls
import GridRobot.Proofs.Grammar.Progress
import GridRobot.Proofs.Termination
import GridRobot.Proofs.Forms.Chains
