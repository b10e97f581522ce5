import SnapshotPlan.Main
import SnapshotPlan.Dimacs.Reader
import SnapshotPlan.Proofs.Encoding.Clauses
import SnapshotPlan.Proofs.Encoding.Meaning
import SnapshotPlan.Proofs.Oracle.Contract
import SnapshotPlan.Proofs.Planner.Stages
import SnapshotPlan.Proofs.Encoding.Decoding
import SnapshotPlan.Proofs.Planner.Soundness
import SnapshotPlan.Proofs.Oracle.Search
import SnapshotPlan.Proofs.Encoding.Shape
import SnapshotPlan.Proofs.Encoding.Tallies
import SnapshotPlan.Proofs.Planner.Satisfiable
import SnapshotPlan.Proofs.World.Sessions
import SnapshotPlan.Proofs.Planner.Refusals
import SnapshotPlan.Proofs.Oracle.Verdict
import SnapshotPlan.Proofs.Text.Reading
import SnapshotPlan.Proofs.Dimacs.RoundTrip
import SnapshotPlan.Proofs.Oracle.Answers
import SnapshotPlan.Proofs.Oracle.Transcript
import SnapshotPlan.Proofs.Dimacs.Lines
import SnapshotPlan.Proofs.Planner.Protocol
import SnapshotPlan.Dimacs.Conversion
import SnapshotPlan.Proofs.Dimacs.Stability
import SnapshotPlan.Proofs.Blocks.Consistency
import SnapshotPlan.Proofs.Blocks.Tower
import SnapshotPlan.Proofs.Blocks.Standstill
import SnapshotPlan.Proofs.Settings.Decision
import SnapshotPlan.Proofs.Blocks.Arrangement
import SnapshotPlan.Proofs.Planner.Standstill
import SnapshotPlan.Proofs.Text.Unicode
import SnapshotPlan.Proofs.Encoding.Places
import SnapshotPlan.Proofs.Planner.Formulas
import SnapshotPlan.Proofs.Encoding.Inverse
import SnapshotPlan.Proofs.Encoding.Renumbering
import SnapshotPlan.Proofs.World.Tables
import SnapshotPlan.Proofs.World.Writes
import SnapshotPlan.Proofs.Blocks.Census
import SnapshotPlan.Proofs.Logic.Lookup
import SnapshotPlan.Proofs.Logic.Words
import SnapshotPlan.Proofs.Planner.Printing
import SnapshotPlan.Proofs.Command.Configuration
