import CodeAtlas.Http.Service
import CodeAtlas.Logging.Setup
import CodeAtlas.Main
import CodeAtlas.Service.Reading
import CodeAtlas.Service.Session
import CodeAtlas.Proofs.Calls.Scan
import CodeAtlas.Proofs.Calls.Sound
import CodeAtlas.Proofs.Calls.Complete
import CodeAtlas.Proofs.Inventory.Calls
import CodeAtlas.Proofs.Cache.Entries
import CodeAtlas.Proofs.Service.Transparency
import CodeAtlas.Proofs.Cache.History
import CodeAtlas.Proofs.Service.Reuse
import CodeAtlas.Proofs.Inventory.Identifier
import CodeAtlas.Proofs.Inventory.WellFormed
import CodeAtlas.Proofs.Canvas.Graph
import CodeAtlas.Proofs.Diagram.Calls
import CodeAtlas.Proofs.Diagram.Lines
import CodeAtlas.Proofs.Service.Cycles
import CodeAtlas.Proofs.Service.Outcome
import CodeAtlas.Proofs.Inventory.Declarations
import CodeAtlas.Proofs.Inventory.Agreement
import CodeAtlas.Proofs.Syntax.Change
import CodeAtlas.Proofs.Inventory.Resemblance
import CodeAtlas.Proofs.Inventory.Change
import CodeAtlas.Proofs.Service.Failing
import CodeAtlas.Proofs.Text.Points
import CodeAtlas.Proofs.Text.Scalar
import CodeAtlas.Proofs.Text.Utf8
import CodeAtlas.Proofs.Inventory.Invariant
import CodeAtlas.Proofs.Inventory.Scalar
import CodeAtlas.Proofs.Diagram.Shape
import CodeAtlas.Proofs.Json.Strings
import CodeAtlas.Proofs.Json.Reading
import CodeAtlas.Proofs.Http.Gate
import CodeAtlas.Proofs.Http.Submission
import CodeAtlas.Proofs.Service.Encodable
import CodeAtlas.Proofs.Service.Frontends
import CodeAtlas.Proofs.Cache.Inclusion
import CodeAtlas.Proofs.Diagnosis.Faults
import CodeAtlas.Proofs.Syntax.Location
import CodeAtlas.Proofs.Diagnosis.Places
import CodeAtlas.Proofs.Diagram.Entities
import CodeAtlas.Proofs.Cache.Balance
import CodeAtlas.Proofs.Service.Balance
import CodeAtlas.Proofs.Calls.Recursion
import CodeAtlas.Proofs.Inventory.Scopes
import CodeAtlas.Proofs.Inventory.Concatenation
import CodeAtlas.Proofs.Calls.Repetition
import CodeAtlas.Proofs.Syntax.Placed
import CodeAtlas.Proofs.Text.LetterCase
import CodeAtlas.Proofs.Diagnosis.Hints
import CodeAtlas.Proofs.Inventory.Imports
import CodeAtlas.Proofs.Canvas.Grid
import CodeAtlas.Proofs.Settings.Resolution
import CodeAtlas.Proofs.CommandLine.Serving
import CodeAtlas.Proofs.Syntax.Slice
import CodeAtlas.Proofs.Text.ReadBack
import CodeAtlas.Proofs.Service.Digests
import CodeAtlas.Proofs.Calls.Course
import CodeAtlas.Proofs.Calls.Exhaustive
