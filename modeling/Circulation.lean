import Circulation.Session.FileStore
import Circulation.Json.Form
import Circulation.Session.Run
import Circulation.Proofs.Drafting
import Circulation.Proofs.Ranking
import Circulation.Proofs.Restoring
import Circulation.Proofs.WellFormed
import Circulation.Proofs.Chains
import Circulation.Proofs.Scan
import Circulation.Proofs.CodecLaws
import Circulation.Proofs.LayoutLaws
import Circulation.Proofs.Storing
import Circulation.Proofs.Derivation
import Circulation.Proofs.Parsing
import Circulation.Proofs.RoundTrip
import Circulation.Proofs.BestMatch
import Circulation.Proofs.Collecting
import Circulation.Proofs.Reading
import Circulation.Proofs.FirstFault
import Circulation.Proofs.Writing
import Circulation.Proofs.StepTexts
import Circulation.Proofs.StoredForms
import Circulation.Proofs.Stability
import Circulation.Proofs.Headers
import Circulation.Proofs.Damage
import Circulation.Proofs.Concatenation
import Circulation.Proofs.RecordOrder
import Circulation.Proofs.Appending
import Circulation.Proofs.Rendering
import Circulation.Proofs.Respelling
import Circulation.Proofs.Steps
import Circulation.Proofs.Snapshots
import Circulation.Proofs.Applying
import Circulation.Proofs.Tracing
import Circulation.Proofs.Branches
import Circulation.Proofs.FreeWords
import Circulation.Proofs.Keywords
import Circulation.Proofs.Repetitions
import Circulation.Proofs.IdLists
import Circulation.Proofs.Remainders
import Circulation.Proofs.Continuations
import Circulation.Proofs.EarlyEnds
import Circulation.Proofs.Margins
import Circulation.Proofs.JsonForms
import Circulation.Proofs.Backtracking
import Circulation.Proofs.Progress
