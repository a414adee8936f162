import Landmark.Document.Stored
import Landmark.Locator.Basic
import Landmark.Locator.Stored
import Landmark.Memory.Buffer
import Landmark.Proofs.Indexing
import Landmark.Proofs.Mirroring
import Landmark.Proofs.OutsideEdits
import Landmark.Proofs.Rollback
import Landmark.Proofs.SearchedOnce
import Landmark.Proofs.Transparency
import Landmark.Proofs.Unaltered
import Landmark.Store.Files
import Landmark.Store.Held
import Landmark.Task
import Landmark.Proofs.Captures
import Landmark.Proofs.OperandText
import Landmark.Proofs.Scanning
import Landmark.Proofs.Operations
import Landmark.Proofs.Denotation
import Landmark.Proofs.KnownAddresses
import Landmark.Proofs.MemoryAccess
import Landmark.Proofs.Relocation
import Landmark.Proofs.Validity
import Landmark.Proofs.Completion
import Landmark.Proofs.Conversion
import Landmark.Proofs.Positions
import Landmark.Proofs.Queries
import Landmark.Proofs.Bindings
import Landmark.Proofs.Names
import Landmark.Proofs.Settling
import Landmark.Proofs.Strictness
import Landmark.Proofs.OperandForms
import Landmark.Proofs.SkipDistances
import Landmark.Proofs.ComputedSums
import Landmark.Proofs.Towers
import Landmark.Proofs.Ambiguity
import Landmark.Proofs.StoredSignatures
import Landmark.Proofs.EntryChanges
import Landmark.Proofs.SignatureGrammar
import Landmark.Proofs.TrimmedOccurrences
import Landmark.Proofs.DistanceText
import Landmark.Proofs.MaximalRuns
import Landmark.Proofs.TypedReads
import Landmark.Proofs.ModuleSearch
