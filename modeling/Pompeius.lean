import Pompeius.Lib.Run
import Pompeius.Lib.Shuffle
import Pompeius.Lib.Overlay
import Pompeius.Lib.Matching
import Pompeius.Model.Device
import Pompeius.Model.App
import Pompeius.Proofs.Password
import Pompeius.Proofs.Life
import Pompeius.Proofs.Stages
import Pompeius.Proofs.History
import Pompeius.Proofs.Documents
import Pompeius.Proofs.Coherence
import Pompeius.Proofs.Isolation
import Pompeius.Proofs.LastWins
import Pompeius.Proofs.Registration
import Pompeius.Proofs.Soundness
import Pompeius.Proofs.Wizard
import Pompeius.Proofs.Drops
import Pompeius.Proofs.BackAndForth
import Pompeius.Proofs.Traps
import Pompeius.Proofs.Refusals
import Pompeius.Proofs.Progress
import Pompeius.Proofs.Provenance
import Pompeius.Proofs.Photos
import Pompeius.Proofs.Sheets
import Pompeius.Proofs.Visits
import Pompeius.Proofs.Labels
import Pompeius.Proofs.Session
import Pompeius.Proofs.Members
import Pompeius.Model.Firestore
import Pompeius.Proofs.WritePipeline
import Pompeius.Proofs.WriteStream
import Pompeius.Proofs.WriteSteps
import Pompeius.Proofs.WriteLedger
import Pompeius.Lib.Overwrite
import Pompeius.Proofs.Resends
import Pompeius.Proofs.Deliveries
import Pompeius.Proofs.WriteDrain
import Pompeius.Lib.Segments
import Pompeius.Model.Storage
import Pompeius.Proofs.StorageURL
import Pompeius.Proofs.Links
import Pompeius.Model.Rules
import Pompeius.Proofs.Rules
