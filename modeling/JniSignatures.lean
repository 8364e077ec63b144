import JniSignatures.Audit.Run
import JniSignatures.Launch.Run
import JniSignatures.Main
import JniSignatures.Proofs.Audit.Agreement
import JniSignatures.Proofs.Pass.Course
import JniSignatures.Proofs.Pass.Rerun
import JniSignatures.Proofs.Pass.Result
import JniSignatures.Proofs.Pass.Steps
import JniSignatures.Proofs.Pass.Policy
import JniSignatures.Proofs.Pass.Order
import JniSignatures.Proofs.Files.Places
import JniSignatures.Proofs.Files.Gains
import JniSignatures.Proofs.Host.Jobs
import JniSignatures.Proofs.Report.Leaving
import JniSignatures.Proofs.Launch.Success
import JniSignatures.Proofs.Pass.Accounting
import JniSignatures.Proofs.Pass.Availability
import JniSignatures.Proofs.Pass.Memory
import JniSignatures.Proofs.Pass.Deeds
import JniSignatures.Proofs.Pass.Conduct
import JniSignatures.Proofs.Symbol.Decoding
import JniSignatures.Proofs.Script.Course
import JniSignatures.Proofs.Script.Custody
import JniSignatures.Proofs.Files.Footprint
import JniSignatures.Proofs.Script.Setup
import JniSignatures.Proofs.Launch.Handover
import JniSignatures.Proofs.Launch.Completion
import JniSignatures.Proofs.Symbol.Linking
import JniSignatures.Proofs.Pass.Sorting
import JniSignatures.Proofs.Methods.Schema
import JniSignatures.Proofs.Files.Creating
import JniSignatures.Proofs.Script.Aftermath
import JniSignatures.Proofs.Launch.Tokens
import JniSignatures.Proofs.Script.Archives
import JniSignatures.Proofs.Audit.Tampering
import JniSignatures.Proofs.Pass.Naming
import JniSignatures.Proofs.Methods.Loading
