import Transact.Bytes
import Transact.FixedList
import Transact.Text.Base58
import Transact.Text.Hex
import Transact.Address
import Transact.Hash
import Transact.Signature
import Transact.CompactLength
import Transact.Payload.Layout
import Transact.Message.Versioned
import Transact.Message.Wire
import Transact.Message.Layouts
import Transact.Compile.Message
import Transact.Ed25519.Scheme
import Transact.Transaction.Signing
import Transact.Proofs.Classification
import Transact.Proofs.Decompilation
import Transact.Proofs.Recognition
import Transact.Proofs.WrittenTransactions
import Transact.Proofs.AcceptedBytes
import Transact.Proofs.SignedBytes
import Transact.Proofs.PayloadForm
import Transact.Proofs.SaneCompilation
import Transact.Proofs.AcceptedPayloads
import Transact.Proofs.Arrival
import Transact.Proofs.Gathering
import Transact.Proofs.Authorization
import Transact.Proofs.Truncation
import Transact.Proofs.Rearrangement
import Transact.Proofs.FormatComparison
import Transact.Proofs.Recompilation
import Transact.Proofs.SaneMessages
import Transact.Proofs.Sizes
import Transact.Proofs.CompileFaults
import Transact.Proofs.SigningOutcomes
import Transact.Proofs.ShortPayloads
import Transact.Proofs.LoadedKeys
import Transact.Proofs.CanonicalTexts
import Transact.Proofs.CarriedPermissions
import Transact.Proofs.AcceptedLengths
import Transact.Proofs.FirstPlaces
import Transact.Proofs.KeptKeys
