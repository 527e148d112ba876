import MailVault.Proofs.Transit.Accounting
import MailVault.Proofs.Transit.Reconstruction
import MailVault.Proofs.Transit.Segmentation
import MailVault.Proofs.Transit.SplitInvariance
import MailVault.Store.Ledger
import MailVault.Workspace.Engines
import MailVault.Workspace.Savers
import MailVault.Proofs.Store.Written
import MailVault.Proofs.Store.Chronicle
import MailVault.Proofs.Store.Equivalence
import MailVault.Proofs.Store.Interleaving
import MailVault.Proofs.Store.Lifecycle
import MailVault.Proofs.Store.Notes
import MailVault.Proofs.Transit.Books
import MailVault.Proofs.Transit.Renewal
import MailVault.Proofs.Transit.Rescan
import MailVault.Proofs.Transit.Forwarding
import MailVault.Proofs.Transit.RecordLife
import MailVault.Proofs.Transit.RecordContents
import MailVault.Proofs.Message.Decoding
import MailVault.Proofs.Message.Agreement
import MailVault.Proofs.Message.Reading
import MailVault.Proofs.Saver.Retry
import MailVault.Proofs.Saver.Sizes
import MailVault.Proofs.Address.Canonical
import MailVault.Proofs.Address.DisplayName
import MailVault.Proofs.Chunk.Spelling
import MailVault.Proofs.Transit.Contents
import MailVault.Proofs.Blake3.Requests
import MailVault.Proofs.Transit.Rounds
import MailVault.Proofs.Transit.Offsets
