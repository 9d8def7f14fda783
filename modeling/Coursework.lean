import Coursework.Endpoint.Bench
import Coursework.Json.Access
import Coursework.Keyring
import Coursework.Main
import Coursework.Proofs.Desk.Sound
import Coursework.Proofs.Admission
import Coursework.Proofs.Desk.AttemptCap
import Coursework.Proofs.Desk.SlidingWindow
import Coursework.Proofs.Request.Schema
import Coursework.Proofs.Request.Stages
import Coursework.Proofs.Authorization
import Coursework.Proofs.Confinement.Endpoints
import Coursework.Proofs.Locks.Upkeep
import Coursework.Proofs.Nonces
import Coursework.Proofs.Submit
import Coursework.Proofs.Time.Rfc3339
import Coursework.Proofs.Json.Records
import Coursework.Proofs.Transport.Envelope
import Coursework.Proofs.Transport.Form
import Coursework.Proofs.Transport.Paths
import Coursework.Proofs.Endpoint.Ordinary
import Coursework.Proofs.Transport.Bridge
import Coursework.Proofs.Transport.Root
import Coursework.Proofs.Store.Writes
import Coursework.Proofs.Desk.FreshIds
import Coursework.Proofs.Hall.Privileges
import Coursework.Proofs.Hall.NoInternal
import Coursework.Proofs.Account
import Coursework.Proofs.Endpoint.Login
import Coursework.Proofs.Hall.Answers
import Coursework.Proofs.Hall.Passwords
import Coursework.Proofs.Hall.Retrieval
import Coursework.Proofs.Transport.Frames
import Coursework.Proofs.Transport.Wire
import Coursework.Proofs.Documents
import Coursework.Proofs.Disk
import Coursework.Proofs.Json.Pretty
import Coursework.Proofs.Transport.Status
import Coursework.Proofs.Transport.Artifacts
import Coursework.Proofs.Transport.Launch
import Coursework.Proofs.Transport.Fleet
import Coursework.Proofs.Transport.Sizes
import Coursework.Proofs.Admission.Window
import Coursework.Proofs.Admission.Monotone
import Coursework.Proofs.Desk.Retry
import Coursework.Proofs.Uploads.Stored
import Coursework.Proofs.Request.Traces
import Coursework.Proofs.Endpoint.Lookup
import Coursework.Proofs.Desk.InOrder
import Coursework.Proofs.Account.Passwords
import Coursework.Proofs.Endpoint.NewPassword
import Coursework.Proofs.Store.Reseeded
import Coursework.Proofs.Transport.Clearing
import Coursework.Proofs.Registry
import Coursework.Proofs.Endpoint.Listed
import Coursework.Proofs.Submission.Forms
