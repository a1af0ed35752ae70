import Warden.Main
import Warden.Rehearsal.Managed
import Warden.Rehearsal.Mock
import Warden.Rehearsal.Outside
import Warden.Rehearsal.Solo
import Warden.Proofs.Supervisor
import Warden.Proofs.Options.Passing
import Warden.Proofs.Options.Precedence
import Warden.Proofs.Host.Submissions
import Warden.Proofs.Host.Recording
import Warden.Proofs.Text.Sequences
import Warden.Proofs.Text.Lossy
import Warden.Proofs.Text.Words
import Warden.Proofs.Text.Wide
import Warden.Proofs.Log.Attempts
import Warden.Proofs.Log.Writers
import Warden.Proofs.Log.Headings
import Warden.Proofs.Log.Spellings
import Warden.Proofs.Diagnostics.Cut
import Warden.Proofs.Diagnostics.Reading
import Warden.Proofs.Diagnostics.Faults
import Warden.Proofs.Diagnostics.Interruptions
import Warden.Proofs.Diagnostics.Growth
import Warden.Proofs.Diagnostics.Relaying
import Warden.Proofs.Diagnostics.Messages
import Warden.Proofs.Service.Inputs
import Warden.Proofs.Service.Turns
import Warden.Proofs.Service.Alike
import Warden.Proofs.Service.Reports
import Warden.Proofs.Service.Entries
import Warden.Proofs.Service.Verdicts
import Warden.Proofs.Service.Accounts
import Warden.Proofs.Service.Inbox
import Warden.Proofs.Service.Announcements
import Warden.Proofs.Service.Interrogations
import Warden.Proofs.Service.Onlookers
import Warden.Proofs.Session.Requests
import Warden.Proofs.Session.Signals
import Warden.Proofs.Session.Polling
import Warden.Proofs.Session.Starts
import Warden.Proofs.Settings.Durations
import Warden.Proofs.Settings.Checks
import Warden.Proofs.Host.Controls
import Warden.Proofs.Service.Pace
import Warden.Proofs.Host.Hints
