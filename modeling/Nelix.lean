import Nelix.Daemon.Belief
import Nelix.Core.Machine
import Nelix.Daemon.BeliefSteps
import Nelix.Daemon.BeliefRuns
import Nelix.Daemon.BeliefEpochs
import Nelix.Core.Slot
import Nelix.Daemon.BeliefPending
import Nelix.Contracts.Errors
import Nelix.Core.Tally
import Nelix.Router.Leases
import Nelix.Router.LeaseAccounting
import Nelix.Router.LeaseFrames
import Nelix.Router.LeaseRestart
import Nelix.Daemon.Session
import Nelix.Daemon.SessionTurns
import Nelix.Daemon.SessionThreads
import Nelix.Daemon.SessionFrames
import Nelix.Daemon.SessionDesk
import Nelix.Contracts.Ids
import Nelix.Core.Table
import Nelix.Store.Rows
import Nelix.Store.Ledger
import Nelix.Store.Sessions
import Nelix.Store.Epochs
import Nelix.Store.Calls
import Nelix.Store.LedgerRuns
import Nelix.Core.Program
import Nelix.Store.Retirement
import Nelix.Contracts.Json
import Nelix.Router.Operator
import Nelix.Core.Traces
import Nelix.Router.OperatorFaults
import Nelix.Router.OperatorScene
import Nelix.Router.OperatorReaps
import Nelix.Router.OperatorCertificates
import Nelix.Router.OperatorSystem
import Nelix.Store.ReceiptRuns
import Nelix.Daemon.Reaper
import Nelix.Router.OperatorCrash
import Nelix.Router.OperatorCrashRuns
import Nelix.Router.OperatorNetwork
import Nelix.Router.OperatorProgress
import Nelix.Daemon.Manager
import Nelix.Store.Board
import Nelix.Router.Wait
import Nelix.Store.Collector
import Nelix.Store.Numbers
import Nelix.Router.Confirmations
import Nelix.Store.Serving
import Nelix.Core.Pool
import Nelix.Router.StartPath
import Nelix.Router.StartRuns
import Nelix.Router.Registry
import Nelix.Router.Activations
import Nelix.Store.Launch
import Nelix.Router.ActivationFaults
import Nelix.Store.Standing
import Nelix.Router.Readoption
import Nelix.Router.ReadoptionInspection
import Nelix.Core.Dict
import Nelix.Router.Cursor
import Nelix.Router.StatusBoard
import Nelix.Daemon.EventIndexes
import Nelix.Daemon.EventRuns
import Nelix.Daemon.EventEvictions
import Nelix.Daemon.EventScopes
import Nelix.Daemon.Dialog
import Nelix.Router.SessionForward
import Nelix.Router.WaitForward
import Nelix.Daemon.SessionDirs
import Nelix.Daemon.SessionModals
import Nelix.Daemon.AsyncDesk
import Nelix.Daemon.StatusReads
import Nelix.Daemon.AsyncReplies
import Nelix.Daemon.ManagerRuns
import Nelix.Daemon.ManagerAdmissions
import Nelix.Daemon.BeliefScreen
import Nelix.Daemon.Hooks
import Nelix.Daemon.BeliefGates
import Nelix.Daemon.BeliefKinds
import Nelix.Daemon.BeliefFrozen
import Nelix.Core.Ranking
import Nelix.Store.Pruning
import Nelix.Core.Base64
import Nelix.Core.Text
import Nelix.Core.JsonText
import Nelix.Core.JsonReading
import Nelix.Contracts.CursorToken
import Nelix.Daemon.EventWaits
import Nelix.Router.WaitFollowing
import Nelix.Router.Mints
import Nelix.Core.Marker
import Nelix.Daemon.PtyFeed
import Nelix.Core.Lines
import Nelix.Daemon.DialogLog
import Nelix.Daemon.DialogTail
import Nelix.Daemon.DialogReload
import Nelix.Router.DialogRoutes
import Nelix.Daemon.BeliefLadder
import Nelix.Daemon.Hygiene
import Nelix.Core.Patterns
import Nelix.Daemon.ClaudeModal
import Nelix.Daemon.ClaudeBody
import Nelix.Daemon.Redaction
import Nelix.Daemon.RedactedSecrets
import Nelix.Daemon.TranscriptBuilder
import Nelix.Daemon.TranscriptLines
import Nelix.Core.Framing
import Nelix.Daemon.Capture
import Nelix.Daemon.RateLimiter
import Nelix.Runtime.BuildId
import Nelix.Core.Regex
import Nelix.Contracts.IdPatterns
import Nelix.Cli.Doorbell
import Nelix.Router.IdGates
import Nelix.Cli.WaitCommand
import Nelix.Daemon.HookBodies
import Nelix.Daemon.ExecutorConfig
import Nelix.Daemon.Orphans
import Nelix.Core.Scanner
import Nelix.Core.Toml
import Nelix.Core.TomlReading
import Nelix.Daemon.ExecutorLoad
import Nelix.Core.TomlDocuments
import Nelix.Core.Utf8
import Nelix.Cli.TomlEmit
import Nelix.Cli.ConfigAdd
import Nelix.Daemon.SessionAnswers
import Nelix.Daemon.ManagerQuiescence
import Nelix.Router.GenerationSupervisor
import Nelix.Router.SupervisorRuns
import Nelix.Router.SupervisorTeardown
import Nelix.Store.Bootstrap
import Nelix.Store.BootstrapCompletion
