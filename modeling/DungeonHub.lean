import DungeonHub.Lib.Wire
import DungeonHub.Lib.Dict
import DungeonHub.Lib.Run
import DungeonHub.Lib.Walk
import DungeonHub.Lib.Roster
import DungeonHub.Lib.Mail
import DungeonHub.Lib.Snapshots
import DungeonHub.Lib.Lag
import DungeonHub.Lib.Slots
import DungeonHub.Lib.Undo
import DungeonHub.Lib.Veil
import DungeonHub.Lib.Flow
import DungeonHub.Lib.Pairs
import DungeonHub.Lib.Checked
import DungeonHub.Lib.Recent
import DungeonHub.Lib.Json
import DungeonHub.Lib.Progress
import DungeonHub.Lib.Bucket
import DungeonHub.Lib.Nested
import DungeonHub.Bytes
import DungeonHub.Protocol
import DungeonHub.Message
import DungeonHub.Codec
import DungeonHub.Inventory
import DungeonHub.Session
import DungeonHub.Security
import DungeonHub.Party
import DungeonHub.Guild
import DungeonHub.Dungeon
import DungeonHub.Reward
import DungeonHub.DropTable
import DungeonHub.Server
import DungeonHub.Handlers
import DungeonHub.WorkerPool
import DungeonHub.IoLayer
import DungeonHub.Logging
import DungeonHub.Admin
import DungeonHub.Combat
import DungeonHub.Proofs.Bytes
import DungeonHub.Proofs.Message
import DungeonHub.Proofs.Codec
import DungeonHub.Proofs.Forgery
import DungeonHub.Proofs.Tampering
import DungeonHub.Proofs.Inventory
import DungeonHub.Proofs.ChangeLog
import DungeonHub.Proofs.Cache
import DungeonHub.Proofs.Refusals
import DungeonHub.Proofs.Faults
import DungeonHub.Proofs.Interleaving
import DungeonHub.Proofs.Conservation
import DungeonHub.Proofs.Isolation
import DungeonHub.Proofs.Nesting
import DungeonHub.Proofs.Reward
import DungeonHub.Proofs.DropTable
import DungeonHub.Proofs.Combat
import DungeonHub.Proofs.Sending
import DungeonHub.Proofs.RateLimit
import DungeonHub.Proofs.Pairing
import DungeonHub.Proofs.Nonces
import DungeonHub.Proofs.Compatible
import DungeonHub.Proofs.Waiting
import DungeonHub.Proofs.Server
import DungeonHub.Proofs.Result
import DungeonHub.Proofs.Packet
import DungeonHub.Proofs.Grants
import DungeonHub.Proofs.Registry
import DungeonHub.Proofs.Replay
import DungeonHub.Proofs.Members
import DungeonHub.Proofs.Views
import DungeonHub.Proofs.Guilds
import DungeonHub.Proofs.Dangling
import DungeonHub.Proofs.Mediation
import DungeonHub.Proofs.Secured
import DungeonHub.Proofs.Parties
import DungeonHub.Proofs.Invited
import DungeonHub.Proofs.Pending
import DungeonHub.Proofs.Lifecycle
import DungeonHub.Proofs.Provenance
import DungeonHub.Proofs.Renaming
import DungeonHub.Proofs.Identity
import DungeonHub.Proofs.Services
import DungeonHub.Proofs.Matches
import DungeonHub.Proofs.Entering
import DungeonHub.Proofs.Chat
import DungeonHub.Proofs.Revival
import DungeonHub.Proofs.Resuming
import DungeonHub.Proofs.WorkerPool
import DungeonHub.Proofs.Wakeups
import DungeonHub.Proofs.Dispatch
import DungeonHub.Proofs.Order
import DungeonHub.Proofs.Shutdown
import DungeonHub.Proofs.Completion
import DungeonHub.Proofs.Restart
import DungeonHub.Proofs.Serving
import DungeonHub.Proofs.Gateway
import DungeonHub.Proofs.Payout
import DungeonHub.Proofs.Accounting
import DungeonHub.Proofs.Logout
import DungeonHub.Proofs.Authority
import DungeonHub.Proofs.Ledger
import DungeonHub.Proofs.Updates
import DungeonHub.Proofs.Rematch
import DungeonHub.Proofs.Admin
import DungeonHub.Proofs.References
import DungeonHub.Proofs.Expiry
import DungeonHub.Proofs.Versions
import DungeonHub.Proofs.Expedition
import DungeonHub.Proofs.Turns
import DungeonHub.Proofs.Streams
import DungeonHub.Proofs.Logging
