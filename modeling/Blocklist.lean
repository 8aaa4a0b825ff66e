import Blocklist.Cache
import Blocklist.CommandLine.Run
import Blocklist.Main
import Blocklist.Override.Environment
import Blocklist.Override.Session
import Blocklist.Proofs.Disturbance
import Blocklist.Proofs.Engine
import Blocklist.Proofs.Guarantee
import Blocklist.Proofs.IdTable
import Blocklist.Proofs.Calls
import Blocklist.Proofs.Calm
import Blocklist.Proofs.Compilation
import Blocklist.Proofs.Conduct
import Blocklist.Proofs.Document
import Blocklist.Proofs.Healing
import Blocklist.Proofs.Matching
import Blocklist.Proofs.Migration
import Blocklist.Proofs.Obedience
import Blocklist.Proofs.Persistence
import Blocklist.Proofs.Race
import Blocklist.Proofs.Report
import Blocklist.Proofs.Restart
import Blocklist.Proofs.Retry
import Blocklist.Proofs.Roster
import Blocklist.Proofs.Separation
import Blocklist.Proofs.StaticRange
import Blocklist.Proofs.Status
import Blocklist.Proofs.Switch
import Blocklist.Proofs.Record
import Blocklist.Proofs.Artifact
import Blocklist.Proofs.FileTree
import Blocklist.Proofs.Snapshot
import Blocklist.Proofs.FileStore
import Blocklist.Proofs.Stores
import Blocklist.Proofs.Updates
import Blocklist.Proofs.Allocation
import Blocklist.Proofs.Deduplication
import Blocklist.Proofs.Line
import Blocklist.Proofs.FirstOccurrences
import Blocklist.Proofs.Validity
import Blocklist.Proofs.Domain
import Blocklist.Proofs.Address
import Blocklist.Proofs.SessionRules
import Blocklist.Proofs.Collision
