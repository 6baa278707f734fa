import Accord.Main
import Accord.World
import Accord.Proofs.Json.Numeral
import Accord.Proofs.Json.Reading
import Accord.Proofs.Cluster.Run
import Accord.Proofs.Message.Codec
import Accord.Proofs.Cluster.History
import Accord.Proofs.Cluster.Election
import Accord.Proofs.Node.Rounds
import Accord.Proofs.Cluster.Rounds
import Accord.Proofs.Cluster.Reign
import Accord.Proofs.Store.Log
import Accord.Proofs.Cluster.Ledger
import Accord.Proofs.Cluster.Followers
import Accord.Proofs.Node.Operations
import Accord.Proofs.Json.Value
import Accord.Proofs.Node.Write
import Accord.Proofs.Cluster.Announcement
import Accord.Proofs.Cluster.Candidacy
import Accord.Proofs.Cluster.Books
import Accord.Proofs.Cluster.Replication
import Accord.Proofs.Cluster.Atomicity
import Accord.Proofs.Cluster.Trace
import Accord.Proofs.Cluster.Matching
import Accord.Proofs.Node.Reads
import Accord.Proofs.Cluster.Turnout
import Accord.Proofs.Node.Acts
import Accord.Proofs.Node.Provisional
import Accord.Proofs.Message.RoundTrip
import Accord.Proofs.Cluster.CatchUp
import Accord.Proofs.Node.Timers
import Accord.Proofs.Message.Portable
import Accord.Proofs.Node.Deadlines
import Accord.Proofs.Message.Frames
import Accord.Proofs.Cluster.Contest
import Accord.Proofs.Message.Lines
import Accord.Proofs.Tally.Decision
import Accord.Proofs.Node.Batches
import Accord.Proofs.Store.Rivals
import Accord.Proofs.Sql.Grammar
import Accord.Proofs.Store.Replay
import Accord.Proofs.Json.Ends
import Accord.Proofs.Store.Tables
import Accord.Proofs.Console
import Accord.Proofs.Switchboard.Trace
import Accord.Proofs.Node.Requests
