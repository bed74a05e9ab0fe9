import ConnectionPool.Config
import ConnectionPool.DatabasePath
import ConnectionPool.Engine
import ConnectionPool.IsolationMode
import ConnectionPool.Json.Reader
import ConnectionPool.Placeholder
import ConnectionPool.Proofs.Call.Durability
import ConnectionPool.Proofs.Fleet
import ConnectionPool.Proofs.Json.Values
import ConnectionPool.Proofs.Placeholder.Identifiers
import ConnectionPool.Proofs.Pool.Leftovers
import ConnectionPool.Proofs.Pool.Parking
import ConnectionPool.Proofs.Pool.Spinning
import ConnectionPool.Proofs.Pool.Stranded
import ConnectionPool.Proofs.Provision.Outcome
import ConnectionPool.Proofs.Provision.Task
import ConnectionPool.Proofs.Query.Feed
import ConnectionPool.Proofs.Queue.Serving
import ConnectionPool.Proofs.Registry.Accounts
import ConnectionPool.Proofs.Registry.Grace
import ConnectionPool.Proofs.Registry.Holders
import ConnectionPool.Proofs.Registry.Pruning
import ConnectionPool.Proofs.Remembered.Last
import ConnectionPool.RetryStrategy
import ConnectionPool.Scenario.Run
