import VisaEligibility.Health
import VisaEligibility.Program.Retry
import VisaEligibility.Vectors.Row
import VisaEligibility.Vectors.Statement
/-!
The pool of connections for vector searches. It is made when it is first needed. A statement is sent
again after a lost connection, and only then.
-/
set_option autoImplicit false

namespace VisaEligibility.Vectors

/-- A call on the pool. A statement may be sent under a time limit. -/
inductive PoolCall where
  | send (s : Statement) (limit : Option Number)
  | shut
  | pause (ms : Number)

namespace PoolCall

def Reply : PoolCall → Type
  | send _ _ => Except Raised (List Value)
  | shut => Unit
  | pause _ => Unit

abbrev interface : Interface := ⟨PoolCall, Reply⟩

end PoolCall

abbrev PoolTask (α : Type) := Program PoolCall.interface α

def perform (c : PoolCall) : PoolTask (PoolCall.Reply c) :=
  Program.perform (I := PoolCall.interface) c

structure PoolSettings where
  store : VectorStoreSettings
  idleTimeout : Number := 30000
  connectTimeout : Number := 10000
  keepAlive : Bool := true
deriving DecidableEq, Repr

def PoolSettings.toFields (s : PoolSettings) : List (String × Value) :=
  [("host", .text s.store.host), ("port", .number s.store.port),
    ("database", .text s.store.database), ("user", .text s.store.user),
    ("max", .number s.store.maxPoolSize), ("idleTimeoutMillis", .number s.idleTimeout),
    ("connectionTimeoutMillis", .number s.connectTimeout), ("keepAlive", .bool s.keepAlive)]

abbrev Pool := Option PoolSettings

namespace Pool

def get (p : Pool) (settings : VectorStoreSettings) : PoolSettings := p.getD { store := settings }

def retryPolicy : RetryPolicy := { maxAttempts := 2, initialDelay := 1000, maxDelay := 10000 }

def retryRule : RetryRule := { retryPolicy.rule with isRetryable := Raised.isLostConnection }

def query (s : Statement) : PoolTask (Except Raised (List Value)) :=
  retryRule.run (fun ms => perform (.pause ms)) (perform (.send s none))

def search (schemaName : String) (vector : List Number) (filters : ChunkFilters)
    (topK minSimilarity : Number) (dates : DateReader := .universal) :
    PoolTask (Except Raised (List Chunk)) := do
  match ← query (searchStatement schemaName vector filters topK minSimilarity) with
  | .ok rows => return Chunk.ofRows dates rows
  | .error e => return .error e

def close (p : Pool) : PoolTask Pool := do
  if p.isSome then perform .shut
  return none

def probe : Statement := ⟨"SELECT 1", none⟩

def probeName : String := "PostgreSQL health check"

def health (p : Pool) (limit : Number) : PoolTask (Except Failure Health) := do
  if p.isSome then return Health.ofReply (← perform (.send probe (some limit)))
  else return .ok (.absent "PostgreSQL pool not initialized")

end Pool
end VisaEligibility.Vectors
