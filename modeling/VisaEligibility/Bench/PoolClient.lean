import VisaEligibility.Clock.World
import VisaEligibility.Vectors.Pool
/-!
A scripted database behind a pool. It records the statements it receives and answers them in order.
-/
set_option autoImplicit false

namespace VisaEligibility.Bench

open Clock (Wait Environment World)
open Vectors (PoolCall Statement)

inductive PoolAnswer where
  | rows (rows : List Value)
  | failed (e : Raised)
  | unanswered

inductive PoolEvent where
  | sent (s : Statement)
  | shut

def PoolEvent.toValue : PoolEvent → Value
  | sent s => s.toValue
  | shut => .record [("end", .bool true)]

structure PoolClient where
  answers : List PoolAnswer := []
  events : List PoolEvent := []

namespace PoolClient

def unscripted : Raised := .failure (.general "no scripted result")

def record (s : PoolClient) (e : PoolEvent) : PoolClient := { s with events := s.events ++ [e] }

def wait : (c : PoolCall) → PoolClient → Wait (PoolCall.Reply c) × PoolClient
  | .send st (some limit), s =>
    let s := s.record (.sent st)
    match s.answers with
    | .unanswered :: rest =>
      (.service none (Clock.duration limit)
        (.error (.failure (.timeout Vectors.Pool.probeName (some limit)))), { s with answers := rest })
    | _ => (.nothing, s)
  | .send st none, s => (.nothing, s.record (.sent st))
  | .shut, s => (.nothing, s.record .shut)
  | .pause ms, s => (.pause (Clock.duration ms), s)

def reply : (c : PoolCall) → PoolClient → PoolCall.Reply c × PoolClient
  | .send _ _, s =>
    match s.answers with
    | .rows rs :: rest => (.ok rs, { s with answers := rest })
    | .failed e :: rest => (.error e, { s with answers := rest })
    | .unanswered :: rest => (.error unscripted, { s with answers := rest })
    | [] => (.error unscripted, s)
  | .shut, s => ((), s)
  | .pause _, s => ((), s)

def environment : Environment PoolCall.interface PoolClient := ⟨fun _ => false, wait, reply⟩

end PoolClient
end VisaEligibility.Bench
