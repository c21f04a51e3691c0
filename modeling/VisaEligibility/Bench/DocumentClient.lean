import VisaEligibility.Clock.World
import VisaEligibility.Documents.Store
/-!
A scripted client of the document store. It records every call it receives and answers from its
script; a search returns all documents of the collection.
-/
set_option autoImplicit false

namespace VisaEligibility.Bench

open Clock (Wait Environment World)
open Documents (StoreCall)

inductive Ping where
  | answered
  | failed (e : Raised)
  | unanswered

structure DocumentClient where
  connects : List (Option Raised) := []
  closing : Option Raised := none
  pings : List Ping := []
  errors : List (String × Raised) := []
  documents : List (String × List Value) := []
  matched : Number := 1
  now : Instant
  calls : List StoreCall := []

namespace DocumentClient

def errorOf (s : DocumentClient) (c : StoreCall) : Option Raised :=
  Entries.get? s.errors (match c.collection? with
    | some k => k.name ++ "." ++ c.method
    | none => c.method)

def orError {α : Type} (s : DocumentClient) (c : StoreCall) (a : α) : Except Raised α :=
  match s.errorOf c with
  | some e => .error e
  | none => .ok a

def isRecorded : StoreCall → Bool
  | .pause _ | .now => false
  | _ => true

def record (s : DocumentClient) (c : StoreCall) : DocumentClient :=
  if isRecorded c then { s with calls := s.calls ++ [c] } else s

def wait : (c : StoreCall) → DocumentClient → Wait (StoreCall.Reply c) × DocumentClient
  | .ping (some limit), s =>
    let s := s.record (.ping (some limit))
    match s.pings with
    | .unanswered :: rest =>
      (.service none (Clock.duration limit)
        (.error (.failure (.timeout Documents.Connection.pingName (some limit)))), { s with pings := rest })
    | _ => (.nothing, s)
  | .pause ms, s => (.pause (Clock.duration ms), s)
  | c, s => (.nothing, s.record c)

def reply : (c : StoreCall) → DocumentClient → StoreCall.Reply c × DocumentClient
  | .connect, s =>
    (match s.connects with
      | some e :: _ => .error e
      | _ => .ok (), { s with connects := s.connects.drop 1 })
  | .close, s => (match s.closing with | some e => .error e | none => .ok (), s)
  | .ping limit, s =>
    match s.pings with
    | .failed e :: rest => (.error e, { s with pings := rest })
    | _ => (s.orError (.ping limit) (), { s with pings := s.pings.drop 1 })
  | .find k conditions sort limit, s =>
    (s.orError (.find k conditions sort limit) ((Entries.get? s.documents k.name).getD []), s)
  | .insertOne k d, s => (s.orError (.insertOne k d) (), s)
  | .insertMany k ds, s => (s.orError (.insertMany k ds) (), s)
  | .setFields k conditions fields, s => (s.orError (.setFields k conditions fields) s.matched, s)
  | .createIndex k i, s => (s.orError (.createIndex k i) (), s)
  | .pause _, s => ((), s)
  | .now, s => (s.now, s)

def environment : Environment StoreCall.interface DocumentClient := ⟨fun _ => false, wait, reply⟩

end DocumentClient
end VisaEligibility.Bench
