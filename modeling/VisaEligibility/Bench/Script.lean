import VisaEligibility.Clock.World
import VisaEligibility.Failure.Basic
/-!
Scripts that stand in for a remote service. Each call waits for the next delay of the script, if one
is left, and then takes the next answer, unless the service is set to fail.
-/
set_option autoImplicit false

namespace VisaEligibility.Bench

open Clock (Wait)

/-- What is left of a script. An entry without an answer stands for the default one, a delay without
a number never ends. -/
structure Script (α : Type) where
  answers : List (Option (Except Raised α)) := []
  fault : Option Raised := none
  fallback : Except Raised α
  delays : List (Option Number) := []

namespace Script

variable {α : Type}

def wait (limit : Option Number) (operation : String) (s : Script α) :
    Wait (Except Raised α) × Script α :=
  match s.delays with
  | [] => (.nothing, s)
  | d :: rest =>
    (.service (d.map Clock.duration) (Clock.limitDuration limit)
      (.error (.failure (.timeout operation limit))), { s with delays := rest })

def take (s : Script α) : Except Raised α × Script α :=
  match s.fault with
  | some e => (.error e, s)
  | none =>
    match s.answers with
    | [] => (s.fallback, s)
    | a :: rest => (a.getD s.fallback, { s with answers := rest })

end Script

structure ScriptChange (α : Type) where
  clear : Bool := false
  answers : List (Option (Except Raised α)) := []
  fault : Option (Option Raised) := none
  fallback : Option (Except Raised α) := none
  delays : List (Option Number) := []

def Script.change {α : Type} (s : Script α) (c : ScriptChange α) : Script α :=
  { answers := s.answers ++ c.answers
    fault := c.fault.getD (if c.clear then none else s.fault)
    fallback := c.fallback.getD s.fallback
    delays := (if c.clear then [] else s.delays) ++ c.delays }

/-- A script for all calls but those of the visa codes that have one of their own. -/
structure CodedScripts (α : Type) where
  general : Script α
  coded : List (String × Script α) := []

namespace CodedScripts

variable {α : Type}

def codeOf (s : CodedScripts α) (isAbout : String → Bool) : Option String :=
  (s.coded.find? fun e => isAbout e.1).map Prod.fst

def get (s : CodedScripts α) (code : Option String) : Script α :=
  (code.bind (Entries.get? s.coded)).getD s.general

def set (s : CodedScripts α) (code : Option String) (script : Script α) : CodedScripts α :=
  match code with
  | some c => { s with coded := Entries.put s.coded c script }
  | none => { s with general := script }

def change (s : CodedScripts α) (code : Option String) (fallback : Except Raised α)
    (c : ScriptChange α) : CodedScripts α :=
  let old := match code with
    | some k => (Entries.get? s.coded k).getD { fallback }
    | none => s.general
  s.set code (old.change c)

def wait (s : CodedScripts α) (isAbout : String → Bool) (limit : Option Number)
    (operation : String) : Wait (Except Raised α) × CodedScripts α :=
  let code := s.codeOf isAbout
  let (w, script) := (s.get code).wait limit operation
  (w, s.set code script)

def take (s : CodedScripts α) (isAbout : String → Bool) : Except Raised α × CodedScripts α :=
  let code := s.codeOf isAbout
  let (r, script) := (s.get code).take
  (r, s.set code script)

end CodedScripts
end VisaEligibility.Bench
