import VisaEligibility.Proofs.Check.Course
/-!
The writes in histories of checks, in stages. A history is in order when writes of later stages
follow those of earlier ones and nothing but the count of the failure follows one that failed.
-/
set_option autoImplicit false

namespace VisaEligibility

open Program

inductive WriteStage where
  | log
  | citations
  | result
  | notification
deriving DecidableEq, Repr

namespace WriteStage

def rank : WriteStage → Nat
  | log => 0
  | citations => 1
  | result => 2
  | notification => 3

end WriteStage

def Call.writeStage? : Call → Option WriteStage
  | .saveLog _ => some .log
  | .saveCitations _ => some .citations
  | .saveResult _ => some .result
  | .requestReview _ _ => some .notification
  | .markEvaluated _ => some .notification
  | _ => none

namespace Check

def writeError? : Exchange Call.interface → Option Raised
  | ⟨.saveLog _, .error e⟩ => some e
  | ⟨.saveCitations _, .error e⟩ => some e
  | ⟨.saveResult _, .error e⟩ => some e
  | _ => none

def storedResult? : Exchange Call.interface → Option EligibilityResult
  | ⟨.saveResult x, .ok ()⟩ => some x
  | _ => none

def storedResults (h : History Call.interface) : List EligibilityResult :=
  h.filterMap storedResult?

def notifications (h : History Call.interface) : History Call.interface :=
  h.filter fun x => x.call.writeStage? = some .notification

/-- What may follow an exchange: after a failed write only the count of the failure, after any
write only later stages. -/
def Precedes (x y : Exchange Call.interface) : Prop :=
  (writeError? x ≠ none → y = failureCount) ∧
    ∀ j k, x.call.writeStage? = some j → y.call.writeStage? = some k → j.rank < k.rank

def Silent (h : History Call.interface) : Prop := storedResults h = [] ∧ notifications h = []

def Quiet (h : History Call.interface) : Prop := ∀ x ∈ h, x.call.writeStage? = none

/-- A history whose writes have succeeded and are of stages before one. -/
def Before (stage : WriteStage) (h : History Call.interface) : Prop :=
  ∀ x ∈ h, writeError? x = none ∧ ∀ j, x.call.writeStage? = some j → j.rank < stage.rank

theorem writeError?_of_writeStage? {x : Exchange Call.interface}
    (hx : x.call.writeStage? = none) : writeError? x = none := by
  obtain ⟨c, r⟩ := x
  cases c <;> first | rfl | cases hx

theorem writeError?_notice (caseId : String) (c : CombinedVerdict) (w : Except Raised Unit) :
    writeError? (notice caseId c w) = none := by
  unfold notice
  split <;> rfl

theorem writeStage?_notice (caseId : String) (c : CombinedVerdict) (w : Except Raised Unit) :
    (notice caseId c w).call.writeStage? = some .notification := by
  unfold notice
  split <;> rfl

theorem storedResult?_of_writeStage? {x : Exchange Call.interface}
    (hx : x.call.writeStage? = none) : storedResult? x = none := by
  obtain ⟨c, r⟩ := x
  cases c <;> first | rfl | cases hx

namespace Quiet

variable {h h' : History Call.interface}

theorem append (hq : Quiet h) (hq' : Quiet h') : Quiet (h ++ h') :=
  List.forall_mem_append.2 ⟨hq, hq'⟩

theorem before (hq : Quiet h) (stage : WriteStage) : Before stage h := by
  intro x hx
  refine ⟨writeError?_of_writeStage? (hq x hx), ?_⟩
  intro j hj
  rw [hq x hx] at hj
  cases hj

theorem ordered (hq : Quiet h) : h.Pairwise Precedes := by
  refine List.pairwise_of_forall_mem_list fun x hx y _ => ⟨fun hw => ?_, fun j k hj _ => ?_⟩
  · exact absurd (writeError?_of_writeStage? (hq x hx)) hw
  · rw [hq x hx] at hj
    cases hj

theorem silent (hq : Quiet h) : Silent h :=
  ⟨List.filterMap_eq_nil_iff.2 fun x hx => storedResult?_of_writeStage? (hq x hx),
    List.filter_eq_nil_iff.2 fun x hx => by simp [hq x hx]⟩

end Quiet

namespace Before

variable {h h' : History Call.interface} {stage : WriteStage}

theorem append (hb : Before stage h) (hb' : Before stage h') : Before stage (h ++ h') :=
  List.forall_mem_append.2 ⟨hb, hb'⟩

theorem mono {later : WriteStage} (hb : Before stage h) (hs : stage.rank ≤ later.rank) :
    Before later h := by
  intro x hx
  obtain ⟨hw, hj⟩ := hb x hx
  exact ⟨hw, fun j h => Nat.lt_of_lt_of_le (hj j h) hs⟩

theorem precedes (hb : Before stage h) {x y : Exchange Call.interface} (hx : x ∈ h)
    (hy : ∀ k, y.call.writeStage? = some k → stage.rank ≤ k.rank) : Precedes x y := by
  obtain ⟨hw, hj⟩ := hb x hx
  refine ⟨fun he => absurd hw he, ?_⟩
  intro j k hxj hyk
  exact Nat.lt_of_lt_of_le (hj j hxj) (hy k hyk)

theorem ordered_append (hb : Before stage h) (ho : h.Pairwise Precedes)
    (ho' : h'.Pairwise Precedes)
    (hs : ∀ y ∈ h', ∀ k, y.call.writeStage? = some k → stage.rank ≤ k.rank) :
    (h ++ h').Pairwise Precedes :=
  List.pairwise_append.2 ⟨ho, ho', fun _ hx y hy => hb.precedes hx (hs y hy)⟩

end Before

theorem Quiet.ordered_append {h h' : History Call.interface} (hq : Quiet h)
    (ho : h'.Pairwise Precedes) : (h ++ h').Pairwise Precedes :=
  (hq.before .log).ordered_append hq.ordered ho fun _ _ _ _ => Nat.zero_le _

theorem ordered_failureCount {h : History Call.interface} (ho : h.Pairwise Precedes) :
    (h ++ [failureCount]).Pairwise Precedes := by
  refine List.pairwise_append.2 ⟨ho, List.pairwise_singleton _ _, ?_⟩
  intro x _ y hy
  obtain rfl := List.mem_singleton.1 hy
  refine ⟨fun _ => rfl, ?_⟩
  intro j k _ hk
  cases hk

theorem storedResults_append (h h' : History Call.interface) :
    storedResults (h ++ h') = storedResults h ++ storedResults h' := List.filterMap_append

theorem notifications_append (h h' : History Call.interface) :
    notifications (h ++ h') = notifications h ++ notifications h' := List.filter_append ..

theorem Silent.append {h h' : History Call.interface} (hs : Silent h) (hs' : Silent h') :
    Silent (h ++ h') := by
  refine ⟨?_, ?_⟩
  · rw [storedResults_append, hs.1, hs'.1]
    rfl
  · rw [notifications_append, hs.2, hs'.2]
    rfl

theorem writes_of_delivery {before after : History Call.interface} (silent : Silent before)
    (quiet : Quiet after) (x : EligibilityResult) (caseId : String) (c : CombinedVerdict)
    (w : Except Raised Unit) :
    storedResults (before ++ ⟨.saveResult x, .ok ()⟩ :: notice caseId c w :: after) = [x] ∧
      notifications (before ++ ⟨.saveResult x, .ok ()⟩ :: notice caseId c w :: after) =
        [notice caseId c w] := by
  have delivered : storedResults [⟨.saveResult x, .ok ()⟩, notice caseId c w] = [x] ∧
      notifications [⟨.saveResult x, .ok ()⟩, notice caseId c w] = [notice caseId c w] := by
    unfold notice
    split <;> exact ⟨rfl, rfl⟩
  have parts : before ++ ⟨.saveResult x, .ok ()⟩ :: notice caseId c w :: after =
      before ++ ([⟨.saveResult x, .ok ()⟩, notice caseId c w] ++ after) := rfl
  rw [parts]
  refine ⟨?_, ?_⟩
  · rw [storedResults_append, storedResults_append, silent.1, quiet.silent.1, delivered.1]
    rfl
  · rw [notifications_append, notifications_append, silent.2, quiet.silent.2, delivered.2]
    rfl

end Check
end VisaEligibility
