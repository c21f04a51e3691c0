import VisaEligibility.Documents.Store
import VisaEligibility.Proofs.Program.Translation
/-!
The status of a case in the document store. It is set by updates of the case, whatever it was
before: a review request that succeeds sets it to `in_review`, a case marked as evaluated to
`evaluated`, and nothing else the engine stores touches it.
-/
set_option autoImplicit false

namespace VisaEligibility.Documents

open Program

def caseUpdate? (caseId : String) : Exchange StoreCall.interface → Option (List (String × Value))
  | ⟨.setFields .cases [.equals "case_id" (.text id)] fields, .ok matched⟩ =>
    if id = caseId ∧ matched.isZero = false then some fields else none
  | _ => none

def caseUpdates (caseId : String) (h : History StoreCall.interface) :
    List (List (String × Value)) :=
  h.filterMap (caseUpdate? caseId)

def CaseExists (caseId : String) (h : History StoreCall.interface) : Prop :=
  ∀ fields matched,
    ⟨.setFields .cases [Storage.ofCase caseId] fields, .ok matched⟩ ∈ h → matched.isZero = false

def StoreCall.isPlain : StoreCall → Bool
  | .setFields _ _ _ => false
  | _ => true

theorem status_merge (doc : List (String × Value)) (s : CaseStatus) (time : Instant) :
    Entries.get? (Entries.merge doc (s.fields time)) "status" = some (.text s.name) := by
  cases s with
  | evaluated =>
    simp only [CaseStatus.fields, Entries.merge, List.foldl_cons, List.foldl_nil]
    rw [Entries.get?_put_of_ne _ _ (by decide), Entries.get?_put_of_ne _ _ (by decide),
      Entries.get?_put_self]
  | inReview =>
    simp only [CaseStatus.fields, Entries.merge, List.foldl_cons, List.foldl_nil]
    rw [Entries.get?_put_of_ne _ _ (by decide), Entries.get?_put_self]

theorem caseUpdates_append (caseId : String) (h h' : History StoreCall.interface) :
    caseUpdates caseId (h ++ h') = caseUpdates caseId h ++ caseUpdates caseId h' :=
  List.filterMap_append

theorem CaseExists.mono {caseId : String} {h h' : History StoreCall.interface}
    (he : CaseExists caseId h) (hs : ∀ x ∈ h', x ∈ h) : CaseExists caseId h' :=
  fun fields matched hm => he fields matched (hs _ hm)

theorem caseUpdates_of_plain {caseId : String} {h : History StoreCall.interface}
    (hp : ∀ x ∈ h, x.call.isPlain = true) : caseUpdates caseId h = [] := by
  refine List.filterMap_eq_nil_iff.2 fun x hx => ?_
  have hc := hp x hx
  obtain ⟨c, r⟩ := x
  cases c <;> first | rfl | cases hc

namespace Storage

variable {c : Connection} {h : History StoreCall.interface}

theorem returns_call {α : Type} {task : StoreTask (Except Raised α)} {x : Except Raised α} :
    Returns (call c task).run h x ↔
      (∃ e, c.require = .error e ∧ h = [] ∧ x = .error e) ∨
        c.require = .ok () ∧ Returns task h x := by
  unfold call
  rw [ExceptT.run_mk]
  cases hc : c.require with
  | error e =>
    dsimp only
    refine returns_done.trans ?_
    constructor
    · rintro ⟨rfl, rfl⟩
      exact .inl ⟨e, rfl, rfl, rfl⟩
    · rintro (⟨e', he, rfl, rfl⟩ | ⟨he, -⟩)
      · cases he
        exact ⟨rfl, rfl⟩
      · cases he
  | ok u =>
    dsimp only
    constructor
    · intro hr
      exact .inr ⟨rfl, hr⟩
    · rintro (⟨e, he, -⟩ | ⟨-, hr⟩)
      · cases he
      · exact hr

theorem only_call {α : Type} {kind : StoreCall → Bool} {task : StoreTask (Except Raised α)}
    (ht : task.Only kind) : (call c task).run.Only kind := by
  unfold call
  rw [ExceptT.run_mk]
  cases c.require with
  | error e => exact only_done _ _
  | ok u => exact ht

theorem plain_facts (caseId : String) : (facts c caseId).run.Only StoreCall.isPlain :=
  Attempt.only_bind (only_call (only_perform.2 rfl)) fun _ => only_done _ _

theorem plain_saveLog (l : ReasoningLog) : (saveLog c l).run.Only StoreCall.isPlain :=
  only_call (only_perform.2 rfl)

theorem plain_saveResult (x : EligibilityResult) : (saveResult c x).run.Only StoreCall.isPlain :=
  only_call (only_perform.2 rfl)

theorem plain_timeOr (time : Option Instant) : (timeOr time).run.Only StoreCall.isPlain := by
  cases time with
  | none => exact (only_perform.2 rfl).bind fun _ => only_done _ _
  | some t => exact only_done _ _

theorem plain_saveCitations (cs : List Citation) (time : Option Instant) :
    (saveCitations c cs time).run.Only StoreCall.isPlain := by
  refine Attempt.only_bind (plain_timeOr time) fun t => ?_
  split
  · exact only_done _ _
  · exact only_call (only_perform.2 rfl)

theorem plain_openReview (r : ReviewRequest) : (openReview c r).run.Only StoreCall.isPlain :=
  only_call (only_perform.2 rfl)

/-- A step over the store sets the status of a case when it succeeds, and nothing when it fails. -/
def Sets (caseId : String) (s : CaseStatus) (h : History StoreCall.interface)
    (x : Except Raised Unit) : Prop :=
  (x = .ok () ∧ ∃ time, caseUpdates caseId h = [s.fields time]) ∨
    ∃ e, x = .error e ∧ caseUpdates caseId h = []

theorem sets_of_setStatus {caseId : String} {s : CaseStatus} {time : Instant}
    {x : Except Raised Number} (hr : Returns (setStatus c caseId s time).run h x)
    (he : CaseExists caseId h) :
    (∃ matched, x = .ok matched ∧ matched.isZero = false ∧
        caseUpdates caseId h = [s.fields time]) ∨
      ∃ e, x = .error e ∧ caseUpdates caseId h = [] := by
  rcases returns_call.1 hr with ⟨e, -, rfl, rfl⟩ | ⟨-, hu⟩
  · exact .inr ⟨e, rfl, rfl⟩
  · obtain rfl := returns_perform.1 hu
    cases x with
    | error e => exact .inr ⟨e, rfl, rfl⟩
    | ok matched =>
      have hm := he (s.fields time) matched (List.mem_singleton.2 rfl)
      refine .inl ⟨matched, rfl, hm, ?_⟩
      have found : caseUpdate? caseId ⟨.setFields .cases [ofCase caseId] (s.fields time), .ok matched⟩ =
          some (s.fields time) := if_pos ⟨rfl, hm⟩
      unfold caseUpdates
      rw [List.filterMap_cons, found]
      rfl

theorem Sets.of_updates {caseId : String} {s : CaseStatus} {h h' : History StoreCall.interface}
    {x : Except Raised Unit} (hs : Sets caseId s h x)
    (hu : caseUpdates caseId h' = caseUpdates caseId h) : Sets caseId s h' x := by
  unfold Sets
  rw [hu]
  exact hs

theorem Sets.after_plain {caseId : String} {s : CaseStatus} {h₁ h₂ : History StoreCall.interface}
    {x : Except Raised Unit} (hp : ∀ y ∈ h₁, y.call.isPlain = true) (hs : Sets caseId s h₂ x) :
    Sets caseId s (h₁ ++ h₂) x := by
  refine hs.of_updates ?_
  rw [caseUpdates_append, caseUpdates_of_plain hp, List.nil_append]

theorem sets_of_setting {caseId : String} {s : CaseStatus} {time : Option Instant}
    {f : Number → Storage Unit} {x : Except Raised Unit}
    (hf : ∀ matched, matched.isZero = false → f matched = pure ())
    (hr : Returns (timeOr time >>= fun t => setStatus c caseId s t >>= f).run h x)
    (he : CaseExists caseId h) : Sets caseId s h x := by
  rcases Attempt.returns_bind.1 hr with ⟨e, rfl, ht⟩ | ⟨h₁, t, h₂, rfl, ht, hs⟩
  · exact .inr ⟨e, rfl, caseUpdates_of_plain ((plain_timeOr time).of_reaches ht)⟩
  · refine .after_plain ((plain_timeOr time).of_reaches ht) ?_
    rcases Attempt.returns_bind.1 hs with ⟨e, rfl, hu⟩ | ⟨h₃, matched, h₄, rfl, hu, hd⟩
    · rcases sets_of_setStatus hu (he.mono (by simp +contextual)) with ⟨m, hm, -⟩ | ⟨e, -, hn⟩
      · cases hm
      · exact .inr ⟨_, rfl, hn⟩
    · have found : CaseExists caseId h₃ := he.mono (by simp +contextual)
      rcases sets_of_setStatus hu found with ⟨m, hm, hz, hn⟩ | ⟨e, hm, -⟩
      · cases hm
        rw [hf matched hz] at hd
        obtain ⟨rfl, rfl⟩ := returns_done.1 hd
        rw [List.append_nil]
        exact .inl ⟨rfl, t, hn⟩
      · cases hm

theorem sets_of_markEvaluated {caseId : String} {time : Option Instant} {x : Except Raised Unit}
    (hr : Returns (markEvaluated c caseId time).run h x) (he : CaseExists caseId h) :
    Sets caseId .evaluated h x := by
  refine sets_of_setting (fun matched hz => ?_) hr he
  rw [hz]
  rfl

theorem sets_of_markInReview {caseId : String} {time : Option Instant} {x : Except Raised Unit}
    (hr : Returns (markInReview c caseId time).run h x) (he : CaseExists caseId h) :
    Sets caseId .inReview h x :=
  sets_of_setting (fun _ _ => rfl) hr he

theorem sets_of_requestReview {caseId reason : String} {x : Except Raised Unit}
    (hr : Returns (requestReview c caseId reason).run h x) (he : CaseExists caseId h) :
    Sets caseId .inReview h x := by
  rcases Attempt.returns_bind.1 hr with ⟨e, rfl, ht⟩ | ⟨h₁, t, h₂, rfl, ht, hs⟩
  · exact .inr ⟨e, rfl, caseUpdates_of_plain ((plain_timeOr none).of_reaches ht)⟩
  · refine .after_plain ((plain_timeOr none).of_reaches ht) ?_
    rcases Attempt.returns_bind.1 hs with ⟨e, rfl, ho⟩ | ⟨h₃, u, h₄, rfl, ho, hm⟩
    · exact .inr ⟨e, rfl, caseUpdates_of_plain ((plain_openReview _).of_reaches ho)⟩
    · refine .after_plain ((plain_openReview _).of_reaches ho) ?_
      exact sets_of_markInReview hm (he.mono (by simp +contextual))

end Storage
end VisaEligibility.Documents
