import VisaEligibility.Proofs.Check.Writes
import VisaEligibility.Proofs.Documents.CaseStatus
/-!
Checks whose stores are documents. A check that ends with a report sets the status of its case once,
to `in_review` if it is escalated and else to `evaluated`, unless its notification fails; a check
that fails sets nothing.
-/
set_option autoImplicit false

namespace VisaEligibility

open Program Documents

abbrev StoredCalls : Interface := Call.interface.sum StoreCall.interface

/-- The calls of a check carried out on the document store. Those on other services are made as they
are, and so are the lookups of rule versions. -/
def gateway (conn : Connection) : (c : Call) → Program StoredCalls (Call.Reply c)
  | .facts caseId => second (Storage.facts conn caseId).run
  | .saveLog l => second (Storage.saveLog conn l).run
  | .saveCitations cs => second (Storage.saveCitations conn cs none).run
  | .saveResult x => second (Storage.saveResult conn x).run
  | .requestReview caseId reason => second (Storage.requestReview conn caseId reason).run
  | .markEvaluated caseId => second (Storage.markEvaluated conn caseId none).run
  | c => perform (I := StoredCalls) (.inl c)

def stored? : Exchange StoredCalls → Option (Exchange StoreCall.interface)
  | ⟨.inr c, r⟩ => some ⟨c, r⟩
  | _ => none

def storeHistory (h : History StoredCalls) : History StoreCall.interface := h.filterMap stored?

def statusFor (escalated : Bool) : CaseStatus := if escalated then .inReview else .evaluated

theorem storeHistory_append (h h' : History StoredCalls) :
    storeHistory (h ++ h') = storeHistory h ++ storeHistory h' := List.filterMap_append

@[simp] theorem storeHistory_second (h : History StoreCall.interface) :
    storeHistory (h.map Exchange.second) = h := by
  unfold storeHistory
  rw [List.filterMap_map]
  exact List.filterMap_some

section

variable {conn : Connection} {caseId : String} {h : History StoredCalls}

theorem plain_of_second {α : Type} {p : StoreTask α} {a : α} (hp : p.Only StoreCall.isPlain)
    (hr : Returns (second p : Program StoredCalls α) h a) :
    ∀ x ∈ storeHistory h, x.call.isPlain = true := by
  obtain ⟨h₀, hr₀, rfl⟩ := returns_second.1 hr
  rw [storeHistory_second]
  exact hp.of_reaches hr₀

theorem plain_gateway {c : Call} {r : Call.Reply c} (hc : c.writeStage? ≠ some .notification)
    (hr : Returns (gateway conn c) h r) : ∀ x ∈ storeHistory h, x.call.isPlain = true := by
  cases c with
  | facts caseId => exact plain_of_second (Storage.plain_facts caseId) hr
  | saveLog l => exact plain_of_second (Storage.plain_saveLog l) hr
  | saveCitations cs => exact plain_of_second (Storage.plain_saveCitations cs none) hr
  | saveResult x => exact plain_of_second (Storage.plain_saveResult x) hr
  | requestReview caseId reason => exact absurd rfl hc
  | markEvaluated caseId => exact absurd rfl hc
  | _ =>
    obtain rfl := returns_perform.1 hr
    intro x hx
    cases hx

theorem updates_of_expands {h₀ : History Call.interface}
    (he : Expands (gateway conn) h₀ h)
    (hn : ∀ x ∈ h₀, x.call.writeStage? ≠ some .notification) :
    caseUpdates caseId (storeHistory h) = [] := by
  induction he with
  | nil => rfl
  | @cons c r h₀ h₁ h' first rest ih =>
    obtain ⟨hc, hn⟩ := List.forall_mem_cons.1 hn
    rw [storeHistory_append, caseUpdates_append, caseUpdates_of_plain (plain_gateway hc first),
      ih hn]
    rfl

theorem sets_of_notice {c : CombinedVerdict} {w : Except Raised Unit}
    (he : Expands (gateway conn) [Check.notice caseId c w] h)
    (exists_ : CaseExists caseId (storeHistory h)) :
    Storage.Sets caseId (statusFor c.escalate) (storeHistory h) w := by
  unfold Check.notice at he
  cases hc : c.escalate with
  | true =>
    rw [hc, if_pos rfl] at he
    cases he with
    | cons first rest =>
      cases rest
      obtain ⟨h₀, hr, rfl⟩ := returns_second.1 first
      rw [List.append_nil, storeHistory_second] at exists_ ⊢
      exact Storage.sets_of_requestReview hr exists_
  | false =>
    rw [hc, if_neg (by decide)] at he
    cases he with
    | cons first rest =>
      cases rest
      obtain ⟨h₀, hr, rfl⟩ := returns_second.1 first
      rw [List.append_nil, storeHistory_second] at exists_ ⊢
      exact Storage.sets_of_markEvaluated hr exists_

def ReviewSent (conn : Connection) (caseId : String) (h : History StoredCalls) : Prop :=
  ∃ (h₀ : History Call.interface) (reason : String), Expands (gateway conn) h₀ h ∧
    ⟨.requestReview caseId reason, .ok ()⟩ ∈ h₀

theorem ReviewSent.update (sent : ReviewSent conn caseId h)
    (exists_ : CaseExists caseId (storeHistory h)) :
    ∃ f, f ∈ caseUpdates caseId (storeHistory h) := by
  obtain ⟨h₀, reason, he, hm⟩ := sent
  obtain ⟨before, after, rfl⟩ := List.append_of_mem hm
  obtain ⟨h₁, h₂, rfl, -, he₂⟩ := he.split
  cases he₂ with
  | cons first rest =>
    obtain ⟨h₃, hr, rfl⟩ := returns_second.1 first
    rw [storeHistory_append, storeHistory_append, storeHistory_second] at exists_ ⊢
    rcases Storage.sets_of_requestReview hr (exists_.mono (by simp +contextual)) with
      ⟨-, time, hs⟩ | ⟨e, hw, -⟩
    · refine ⟨CaseStatus.inReview.fields time, ?_⟩
      rw [caseUpdates_append, caseUpdates_append, hs]
      simp
    · cases hw

section Check

open Check

variable {s : EngineSettings} {r : CheckRequest} {facts : Facts}

theorem sets_of_delivery {before after : History Call.interface} {x : EligibilityResult}
    {c : CombinedVerdict} {w : Except Raised Unit} (silent : Silent before) (quiet : Quiet after)
    (he : Expands (gateway conn)
      (before ++ ⟨.saveResult x, .ok ()⟩ :: notice caseId c w :: after) h)
    (exists_ : CaseExists caseId (storeHistory h)) :
    Storage.Sets caseId (statusFor c.escalate) (storeHistory h) w := by
  have unannounced : ∀ y ∈ before ++ [⟨.saveResult x, .ok ()⟩],
      y.call.writeStage? ≠ some .notification := by
    intro y hy hs
    rcases List.mem_append.1 hy with hy | hy
    · have hm : y ∈ notifications before := List.mem_filter.2 ⟨hy, by simpa using hs⟩
      rw [silent.2] at hm
      cases hm
    · obtain rfl := List.mem_singleton.1 hy
      cases hs
  have quietly : ∀ y ∈ after, y.call.writeStage? ≠ some .notification := by
    intro y hy hs
    rw [quiet y hy] at hs
    cases hs
  rw [← List.singleton_append, ← List.append_assoc] at he
  obtain ⟨h₁, h₂, rfl, he₁, he₂⟩ := he.split
  rw [← List.singleton_append] at he₂
  obtain ⟨h₃, h₄, rfl, he₃, he₄⟩ := he₂.split
  rw [storeHistory_append, storeHistory_append] at exists_ ⊢
  refine (sets_of_notice he₃ (exists_.mono (by simp +contextual))).of_updates ?_
  rw [caseUpdates_append, caseUpdates_append, updates_of_expands he₁ unannounced,
    updates_of_expands he₄ quietly, List.nil_append, List.append_nil]

theorem updates_of_failed {e : Raised}
    (hr : Returns ((overFacts s r facts).translate (gateway conn)) h (.error e))
    (exists_ : CaseExists r.caseId (storeHistory h)) :
    caseUpdates r.caseId (storeHistory h) = [] := by
  obtain ⟨h₀, hr₀, he⟩ := returns_translate.1 hr
  rcases (returns_overFacts.1 hr₀).writes_error with
    silent | ⟨before, x, c, lost, rfl, silent, -, -, -⟩
  · refine updates_of_expands he fun x hx hs => ?_
    have hm : x ∈ notifications h₀ := List.mem_filter.2 ⟨hx, by simpa using hs⟩
    rw [silent.2] at hm
    cases hm
  · rcases sets_of_delivery silent quiet_failureCount he exists_ with ⟨hw, -⟩ | ⟨e, -, hn⟩
    · cases hw
    · exact hn

theorem sets_of_report {y : CheckReport}
    (hr : Returns ((overFacts s r facts).translate (gateway conn)) h (.ok y))
    (exists_ : CaseExists r.caseId (storeHistory h)) :
    ∃ w base, y.warnings = base ++ noticeWarnings y.combined w ∧
      y.combined.escalate = y.result.escalated ∧
      Storage.Sets r.caseId (statusFor y.result.escalated) (storeHistory h) w := by
  obtain ⟨h₀, hr₀, he⟩ := returns_translate.1 hr
  obtain ⟨before, w, after, base, rfl, silent, quiet, -, escalated, hw, -⟩ :=
    (returns_overFacts.1 hr₀).writes_ok
  refine ⟨w, base, hw, escalated, ?_⟩
  rw [← escalated]
  exact sets_of_delivery silent quiet he exists_

theorem reviewSent_of_unwarned {y : CheckReport}
    (hr : Returns ((overFacts s r facts).translate (gateway conn)) h (.ok y))
    (escalated : y.result.escalated = true)
    (unwarned : ∀ message, "human review request failed: " ++ message ∉ y.warnings) :
    ReviewSent conn r.caseId h := by
  obtain ⟨h₀, hr₀, he⟩ := returns_translate.1 hr
  obtain ⟨before, w, after, base, rfl, -, -, -, same, hw, -⟩ := (returns_overFacts.1 hr₀).writes_ok
  rw [escalated] at same
  cases w with
  | ok u =>
    have sent : notice r.caseId y.combined (.ok u) =
        ⟨.requestReview r.caseId (EscalationReason.describe y.combined.reasons), .ok ()⟩ :=
      if_pos same
    rw [sent] at he
    exact ⟨_, _, he, List.mem_append_right _ (List.mem_cons_of_mem _ List.mem_cons_self)⟩
  | error e =>
    refine absurd ?_ (unwarned e.message)
    have text : "human review request" ++ " failed: " = "human review request failed: " := by
      decide
    rw [hw, noticeWarnings, noticeName, if_pos same, replyWarnings, text]
    exact List.mem_append_right _ (List.mem_singleton.2 rfl)

end Check

end
end VisaEligibility
