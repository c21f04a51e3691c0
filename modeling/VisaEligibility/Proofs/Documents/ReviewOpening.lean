import Mathlib.Logic.Function.Basic
import VisaEligibility.Proofs.Documents.Serving
/-!
Opening a review writes to two collections, first the review and then the status of the case. Each
write may fail, and one that fails may have taken effect all the same. The status is changed only
once the review is there; a failure in between leaves the review behind.
-/
set_option autoImplicit false

namespace VisaEligibility.Documents

open Program

abbrev Contents := Collection → List Value

def withFields (fields : List (String × Value)) : Value → Value
  | .record own => .record (Entries.merge own fields)
  | document => document

/-- A write takes effect. An insertion adds its document under a new id; an update changes one
document that meets its conditions, if there is one, and replies how many there were. -/
inductive Writes : Contents → Exchange StoreCall.interface → Contents → Prop where
  | inserted {s : Contents} {k : Collection} {document : Value} {id : String}
      (new : ∀ d ∈ s k, d.field "_id" ≠ .text id) :
      Writes s ⟨.insertOne k document, (.ok () : Except Raised Unit)⟩
        (Function.update s k (s k ++ [withId id document]))
  | updated {s : Contents} {k : Collection} {conditions : List Condition}
      {fields : List (String × Value)} {before after : List Value} {d : Value}
      (stored : s k = before ++ d :: after) (meets : ∀ c ∈ conditions, c.Meets d) :
      Writes s ⟨.setFields k conditions fields, (.ok 1 : Except Raised Number)⟩
        (Function.update s k (before ++ withFields fields d :: after))
  | missed {s : Contents} {k : Collection} {conditions : List Condition}
      {fields : List (String × Value)} (unmet : ∀ d ∈ s k, ¬∀ c ∈ conditions, c.Meets d) :
      Writes s ⟨.setFields k conditions fields, (.ok 0 : Except Raised Number)⟩ s

def IsFailed : Exchange StoreCall.interface → Prop
  | ⟨.insertOne _ _, .error _⟩ => True
  | ⟨.setFields _ _ _, .error _⟩ => True
  | _ => False

/-- A call on the store, with the documents before and after it. A write that has failed may have
taken effect. -/
inductive Performs : Contents → Exchange StoreCall.interface → Contents → Prop where
  | now {s : Contents} (time : Instant) : Performs s ⟨.now, time⟩ s
  | acknowledged {s s' : Contents} {x : Exchange StoreCall.interface} (effect : Writes s x s') :
      Performs s x s'
  | refused {s : Contents} {x : Exchange StoreCall.interface} (failed : IsFailed x) :
      Performs s x s
  | unacknowledged {s s' : Contents} {c : StoreCall} {r r' : StoreCall.Reply c}
      (failed : IsFailed ⟨c, r⟩) (effect : Writes s ⟨c, r'⟩ s') : Performs s ⟨c, r⟩ s'

/-- The calls of a history are performed one after the other. -/
inductive Performing : Contents → History StoreCall.interface → Contents → Prop where
  | nil (s : Contents) : Performing s [] s
  | cons {s s' s'' : Contents} {x : Exchange StoreCall.interface}
      {h : History StoreCall.interface} (first : Performs s x s') (rest : Performing s' h s'') :
      Performing s (x :: h) s''

abbrev IsOfCase (caseId : String) (d : Value) : Prop := (Storage.ofCase caseId).Meets d

def ReviewAdded (caseId reason : String) (s s' : Contents) : Prop :=
  ∃ review, s' .reviews = s .reviews ++ [review] ∧ review.field "case_id" = .text caseId ∧
    review.field "reason" = .text reason ∧ review.field "status" = .text "pending"

def CaseMoved (caseId : String) (s s' : Contents) : Prop :=
  ∃ before d d' after, s .cases = before ++ d :: after ∧ s' .cases = before ++ d' :: after ∧
    IsOfCase caseId d ∧ IsOfCase caseId d' ∧ d'.field "status" = .text "in_review"

variable {s s' s'' : Contents} {caseId reason : String} {h : History StoreCall.interface}

theorem field_withFields {fields own : List (String × Value)} {key : String} :
    (withFields fields (.record own)).field key =
      (Entries.get? (Entries.merge own fields) key).getD .undefined :=
  rfl

theorem get?_merge_status (own : List (String × Value)) (status : CaseStatus) (time : Instant) :
    Entries.get? (Entries.merge own (status.fields time)) "case_id" =
      Entries.get? own "case_id" := by
  cases status with
  | evaluated =>
    simp only [CaseStatus.fields, Entries.merge, List.foldl_cons, List.foldl_nil]
    rw [Entries.get?_put_of_ne _ _ (by decide), Entries.get?_put_of_ne _ _ (by decide),
      Entries.get?_put_of_ne _ _ (by decide)]
  | inReview =>
    simp only [CaseStatus.fields, Entries.merge, List.foldl_cons, List.foldl_nil]
    rw [Entries.get?_put_of_ne _ _ (by decide), Entries.get?_put_of_ne _ _ (by decide)]

theorem isOfCase_withFields {d : Value} (status : CaseStatus) (time : Instant) :
    IsOfCase caseId (withFields (status.fields time) d) ↔ IsOfCase caseId d := by
  cases d with
  | record own =>
    have same : (withFields (status.fields time) (.record own)).field "case_id" =
        (Value.record own).field "case_id" := by
      rw [field_withFields, get?_merge_status]
      rfl
    simp only [IsOfCase, Storage.ofCase, Condition.Meets, reached, same]
  | _ => exact Iff.rfl

theorem status_withFields {d : Value} (ofCase : IsOfCase caseId d) (status : CaseStatus)
    (time : Instant) :
    (withFields (status.fields time) d).field "status" = .text status.name := by
  cases d with
  | record own =>
    rw [field_withFields, status_merge]
    rfl
  | _ =>
    obtain ⟨v, reached, named⟩ := ofCase
    rcases List.mem_cons.1 reached with rfl | listed
    · rcases named with missing | ⟨missing, -⟩ <;> cases missing
    · cases listed

theorem performing_cons {x : Exchange StoreCall.interface} :
    Performing s (x :: h) s'' ↔ ∃ s', Performs s x s' ∧ Performing s' h s'' := by
  constructor
  · rintro (_ | ⟨first, rest⟩)
    exact ⟨_, first, rest⟩
  · rintro ⟨s', first, rest⟩
    exact .cons first rest

@[simp] theorem performing_nil : Performing s [] s' ↔ s' = s := by
  constructor
  · rintro (_ | _)
    rfl
  · rintro rfl
    exact .nil s'

@[simp] theorem performing_singleton {x : Exchange StoreCall.interface} :
    Performing s [x] s' ↔ Performs s x s' := by
  simp [performing_cons]

@[simp] theorem performing_now {time : Instant} :
    Performing s (⟨.now, time⟩ :: h) s' ↔ Performing s h s' := by
  rw [performing_cons]
  constructor
  · rintro ⟨between, told, rest⟩
    cases told with
    | now => exact rest
    | acknowledged effect => cases effect
    | refused => exact rest
    | unacknowledged _ effect => cases effect
  · exact fun rest => ⟨s, .now time, rest⟩

theorem eq_of_writes_insertOne {k : Collection} {document : Value}
    {r : StoreCall.Reply (.insertOne k document)}
    (effect : Writes s ⟨.insertOne k document, r⟩ s') :
    ∃ id, s' = Function.update s k (s k ++ [withId id document]) := by
  cases effect with
  | @inserted _ _ id _ => exact ⟨id, rfl⟩

theorem cases_of_insertOne {k : Collection} {document : Value} {x : Except Raised Unit}
    (performed : Performs s ⟨.insertOne k document, x⟩ s') :
    (∃ id, s' = Function.update s k (s k ++ [withId id document])) ∨
      s' = s ∧ ∃ e, x = .error e := by
  cases performed with
  | acknowledged effect => exact .inl (eq_of_writes_insertOne effect)
  | refused failed =>
    cases x with
    | ok u => exact failed.elim
    | error e => exact .inr ⟨rfl, e, rfl⟩
  | unacknowledged _ effect => exact .inl (eq_of_writes_insertOne effect)

theorem cases_of_writes_update {time : Instant}
    {r : StoreCall.Reply
      (.setFields .cases [Storage.ofCase caseId] (CaseStatus.inReview.fields time))}
    (effect : Writes s
      ⟨.setFields .cases [Storage.ofCase caseId] (CaseStatus.inReview.fields time), r⟩ s') :
    (CaseMoved caseId s s' ∧ ∀ k, k ≠ .cases → s' k = s k) ∨
      s' = s ∧ ∀ d ∈ s .cases, ¬IsOfCase caseId d := by
  cases effect with
  | @updated _ _ _ before after d stored meets =>
    have ofCase : IsOfCase caseId d := meets _ (List.mem_singleton.2 rfl)
    refine .inl ⟨⟨before, d, _, after, stored, Function.update_self .., ofCase, ?_, ?_⟩,
      fun k other => Function.update_of_ne other ..⟩
    · exact (isOfCase_withFields .inReview time).2 ofCase
    · exact status_withFields ofCase .inReview time
  | missed unmet =>
    refine .inr ⟨rfl, fun d stored ofCase => unmet d stored fun c listed => ?_⟩
    rw [List.mem_singleton.1 listed]
    exact ofCase

theorem cases_of_update {time : Instant} {x : Except Raised Number}
    (performed : Performs s
      ⟨.setFields .cases [Storage.ofCase caseId] (CaseStatus.inReview.fields time), x⟩ s') :
    (CaseMoved caseId s s' ∧ ∀ k, k ≠ .cases → s' k = s k) ∨
      s' = s ∧ ((∃ e, x = .error e) ∨ ∀ d ∈ s .cases, ¬IsOfCase caseId d) := by
  cases performed with
  | acknowledged effect =>
    exact (cases_of_writes_update effect).imp_right fun missed => ⟨missed.1, .inr missed.2⟩
  | refused failed =>
    cases x with
    | ok matched => exact failed.elim
    | error e => exact .inr ⟨rfl, .inl ⟨e, rfl⟩⟩
  | unacknowledged _ effect =>
    exact (cases_of_writes_update effect).imp_right fun missed => ⟨missed.1, .inr missed.2⟩

abbrev reviewInsertion (caseId reason : String) (time : Instant) (x : Except Raised Unit) :
    Exchange StoreCall.interface :=
  ⟨.insertOne .reviews (ReviewRequest.document ⟨caseId, reason, time⟩), x⟩

abbrev statusUpdate (caseId : String) (time : Instant) (x : Except Raised Number) :
    Exchange StoreCall.interface :=
  ⟨.setFields .cases [Storage.ofCase caseId] (CaseStatus.inReview.fields time), x⟩

/-- The calls that opening a review makes, and how it ends. -/
inductive Opens (c : Connection) (caseId reason : String) (time : Instant) :
    History StoreCall.interface → Except Raised Unit → Prop where
  | unconnected (closed : c.opened = false) :
      Opens c caseId reason time [⟨.now, time⟩] (.error (.failure Connection.notOpened))
  | uninserted {e : Raised} (opened : c.opened = true) :
      Opens c caseId reason time [⟨.now, time⟩, reviewInsertion caseId reason time (.error e)]
        (.error e)
  | unmoved {e : Raised} (opened : c.opened = true) :
      Opens c caseId reason time
        [⟨.now, time⟩, reviewInsertion caseId reason time (.ok ()),
          statusUpdate caseId time (.error e)]
        (.error e)
  | opened {matched : Number} (opened : c.opened = true) :
      Opens c caseId reason time
        [⟨.now, time⟩, reviewInsertion caseId reason time (.ok ()),
          statusUpdate caseId time (.ok matched)]
        (.ok ())

namespace Storage

theorem require_eq_ok {c : Connection} : c.require = .ok () ↔ c.opened = true := by
  cases known : c.opened <;> simp [Connection.require, known]

theorem require_eq_error {c : Connection} {e : Raised} :
    c.require = .error e ↔ c.opened = false ∧ e = .failure Connection.notOpened := by
  cases known : c.opened <;> simp [Connection.require, known, eq_comm]

theorem returns_markInReview {c : Connection} {time : Instant} {x : Except Raised Unit}
    (opened : c.opened = true) (run : Returns (markInReview c caseId (some time)).run h x) :
    ∃ updated : Except Raised Number, h = [statusUpdate caseId time updated] ∧
      x = updated.map fun _ => () := by
  have marking : Returns
      (setStatus c caseId .inReview time >>= fun _ => (pure () : Storage Unit)).run h x := run
  have connected : c.require = .ok () := require_eq_ok.2 opened
  have sent : ∀ {h : History StoreCall.interface} {y : Except Raised Number},
      Returns (setStatus c caseId .inReview time).run h y → h = [statusUpdate caseId time y] := by
    intro h y setting
    rcases returns_call.1 setting with ⟨e, refused, -⟩ | ⟨-, sent⟩
    · rw [connected] at refused
      cases refused
    · exact returns_perform.1 sent
  rcases Attempt.returns_bind.1 marking with
    ⟨e, rfl, setting⟩ | ⟨h₁, matched, h₂, rfl, setting, ended⟩
  · exact ⟨.error e, sent setting, rfl⟩
  · obtain ⟨rfl, rfl⟩ := returns_done.1 ended
    exact ⟨.ok matched, by rw [sent setting, List.append_nil], rfl⟩

theorem opens_of_returns {c : Connection} {x : Except Raised Unit}
    (run : Returns (requestReview c caseId reason).run h x) :
    ∃ time, Opens c caseId reason time h x := by
  rcases Attempt.returns_lift_bind.1 run with ⟨h₁, time, h₂, rfl, told, writing⟩
  obtain rfl := returns_perform.1 told
  refine ⟨time, ?_⟩
  rcases Attempt.returns_bind.1 writing with
    ⟨e, rfl, inserting⟩ | ⟨h₃, u, h₄, rfl, inserting, marking⟩
  · rcases returns_call.1 inserting with ⟨e', refused, rfl, same⟩ | ⟨connected, sent⟩
    · obtain ⟨closed, rfl⟩ := require_eq_error.1 refused
      cases same
      exact .unconnected closed
    · obtain rfl := returns_perform.1 sent
      exact .uninserted (require_eq_ok.1 connected)
  · rcases returns_call.1 inserting with ⟨e', -, -, failed⟩ | ⟨connected, sent⟩
    · cases failed
    · obtain rfl := returns_perform.1 sent
      have opened := require_eq_ok.1 connected
      obtain ⟨updated, rfl, rfl⟩ := returns_markInReview opened marking
      cases updated with
      | error e => exact .unmoved opened
      | ok matched => exact .opened opened

theorem reaches_writing (time : Instant) :
    Reaches (requestReview ⟨true⟩ caseId reason).run
      [⟨.now, time⟩, reviewInsertion caseId reason time (.ok ())]
      (markInReview ⟨true⟩ caseId (some time)).run :=
  Reaches.step (I := StoreCall.interface) (c := .now) time <|
    Reaches.step (I := StoreCall.interface)
      (c := (reviewInsertion caseId reason time (.ok ())).call)
      (Except.ok () : Except Raised Unit) (.here _)

theorem returns_of_opens {c : Connection} {time : Instant} {x : Except Raised Unit}
    (opens : Opens c caseId reason time h x) :
    Returns (requestReview c caseId reason).run h x := by
  obtain ⟨connected⟩ := c
  cases opens with
  | unconnected closed =>
    obtain rfl : connected = false := closed
    exact Reaches.step (I := StoreCall.interface) (c := .now) time (.here _)
  | @uninserted e opened =>
    obtain rfl : connected = true := opened
    exact Reaches.step (I := StoreCall.interface) (c := .now) time <|
      Reaches.step (I := StoreCall.interface)
        (c := (reviewInsertion caseId reason time (.error e)).call)
        (Except.error e : Except Raised Unit) (.here _)
  | @unmoved e opened =>
    obtain rfl : connected = true := opened
    exact (reaches_writing time).trans <|
      Reaches.step (I := StoreCall.interface) (c := (statusUpdate caseId time (.error e)).call)
        (Except.error e : Except Raised Number) (.here _)
  | @opened matched opened =>
    obtain rfl : connected = true := opened
    exact (reaches_writing time).trans <|
      Reaches.step (I := StoreCall.interface) (c := (statusUpdate caseId time (.ok matched)).call)
        (Except.ok matched : Except Raised Number) (.here _)

theorem returns_requestReview {c : Connection} {x : Except Raised Unit} :
    Returns (requestReview c caseId reason).run h x ↔ ∃ time, Opens c caseId reason time h x :=
  ⟨opens_of_returns, fun ⟨_, opens⟩ => returns_of_opens opens⟩

end Storage

def WriteFailed (k : Collection) (h : History StoreCall.interface) : Prop :=
  ∃ x ∈ h, IsFailed x ∧ x.call.collection? = some k

theorem cases_of_insertion {time : Instant} {x : Except Raised Unit}
    (inserting : Performs s (reviewInsertion caseId reason time x) s') :
    (ReviewAdded caseId reason s s' ∧ ∀ k, k ≠ .reviews → s' k = s k) ∨
      s' = s ∧ ∃ e, x = .error e := by
  rcases cases_of_insertOne inserting with ⟨id, rfl⟩ | same
  · exact .inl ⟨⟨_, Function.update_self .., rfl, rfl, rfl⟩,
      fun k other => Function.update_of_ne other ..⟩
  · exact .inr same

theorem ReviewAdded.later (added : ReviewAdded caseId reason s s')
    (kept : s'' .reviews = s' .reviews) : ReviewAdded caseId reason s s'' := by
  obtain ⟨review, now, pending⟩ := added
  exact ⟨review, kept.trans now, pending⟩

theorem CaseMoved.earlier (moved : CaseMoved caseId s' s'') (kept : s' .cases = s .cases) :
    CaseMoved caseId s s'' := by
  obtain ⟨before, d, d', after, stored, now⟩ := moved
  exact ⟨before, d, d', after, kept.symm.trans stored, now⟩

theorem cases_of_writes {time : Instant} {x : Except Raised Number}
    (inserting : Performs s (reviewInsertion caseId reason time (.ok ())) s')
    (updating : Performs s' (statusUpdate caseId time x) s'') :
    ReviewAdded caseId reason s s'' ∧ (∀ k, k ≠ .reviews → k ≠ .cases → s'' k = s k) ∧
      (CaseMoved caseId s s'' ∨ s'' .cases = s .cases ∧
        ((∃ e, x = .error e) ∨ ∀ d ∈ s .cases, ¬IsOfCase caseId d)) := by
  obtain ⟨added, kept⟩ : ReviewAdded caseId reason s s' ∧ ∀ k, k ≠ .reviews → s' k = s k := by
    rcases cases_of_insertion inserting with done | ⟨-, e, failed⟩
    · exact done
    · cases failed
  have cases_kept : s' .cases = s .cases := kept .cases (by decide)
  rcases cases_of_update updating with ⟨moved, kept'⟩ | ⟨rfl, why⟩
  · refine ⟨added.later (kept' .reviews (by decide)), fun k other other' => ?_,
      .inl (moved.earlier cases_kept)⟩
    exact (kept' k other').trans (kept k other)
  · rw [cases_kept] at why
    exact ⟨added, fun k other _ => kept k other, .inr ⟨cases_kept, why⟩⟩

/-- Opening a review writes the review first and the status second. It succeeds only if the store is
connected and neither write fails, and for a case that exists it does then. The review is there
afterwards, and the case is in review if it exists. The status is never changed without the review:
where the insertion has failed the cases are as before, where the update has failed the review is
left behind. Whether a write that has failed took effect shows in its own collection. -/
theorem review_opened_before_status {c : Connection} {x : Except Raised Unit}
    (run : Returns (Storage.requestReview c caseId reason).run h x)
    (performed : Performing s h s') :
    (x = .ok () → c.opened = true ∧ ¬WriteFailed .reviews h ∧ ¬WriteFailed .cases h ∧
      ReviewAdded caseId reason s s' ∧
      ((∃ d ∈ s .cases, IsOfCase caseId d) → CaseMoved caseId s s')) ∧
    ((∃ d ∈ s .cases, IsOfCase caseId d) → c.opened = true → ¬WriteFailed .reviews h →
      ¬WriteFailed .cases h → x = .ok ()) ∧
    (∀ k, k ≠ .reviews → k ≠ .cases → s' k = s k) ∧
    (c.opened = false → s' = s) ∧
    (WriteFailed .reviews h → s' .cases = s .cases ∧
      (s' .reviews = s .reviews ∨ ReviewAdded caseId reason s s')) ∧
    (WriteFailed .cases h → ReviewAdded caseId reason s s' ∧
      (s' .cases = s .cases ∨ CaseMoved caseId s s')) := by
  obtain ⟨time, opens⟩ := Storage.returns_requestReview.1 run
  cases opens with
  | unconnected closed =>
    obtain rfl := performing_nil.1 (performing_now.1 performed)
    simp [closed, WriteFailed, IsFailed]
  | uninserted opened =>
    rcases cases_of_insertion (performing_singleton.1 (performing_now.1 performed)) with
      ⟨added, kept⟩ | ⟨rfl, -⟩
    · simp +contextual [opened, WriteFailed, IsFailed, StoreCall.collection?, added, kept]
    · simp [opened, WriteFailed, IsFailed, StoreCall.collection?]
  | unmoved opened =>
    obtain ⟨s₁, inserting, updating⟩ := performing_cons.1 (performing_now.1 performed)
    obtain ⟨added, kept, moved | ⟨same, -⟩⟩ :=
      cases_of_writes inserting (performing_singleton.1 updating)
    · simp +contextual [opened, WriteFailed, IsFailed, StoreCall.collection?, added, kept, moved]
    · simp +contextual [opened, WriteFailed, IsFailed, StoreCall.collection?, added, kept, same]
  | opened opened =>
    obtain ⟨s₁, inserting, updating⟩ := performing_cons.1 (performing_now.1 performed)
    obtain ⟨added, kept, moved⟩ := cases_of_writes inserting (performing_singleton.1 updating)
    have found : ∀ d ∈ s .cases, IsOfCase caseId d → CaseMoved caseId s s' := by
      intro d stored ofCase
      rcases moved with moved | ⟨-, ⟨e, failed⟩ | none⟩
      · exact moved
      · cases failed
      · exact absurd ofCase (none d stored)
    simpa +contextual [opened, WriteFailed, IsFailed, StoreCall.collection?, added, kept]
      using found

def oneCase : Contents
  | .cases => [.record [("_id", .text "1"), ("case_id", .text "case-1"),
      ("status", .text "submitted")]]
  | _ => []

def storeLost : Raised := .failure (.general "store lost")

def lostBetween : History StoreCall.interface :=
  [⟨.now, Instant.ofMillis 0⟩, reviewInsertion "case-1" "Low confidence" (.ofMillis 0) (.ok ()),
    statusUpdate "case-1" (.ofMillis 0) (.error storeLost)]

theorem performing_lostBetween : ∃ s', Performing oneCase lostBetween s' ∧
    (s' .reviews).length = (oneCase .reviews).length + 1 := by
  refine ⟨_, .cons (.now _) (.cons (.acknowledged (@Writes.inserted _ _ _ "2" ?_))
    (.cons (.refused trivial) (.nil _))), ?_⟩
  · simp [oneCase]
  · simp

theorem returns_lostBetween :
    Returns (Storage.requestReview ⟨true⟩ "case-1" "Low confidence").run lostBetween
      (.error storeLost) :=
  Storage.returns_of_opens (.unmoved rfl)

theorem review_opened_before_status_interrupted :
    Returns (Storage.requestReview ⟨true⟩ "case-1" "Low confidence").run lostBetween
        (.error storeLost) ∧
      ∃ s', Performing oneCase lostBetween s' ∧
        ReviewAdded "case-1" "Low confidence" oneCase s' := by
  obtain ⟨s', performed, -⟩ := performing_lostBetween
  obtain ⟨-, -, -, -, -, left⟩ := review_opened_before_status returns_lostBetween performed
  refine ⟨returns_lostBetween, s', performed, (left ?_).1⟩
  exact ⟨statusUpdate "case-1" (.ofMillis 0) (.error storeLost), by simp [lostBetween], trivial,
    rfl⟩

/-- A request that fails can leave a new review behind. -/
theorem review_left_alone :
    ∃ h e s', Returns (Storage.requestReview ⟨true⟩ "case-1" "Low confidence").run h (.error e) ∧
      Performing oneCase h s' ∧ (s' .reviews).length = (oneCase .reviews).length + 1 := by
  obtain ⟨s', performed, more⟩ := performing_lostBetween
  exact ⟨lostBetween, storeLost, s', returns_lostBetween, performed, more⟩

end VisaEligibility.Documents
