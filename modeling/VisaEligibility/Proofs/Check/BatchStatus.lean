import VisaEligibility.Check.Batch
import VisaEligibility.Proofs.Check.Gateway
import VisaEligibility.Proofs.Program.Interleaving
/-!
The status of a case after a batch. The checks of a batch run side by side and each sets the status
of the one case on its own, whatever the others have set; the last update that succeeds decides.
-/
set_option autoImplicit false

namespace VisaEligibility

open Program Documents

namespace Batch

def threads (conn : Connection) (s : EngineSettings) (caseId : String) (o : BatchOptions)
    (facts : Facts) (asOf : Instant) (visaTypeIds : List String) :
    List (Program StoredCalls (Except Raised CheckReport)) :=
  (checks s caseId o facts asOf visaTypeIds).map fun p => p.translate (gateway conn)

def updates (caseId : String) (h : SharedHistory StoredCalls) :
    List (Nat × List (String × Value)) :=
  h.filterMap fun e => ((stored? e.2).bind (caseUpdate? caseId)).map (Prod.mk e.1)

def caseAfter (caseId : String) (document : List (String × Value))
    (h : SharedHistory StoredCalls) : List (String × Value) :=
  (updates caseId h).foldl (fun d u => Entries.merge d u.2) document

variable {conn : Connection} {s : EngineSettings} {caseId : String} {o : BatchOptions}
  {facts : Facts} {asOf : Instant} {visaTypeIds : List String} {h : SharedHistory StoredCalls}
  {outcomes : List (Except Raised CheckReport)}

theorem mem_storeHistory {h : History StoredCalls} {x : Exchange StoreCall.interface} :
    x ∈ storeHistory h ↔ x.second ∈ h := by
  unfold storeHistory
  rw [List.mem_filterMap]
  constructor
  · rintro ⟨⟨c, r⟩, hm, hs⟩
    cases c with
    | inl c => cases hs
    | inr c =>
      cases hs
      exact hm
  · intro hm
    exact ⟨x.second, hm, rfl⟩

theorem mem_updates {n : Nat} {f : List (String × Value)} :
    (n, f) ∈ updates caseId h ↔ f ∈ caseUpdates caseId (storeHistory (own n h)) := by
  unfold updates caseUpdates
  rw [List.mem_filterMap, List.mem_filterMap]
  constructor
  · rintro ⟨⟨m, ⟨c, r⟩⟩, hm, hu⟩
    obtain ⟨f', hf, he⟩ := Option.map_eq_some_iff.1 hu
    obtain ⟨x, hx, hf⟩ := Option.bind_eq_some_iff.1 hf
    cases he
    cases c with
    | inl c => cases hx
    | inr c =>
      cases hx
      exact ⟨⟨c, r⟩, mem_storeHistory.2 (mem_own.2 hm), hf⟩
  · rintro ⟨x, hx, hf⟩
    refine ⟨(n, x.second), mem_own.1 (mem_storeHistory.1 hx), ?_⟩
    simp [stored?, Exchange.second, hf]

theorem caseExists_own (he : CaseExists caseId (storeHistory (h.map Prod.snd))) (n : Nat) :
    CaseExists caseId (storeHistory (own n h)) := by
  refine he.mono fun x hx => ?_
  have hm := mem_own.1 (mem_storeHistory.1 hx)
  exact mem_storeHistory.2 (List.mem_map.2 ⟨_, hm, rfl⟩)

theorem returns_own (hi : Interleaves (threads conn s caseId o facts asOf visaTypeIds) h
      (outcomes.map done)) {n : Nat} {x : Except Raised CheckReport} (hx : outcomes[n]? = some x) :
    ∃ visaTypeId, Returns ((Check.overFacts s (request caseId o asOf visaTypeId) facts).translate
      (gateway conn)) (own n h) x := by
  obtain ⟨p, hp, hr⟩ := hi.reaches (n := n) (q := done x) (by simp [hx])
  simp only [threads, checks, List.map_map, List.getElem?_map, Option.map_eq_some_iff,
    Function.comp_apply] at hp
  obtain ⟨visaTypeId, -, rfl⟩ := hp
  exact ⟨visaTypeId, hr⟩

theorem update_of_report (hi : Interleaves (threads conn s caseId o facts asOf visaTypeIds) h
      (outcomes.map done)) (he : CaseExists caseId (storeHistory (h.map Prod.snd))) {n : Nat}
    {f : List (String × Value)} (hu : (n, f) ∈ updates caseId h) :
    ∃ y time, outcomes[n]? = some (.ok y) ∧ f = (statusFor y.result.escalated).fields time := by
  have hf := mem_updates.1 hu
  have bound : n < outcomes.length := by
    obtain ⟨e, hm, hu⟩ := List.mem_filterMap.1 hu
    obtain ⟨f', -, hn⟩ := Option.map_eq_some_iff.1 hu
    cases hn
    have hl := hi.length_eq
    have hb := hi.index_lt e hm
    rw [List.length_map] at hl
    omega
  have hx : outcomes[n]? = some outcomes[n] := List.getElem?_eq_getElem bound
  obtain ⟨visaTypeId, hr⟩ := returns_own hi hx
  cases ho : outcomes[n] with
  | error e =>
    rw [ho] at hr
    have none : caseUpdates caseId _ = [] := updates_of_failed hr (caseExists_own he n)
    rw [none] at hf
    cases hf
  | ok y =>
    rw [ho] at hr hx
    obtain ⟨w, base, -, -, sets⟩ := sets_of_report hr (caseExists_own he n)
    rcases sets with ⟨-, time, (hs : caseUpdates caseId _ = _)⟩ |
      ⟨e, -, (hs : caseUpdates caseId _ = _)⟩
    · rw [hs] at hf
      exact ⟨y, time, hx, List.mem_singleton.1 hf⟩
    · rw [hs] at hf
      cases hf

theorem update_of_reviewSent (he : CaseExists caseId (storeHistory (h.map Prod.snd))) {n : Nat}
    (sent : ReviewSent conn caseId (own n h)) : ∃ f, (n, f) ∈ updates caseId h := by
  obtain ⟨f, hf⟩ := sent.update (caseExists_own he n)
  exact ⟨f, mem_updates.2 hf⟩

theorem requiresReview_of_escalated {n : Nat} {y : CheckReport}
    (hl : outcomes.length = visaTypeIds.length) (hy : outcomes[n]? = some (.ok y))
    (escalated : y.result.escalated = true) :
    (report caseId (visaTypeIds.zip outcomes)).summary.requiresReview = true := by
  obtain ⟨bound, -⟩ := List.getElem?_eq_some_iff.1 hy
  have hv : visaTypeIds[n]? = some visaTypeIds[n] := List.getElem?_eq_getElem (hl ▸ bound)
  have hz : (visaTypeIds[n], .ok y) ∈ visaTypeIds.zip outcomes :=
    List.mem_of_getElem? (List.getElem?_zip_eq_some.2 ⟨hv, hy⟩)
  have hr : y ∈ (report caseId (visaTypeIds.zip outcomes)).reports :=
    List.mem_filterMap.2 ⟨_, hz, rfl⟩
  have he : y ∈ (report caseId (visaTypeIds.zip outcomes)).reports.filter
      fun r => r.result.escalated := List.mem_filter.2 ⟨hr, escalated⟩
  exact decide_eq_true (List.length_pos_of_mem he)

theorem status_caseAfter {document f : List (String × Value)} {n : Nat} {status : CaseStatus}
    {time : Instant} (hu : (updates caseId h).getLast? = some (n, f))
    (hf : f = status.fields time) :
    Entries.get? (caseAfter caseId document h) "status" = some (.text status.name) := by
  obtain ⟨earlier, hl⟩ := List.getLast?_eq_some_iff.1 hu
  unfold caseAfter
  rw [hl, List.foldl_append, List.foldl_cons, List.foldl_nil, hf]
  exact status_merge _ _ _

/-- The status of a case after a batch, whatever the order of the awaits of its checks. Each check
sets the status on its own: every update of the case is that of a check with a report, to `in_review`
if it is escalated and else to `evaluated`. If a check is escalated and its review request is sent,
the batch requires review and the status is that of the check whose update came last; so the case is
left in review unless that is a sibling that is done. -/
theorem batch_status_of_last (document : List (String × Value))
    (hi : Interleaves (threads conn s caseId o facts asOf visaTypeIds) h (outcomes.map done))
    (he : CaseExists caseId (storeHistory (h.map Prod.snd))) :
    (∀ n f, (n, f) ∈ updates caseId h →
      ∃ y time, outcomes[n]? = some (.ok y) ∧ f = (statusFor y.result.escalated).fields time) ∧
    ∀ (n : Nat) (y : CheckReport), outcomes[n]? = some (.ok y) → y.result.escalated = true →
      ReviewSent conn caseId (own n h) →
      (report caseId (visaTypeIds.zip outcomes)).summary.requiresReview = true ∧
      ∃ k z, (updates caseId h).getLast?.map Prod.fst = some k ∧ outcomes[k]? = some (.ok z) ∧
        Entries.get? (caseAfter caseId document h) "status" =
          some (.text (if z.result.escalated then "in_review" else "evaluated")) := by
  refine ⟨fun n f hu => update_of_report hi he hu, ?_⟩
  intro n y hy escalated sent
  have hl : outcomes.length = visaTypeIds.length := by
    have := hi.length_eq
    simpa [threads, checks] using this
  refine ⟨requiresReview_of_escalated hl hy escalated, ?_⟩
  obtain ⟨f, hu⟩ := update_of_reviewSent he sent
  cases hlast : (updates caseId h).getLast? with
  | none =>
    rw [List.getLast?_eq_none_iff.1 hlast] at hu
    cases hu
  | some u =>
    obtain ⟨k, f⟩ := u
    have hm : (k, f) ∈ updates caseId h := List.mem_of_getLast? hlast
    obtain ⟨z, time, hz, hf⟩ := update_of_report hi he hm
    refine ⟨k, z, rfl, hz, ?_⟩
    rw [status_caseAfter hlast hf]
    cases z.result.escalated <;> rfl

def nested : Nat → Value
  | 0 => .null
  | n + 1 => .record [("operand", nested n)]

def deepVersion : RuleVersion :=
  { (default : RuleVersion) with
    requirements := [{ code := "R1", expression := nested 21, mandatory := true }] }

/-- A world in which one visa type requires nothing and every other too much. Every write succeeds
and every update finds its case. -/
def storedWorld : (c : StoredCalls.Call) → StoredCalls.Reply c
  | .inl (.ruleVersion visaTypeId _) =>
    Except.ok (if visaTypeId = "visa-1" then default else deepVersion)
  | .inl c => Check.bareWorld default (.ok ()) (.ok ()) c
  | .inr .connect => Except.ok ()
  | .inr .close => Except.ok ()
  | .inr (.ping _) => Except.ok ()
  | .inr (.find _ _ _ _) => Except.ok []
  | .inr (.insertOne _ _) => Except.ok ()
  | .inr (.insertMany _ _) => Except.ok ()
  | .inr (.setFields _ _ _) => Except.ok (1 : Number)
  | .inr (.createIndex _ _) => Except.ok ()
  | .inr (.pause _) => ()
  | .inr .now => Instant.ofMillis 0

def plainSettings : EngineSettings :=
  { thresholds := { eligible := 1, review := 0, escalation := 0 }, aiReasoningEnabled := false }

def plainThread (visaTypeId : String) : Program StoredCalls (Except Raised CheckReport) :=
  (Check.overFacts plainSettings (request "case-1" {} (.ofMillis 0) visaTypeId) .empty).translate
    (gateway ⟨true⟩)

def plainOutcome (visaTypeId : String) : Except Raised CheckReport :=
  (trace storedWorld (plainThread visaTypeId)).2

/-- The second check of a batch begins when the first one has ended. -/
def staggered : SharedHistory StoredCalls :=
  (trace storedWorld (plainThread "visa-1")).1.map (Prod.mk 0) ++
    (trace storedWorld (plainThread "visa-2")).1.map (Prod.mk 1)

theorem interleaves_staggered :
    Interleaves (threads ⟨true⟩ plainSettings "case-1" {} .empty (.ofMillis 0) ["visa-1", "visa-2"])
      staggered ([plainOutcome "visa-1", plainOutcome "visa-2"].map done) := by
  have one : Interleaves [plainThread "visa-1", plainThread "visa-2"] _
      [done (plainOutcome "visa-1"), plainThread "visa-2"] :=
    .of_reaches (n := 0) rfl (returns_trace storedWorld _)
  have two : Interleaves [done (plainOutcome "visa-1"), plainThread "visa-2"] _
      [done (plainOutcome "visa-1"), done (plainOutcome "visa-2")] :=
    .of_reaches (n := 1) rfl (returns_trace storedWorld _)
  exact one.trans two

theorem caseExists_staggered : CaseExists "case-1" (storeHistory (staggered.map Prod.snd)) := by
  intro fields matched hm
  have answered : ∀ x ∈ staggered.map Prod.snd, x = ⟨x.call, storedWorld x.call⟩ := by
    intro x hx
    simp only [staggered, List.map_append, List.map_map, List.mem_append] at hx
    rcases hx with hx | hx
    · obtain ⟨y, hy, rfl⟩ := List.mem_map.1 hx
      exact eq_of_mem_trace hy
    · obtain ⟨y, hy, rfl⟩ := List.mem_map.1 hx
      exact eq_of_mem_trace hy
  cases answered _ (mem_storeHistory.1 hm)
  decide

theorem own_staggered : own 0 staggered = (trace storedWorld (plainThread "visa-1")).1 := by
  unfold staggered
  rw [own_append, own_map_self, own_map_of_ne (by decide), List.append_nil]

theorem escalated_first : ∃ y, plainOutcome "visa-1" = .ok y ∧ y.result.escalated = true ∧
    ReviewSent ⟨true⟩ "case-1" (own 0 staggered) := by
  have facts : (plainOutcome "visa-1").toOption.map (fun y => (y.result.escalated, y.warnings)) =
      some (true, ["Rule version  has no requirements"]) := by decide +kernel
  have hr := returns_trace storedWorld (plainThread "visa-1")
  change Returns _ _ (plainOutcome "visa-1") at hr
  cases ho : plainOutcome "visa-1" with
  | error e =>
    rw [ho] at facts
    cases facts
  | ok y =>
    rw [ho] at facts hr
    obtain ⟨escalated, warned⟩ := Prod.mk.inj (Option.some.inj facts)
    refine ⟨y, rfl, escalated, ?_⟩
    rw [own_staggered]
    refine reviewSent_of_unwarned hr escalated fun message hm => ?_
    rw [warned] at hm
    have same := congrArg (fun t => t.toList.head?) (List.mem_singleton.1 hm)
    simp at same

theorem not_escalated_second :
    ∃ y, plainOutcome "visa-2" = .ok y ∧ y.result.escalated = false := by
  have settled : (plainOutcome "visa-2").toOption.map (fun y => y.result.escalated) =
      some false := by decide +kernel
  cases ho : plainOutcome "visa-2" with
  | error e =>
    rw [ho] at settled
    cases settled
  | ok y =>
    rw [ho] at settled
    exact ⟨y, rfl, Option.some.inj settled⟩

theorem last_staggered : (updates "case-1" staggered).getLast?.map Prod.fst = some 1 := by
  decide +kernel

def submitted : List (String × Value) :=
  [("case_id", .text "case-1"), ("status", .text "submitted")]

/-- A batch that requires review may leave its case evaluated: the check that is done may set the
status after the one that is escalated. -/
theorem evaluated_despite_review :
    ∃ outcomes y,
      Interleaves (threads ⟨true⟩ plainSettings "case-1" {} .empty (.ofMillis 0)
        ["visa-1", "visa-2"]) staggered (outcomes.map done) ∧
      CaseExists "case-1" (storeHistory (staggered.map Prod.snd)) ∧
      outcomes[0]? = some (.ok y) ∧ y.result.escalated = true ∧
      ReviewSent ⟨true⟩ "case-1" (own 0 staggered) ∧
      (report "case-1" (["visa-1", "visa-2"].zip outcomes)).summary.requiresReview = true ∧
      Entries.get? (caseAfter "case-1" submitted staggered) "status" =
        some (.text "evaluated") := by
  obtain ⟨y, hy, escalated, sent⟩ := escalated_first
  obtain ⟨z, hz, settled⟩ := not_escalated_second
  have first : [plainOutcome "visa-1", plainOutcome "visa-2"][0]? = some (.ok y) :=
    congrArg some hy
  have review : (report "case-1" (["visa-1", "visa-2"].zip
      [plainOutcome "visa-1", plainOutcome "visa-2"])).summary.requiresReview = true :=
    requiresReview_of_escalated (by simp) first escalated
  refine ⟨_, y, interleaves_staggered, caseExists_staggered, first, escalated, sent, review, ?_⟩
  obtain ⟨⟨n, f⟩, hu, hn⟩ := Option.map_eq_some_iff.1 last_staggered
  obtain ⟨w, time, hw, hf⟩ :=
    update_of_report interleaves_staggered caseExists_staggered (List.mem_of_getLast? hu)
  cases hn
  have hw : plainOutcome "visa-2" = .ok w := Option.some.inj hw
  rw [hz] at hw
  cases hw
  rw [status_caseAfter hu hf, settled]
  rfl

theorem batch_status_of_last_staggered :
    ∃ outcomes y,
      Interleaves (threads ⟨true⟩ plainSettings "case-1" {} .empty (.ofMillis 0)
        ["visa-1", "visa-2"]) staggered (outcomes.map done) ∧
      CaseExists "case-1" (storeHistory (staggered.map Prod.snd)) ∧
      outcomes[0]? = some (.ok y) ∧ y.result.escalated = true ∧
      (report "case-1" (["visa-1", "visa-2"].zip outcomes)).summary.requiresReview = true ∧
      ∃ k z, (updates "case-1" staggered).getLast?.map Prod.fst = some k ∧
        outcomes[k]? = some (.ok z) ∧
        Entries.get? (caseAfter "case-1" submitted staggered) "status" =
          some (.text (if z.result.escalated then "in_review" else "evaluated")) := by
  obtain ⟨y, hy, escalated, sent⟩ := escalated_first
  refine ⟨_, y, interleaves_staggered, caseExists_staggered, congrArg some hy, escalated, ?_⟩
  exact (batch_status_of_last submitted interleaves_staggered caseExists_staggered).2 0 y
    (congrArg some hy) escalated sent

end Batch
end VisaEligibility
