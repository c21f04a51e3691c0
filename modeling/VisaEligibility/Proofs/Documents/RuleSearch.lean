import VisaEligibility.Proofs.Documents.CaseStatus
import VisaEligibility.Proofs.Rule.Selection
/-!
Rule versions found in the document store. The conditions on a stored version are put to the raw
document; a document that is read as a rule version meets them exactly if the version is in force.
So the store finds the same candidates as a search among the versions read, in some order, and the
version selected among them is the same.
-/
set_option autoImplicit false

namespace VisaEligibility.Documents

open Program

/-- What a condition on a field is put to: its value, and the items of a list. -/
def reached (document : Value) (field : String) : List Value :=
  document.field field :: ((document.field field).list?).getD []

/-- Dates compare only with dates. A missing value is equal to `null`. -/
def Condition.Meets (document : Value) : Condition → Prop
  | .equals field value => ∃ v ∈ reached document field, v = value ∨ value = .null ∧ v = .undefined
  | .atMost field time => ∃ d, .date d ∈ reached document field ∧ d.le time = true
  | .atLeast field time => ∃ d, .date d ∈ reached document field ∧ time.le d = true
  | .either a b => a.Meets document ∨ b.Meets document

def Found (documents : List Value) (conditions : List Condition) (found : List Value) : Prop :=
  ∃ others, documents.Perm (found ++ others) ∧ (∀ d ∈ found, ∀ c ∈ conditions, c.Meets d) ∧
    ∀ d ∈ others, ¬∀ c ∈ conditions, c.Meets d

def Searches (documents : List Value) : Exchange StoreCall.interface → Prop
  | ⟨.find .ruleVersions conditions _ none, r⟩ =>
      ∃ found, r = .ok found ∧ Found documents conditions found
  | _ => False

def Storage.ruleVersion (c : Connection) (visaTypeId : String) (asOf : Instant) :
    Storage RuleVersion := do
  let candidates ← activeRuleVersions c visaTypeId asOf
  ExceptT.mk (return RuleVersion.choose visaTypeId asOf candidates)

structure Holds (document : Value) (v : RuleVersion) : Prop where
  id : document.field "rule_version_id" = .text v.id
  visaTypeId : document.field "visa_type_id" = .text v.visaTypeId
  effectiveFrom : document.field "effective_from" = .date v.effectiveFrom
  effectiveTo : v.effectiveTo = none ∧ (document.field "effective_to").isNullish = true ∨
    ∃ time, v.effectiveTo = some time ∧ document.field "effective_to" = .date time
  published : document.field "published" = .bool v.published
  createdAt : document.field "created_at" = .date v.createdAt
  valid : v.effectiveFrom.isValid = true ∧ v.createdAt.isValid = true

theorem eq_text_of_filledText? {v : Value} {s : String} (hs : v.filledText? = some s) :
    v = .text s := by
  cases v with
  | text t =>
    simp only [Value.filledText?] at hs
    split at hs
    · cases hs
    · rw [Option.some.inj hs]
  | _ => cases hs

theorem eq_date_of_validDate? {v : Value} {d : Instant} (hd : v.validDate? = some d) :
    v = .date d ∧ d.isValid = true := by
  cases v with
  | date e =>
    simp only [Value.validDate?] at hd
    split at hd
    · rename_i valid
      rw [← Option.some.inj hd]
      exact ⟨rfl, valid⟩
    · cases hd
  | _ => cases hd

theorem eq_bool_of_bool? {v : Value} {b : Bool} (hb : v.bool? = some b) : v = .bool b := by
  cases v with
  | bool b' => rw [Option.some.inj hb]
  | _ => cases hb

theorem holds_of_ofDocument? {document : Value} {v : RuleVersion}
    (accepted : RuleVersion.ofDocument? document = some v) : Holds document v := by
  unfold RuleVersion.ofDocument? at accepted
  simp only [Option.bind_eq_bind, Option.bind_eq_some_iff] at accepted
  obtain ⟨id, hid, visaTypeId, hvisa, visaCode, -, effectiveFrom, hfrom, effectiveTo, hto,
    published, hpublished, createdAt, hcreated, raw, -, requirements, -, made⟩ := accepted
  obtain ⟨began, validFrom⟩ := eq_date_of_validDate? hfrom
  obtain ⟨made', validCreated⟩ := eq_date_of_validDate? hcreated
  cases made
  refine ⟨eq_text_of_filledText? hid, eq_text_of_filledText? hvisa, began, ?_,
    eq_bool_of_bool? hpublished, made', validFrom, validCreated⟩
  unfold Value.optional? at hto
  split at hto
  · rename_i missing
    exact .inl ⟨(Option.some.inj hto).symm, missing⟩
  · obtain ⟨time, htime, same⟩ := Option.map_eq_some_iff.1 hto
    exact .inr ⟨time, same.symm, (eq_date_of_validDate? htime).1⟩

theorem le_iff_not_lt {a b : Instant} (ha : a.isValid = true) (hb : b.isValid = true) :
    a.le b = true ↔ b.lt a = false := by
  cases a with
  | invalid => cases ha
  | ofMillis i =>
    cases b with
    | invalid => cases hb
    | ofMillis j =>
      have levels : (compare i j = .lt ∨ compare i j = .eq) ↔ compare j i ≠ .lt := by
        simp only [Int.compare_eq_lt, Int.compare_eq_eq, ne_eq]
        omega
      simpa [Instant.le, Instant.lt, Instant.order?] using levels

theorem Holds.meets_iff {document : Value} {v : RuleVersion} (hd : Holds document v)
    {visaTypeId : String} {asOf : Instant} (valid : asOf.isValid = true) :
    (∀ c ∈ Storage.inForce visaTypeId asOf, c.Meets document) ↔
      v.visaTypeId = visaTypeId ∧ v.isInForce asOf = true := by
  have typed : (Condition.equals "visa_type_id" (.text visaTypeId)).Meets document ↔
      v.visaTypeId = visaTypeId := by
    simp [Condition.Meets, reached, hd.visaTypeId, Value.list?]
  have published : (Condition.equals "published" (.bool true)).Meets document ↔
      v.published = true := by
    simp [Condition.Meets, reached, hd.published, Value.list?]
  have begins : (Condition.atMost "effective_from" asOf).Meets document ↔
      asOf.lt v.effectiveFrom = false := by
    simp [Condition.Meets, reached, hd.effectiveFrom, Value.list?, le_iff_not_lt hd.valid.1 valid]
  have ends : (Condition.either (.equals "effective_to" .null) (.atLeast "effective_to" asOf)).Meets
      document ↔ ∀ time, v.effectiveTo = some time → asOf.le time = true := by
    rcases hd.effectiveTo with ⟨endless, missing⟩ | ⟨time, ends, stored⟩
    · refine iff_of_true (.inl ⟨_, List.mem_cons_self, ?_⟩) (by simp [endless])
      cases stored : document.field "effective_to" <;> simp_all [Value.isNullish]
    · simp [Condition.Meets, reached, stored, ends, Value.list?]
  simp only [Storage.inForce, List.forall_mem_cons, List.not_mem_nil, false_implies, implies_true,
    and_true, typed, published, begins, ends, RuleVersion.isInForce_iff]

/-- The store finds the versions in force among those that are read from its documents. -/
theorem Found.versions {documents found : List Value} {visaTypeId : String} {asOf : Instant}
    (hf : Found documents (Storage.inForce visaTypeId asOf) found) (valid : asOf.isValid = true) :
    (found.filterMap RuleVersion.ofDocument?).Perm
      ((documents.filterMap RuleVersion.ofDocument?).filter
        fun v => v.visaTypeId == visaTypeId && v.isInForce asOf) := by
  obtain ⟨others, split, met, unmet⟩ := hf
  have kept : ∀ v ∈ found.filterMap RuleVersion.ofDocument?,
      (v.visaTypeId == visaTypeId && v.isInForce asOf) = true := by
    intro v hm
    obtain ⟨d, hd, accepted⟩ := List.mem_filterMap.1 hm
    have := ((holds_of_ofDocument? accepted).meets_iff valid).1 (met d hd)
    simpa using this
  have dropped : ∀ v ∈ others.filterMap RuleVersion.ofDocument?,
      ¬(v.visaTypeId == visaTypeId && v.isInForce asOf) = true := by
    intro v hm
    obtain ⟨d, hd, accepted⟩ := List.mem_filterMap.1 hm
    have := mt ((holds_of_ofDocument? accepted).meets_iff valid).2 (unmet d hd)
    simpa using this
  have all := (split.filterMap RuleVersion.ofDocument?).filter
    fun v => v.visaTypeId == visaTypeId && v.isInForce asOf
  rw [List.filterMap_append, List.filter_append, List.filter_eq_self.2 kept,
    List.filter_eq_nil_iff.2 dropped, List.append_nil] at all
  exact all.symm

theorem exists_found (documents : List Value) (conditions : List Condition) :
    ∃ found, Found documents conditions found := by
  classical
  let meets (d : Value) : Bool := decide (∀ c ∈ conditions, c.Meets d)
  refine ⟨documents.filter meets, documents.filter fun d => !meets d,
    (List.filter_append_perm meets documents).symm, fun d hd => ?_, fun d hd => ?_⟩
  · exact of_decide_eq_true (List.mem_filter.1 hd).2
  · have := (List.mem_filter.1 hd).2
    rw [Bool.not_eq_true'] at this
    exact of_decide_eq_false this

/-- Stored documents in which the id of a version and the time of its creation do not recur
together. -/
def Recorded (documents : List Value) : Prop :=
  documents.Pairwise fun d e => d.field "rule_version_id" = e.field "rule_version_id" →
    d.field "created_at" ≠ e.field "created_at"

theorem Recorded.distinguished {documents : List Value} (hr : Recorded documents) :
    RuleVersion.Distinguished (documents.filterMap RuleVersion.ofDocument?) := by
  refine ⟨fun v hm => ?_, List.pairwise_filterMap.2 (hr.imp ?_)⟩
  · obtain ⟨d, -, accepted⟩ := List.mem_filterMap.1 hm
    exact (holds_of_ofDocument? accepted).valid.2
  · intro d e apart v hv w hw same times
    have stored := holds_of_ofDocument? hv
    have stored' := holds_of_ofDocument? hw
    refine apart ?_ ?_
    · rw [stored.id, stored'.id, same]
    · rw [stored.createdAt, stored'.createdAt, times]

theorem returns_ruleVersion {visaTypeId : String} {asOf : Instant}
    {h : History StoreCall.interface} {x : Except Raised RuleVersion} :
    Returns (Storage.ruleVersion ⟨true⟩ visaTypeId asOf).run h x ↔
      ∃ r, h = [⟨.find .ruleVersions (Storage.inForce visaTypeId asOf)
          [("created_at", .descending)] none, r⟩] ∧
        x = r.bind fun found =>
          RuleVersion.choose visaTypeId asOf (found.filterMap RuleVersion.ofDocument?) := by
  have asked : (Storage.ruleVersion ⟨true⟩ visaTypeId asOf).run =
      perform (.find .ruleVersions (Storage.inForce visaTypeId asOf)
        [("created_at", .descending)] none) >>= fun r => done (r.bind fun found =>
          RuleVersion.choose visaTypeId asOf (found.filterMap RuleVersion.ofDocument?)) := by
    refine congrArg (Program.call _) (funext fun r => ?_)
    cases r with
    | error e => rfl
    | ok found => rfl
  rw [asked, bind_eq, returns_bind]
  constructor
  · rintro ⟨h₁, r, h₂, rfl, found, ended⟩
    obtain rfl := returns_perform.1 found
    obtain ⟨rfl, rfl⟩ := returns_done.1 ended
    exact ⟨r, rfl, rfl⟩
  · rintro ⟨r, rfl, rfl⟩
    exact ⟨_, r, [], (List.append_nil _).symm, returns_perform.2 rfl, returns_done.2 ⟨rfl, rfl⟩⟩

def inMemory (documents : List Value) : RuleLookups :=
  { source := { versions := documents.filterMap RuleVersion.ofDocument? } }

/-- The store selects the version that is selected in memory, or fails as it fails there. -/
theorem store_selects_as_memory {c : Connection} (opened : c.opened = true)
    {documents : List Value} (recorded : Recorded documents) (visaTypeId : String) {asOf : Instant}
    (valid : asOf.isValid = true) :
    (∃ h x, Returns (Storage.ruleVersion c visaTypeId asOf).run h x ∧
      ∀ e ∈ h, Searches documents e) ∧
    ∀ h x, Returns (Storage.ruleVersion c visaTypeId asOf).run h x →
      (∀ e ∈ h, Searches documents e) → x = ((inMemory documents).find visaTypeId asOf).1 := by
  obtain ⟨_⟩ := c
  cases opened
  simp only [returns_ruleVersion]
  refine ⟨?_, ?_⟩
  · obtain ⟨found, hf⟩ := exists_found documents (Storage.inForce visaTypeId asOf)
    refine ⟨_, _, ⟨.ok found, rfl, rfl⟩, fun e he => ?_⟩
    obtain rfl := List.mem_singleton.1 he
    exact ⟨found, rfl, hf⟩
  · rintro h x ⟨r, rfl, rfl⟩ searched
    obtain ⟨found, rfl, hf⟩ := searched _ (List.mem_singleton.2 rfl)
    have same := hf.versions valid
    have distinguished := (recorded.distinguished.sublist List.filter_sublist).perm same.symm
    exact distinguished.choose_eq same visaTypeId valid

def tiedDocuments : List Value :=
  let document (id : String) (created : Int) (rest : List (String × Value)) : Value :=
    .record ([("rule_version_id", .text id), ("visa_type_id", .text "skilled"),
      ("effective_from", .date (.ofMillis 0)), ("published", .bool true),
      ("created_at", .date (.ofMillis created)), ("requirements", .list [])] ++ rest)
  [document "a" 0 [("visa_code", .text "SKW"), ("effective_to", .null)],
    document "b" 0 [("visa_code", .text "SKW")],
    document "c" 1 [("effective_to", .null)],
    document "d" 2 [("visa_code", .text "SKW"), ("effective_to", .date (.ofMillis 4))]]

/-- Of versions created together the one with the greater id is selected, whatever order the store
lists them in. -/
theorem store_selects_as_memory_tied :
    Recorded tiedDocuments ∧ ∀ h x,
      Returns (Storage.ruleVersion ⟨true⟩ "skilled" (.ofMillis 5)).run h x →
        (∀ e ∈ h, Searches tiedDocuments e) → x.toOption.map RuleVersion.id = some "b" := by
  have recorded : Recorded tiedDocuments := by
    simp [Recorded, tiedDocuments, Value.field, Entries.get?]
  refine ⟨recorded, fun h x hr searched => ?_⟩
  rw [(store_selects_as_memory rfl recorded "skilled" rfl).2 h x hr searched]
  rfl

end VisaEligibility.Documents
