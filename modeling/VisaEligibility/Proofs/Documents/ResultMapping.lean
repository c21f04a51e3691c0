import VisaEligibility.Documents.Result
import VisaEligibility.Proofs.Text.Cuts
/-!
Results and their documents, there and back. Either way every field comes back as it was, in
whatever order the fields of a document stand, except for a link to a log whose id is empty: it
comes back as no link.
-/
set_option autoImplicit false

namespace VisaEligibility

theorem Text.Units.toString_ofString (s : String) : (Text.Units.ofString s).toString = s := by
  rw [Text.Units.toString, Text.Units.toList, Text.Units.ofString, Text.Units.ofList,
    Text.Units.decode_flatMap, String.ofList_toList]

namespace Value

variable {v : Value} {key : String}

theorem textAt_of_field {s : String} (h : v.field key = .text s) : v.textAt key = s := by
  simp [textAt, at?, h, isNullish, text?]

theorem numberAt_of_field {x : Number} (h : v.field key = .number x) : v.numberAt key = x := by
  simp [numberAt, at?, h, isNullish, number?]

theorem flagAt_of_field {b : Bool} (h : v.field key = .bool b) : v.flagAt key = b := by
  simp [flagAt, at?, h, isNullish, bool?]

theorem dateAt_of_field {d : Instant} (h : v.field key = .date d) : v.dateAt key = d := by
  simp [dateAt, h, date?]

theorem textsAt_of_field {ss : List String} (h : v.field key = .texts ss) : v.textsAt key = ss := by
  rw [textsAt, itemsAt, h]
  simp [texts, list?, List.filterMap_map, Function.comp_def, text?]

end Value

theorem Conclusion.toValue_ofValue (o : Outcome) :
    (Conclusion.ofValue (.text o.name)).toValue = .text o.name := by
  rw [Conclusion.ofValue, Outcome.ofName?_name]
  rfl

namespace EligibilityResult

theorem filter_eq_self_iff (link : Option String) :
    (link.filter fun s => !s.isEmpty) = link ↔ link ≠ some "" := by
  cases link with
  | none => simp
  | some s => by_cases empty : s = "" <;> simp [empty]

theorem ofDocument_toDocument (r : EligibilityResult) :
    ofDocument r.toDocument = r ↔ r.reasoningLogId ≠ some "" := by
  rw [← filter_eq_self_iff]
  constructor
  · exact congrArg reasoningLogId
  · exact congrArg fun link => { r with reasoningLogId := link }

theorem toDocument_ofDocument (d : ResultDocument) :
    (ofDocument d).toDocument = d ↔ d.reasoningLogId ≠ some "" := by
  rw [← filter_eq_self_iff]
  constructor
  · exact congrArg ResultDocument.reasoningLogId
  · exact congrArg fun link => { d with reasoningLogId := link }

end EligibilityResult

namespace ResultDocument

inductive FieldKind where
  | text
  | number
  | flag
  | instant
  | texts
  | outcome
  | link

def FieldKind.Admits : FieldKind → Value → Prop
  | text, v => ∃ s, v = .text s
  | number, v => ∃ x, v = .number x
  | flag, v => ∃ b, v = .bool b
  | instant, v => ∃ d, v = .date d
  | texts, v => ∃ ss, v = .texts ss
  | outcome, v => ∃ o : Outcome, v = .text o.name
  | link, v => v = .null ∨ ∃ s, v = .text s

def fields : List (String × FieldKind) :=
  [("result_id", .text), ("case_id", .text), ("visa_type_id", .text), ("rule_version_id", .text),
    ("outcome", .outcome), ("confidence", .number), ("reasoning_summary", .text),
    ("missing_facts", .texts), ("reasoning_log_id", .link), ("ai_unavailable", .flag),
    ("conflict_detected", .flag), ("escalated", .flag), ("created_at", .instant)]

/-- A stored result: a document with these fields, in any order and beside others such as an id of
its own. -/
def IsStored (v : Value) : Prop := ∀ f ∈ fields, f.2.Admits (v.field f.1)

def FieldKind.reread (v : Value) (key : String) : FieldKind → Value
  | text => .text (v.textAt key)
  | number => .number (v.numberAt key)
  | flag => .bool (v.flagAt key)
  | instant => .date (v.dateAt key)
  | texts => .texts (v.textsAt key)
  | outcome => (Conclusion.ofValue (v.field key)).toValue
  | link => ((v.field key).text?.map Value.text).getD .null

def restored (v : Value) : Value := (EligibilityResult.ofDocument (.ofValue v)).toDocument.toValue

variable {v : Value} {key : String}

theorem FieldKind.reread_eq {k : FieldKind} (h : k.Admits (v.field key)) :
    k.reread v key = v.field key := by
  cases k with
  | text =>
    obtain ⟨s, held⟩ := h
    rw [reread, Value.textAt_of_field held, held]
  | number =>
    obtain ⟨x, held⟩ := h
    rw [reread, Value.numberAt_of_field held, held]
  | flag =>
    obtain ⟨b, held⟩ := h
    rw [reread, Value.flagAt_of_field held, held]
  | instant =>
    obtain ⟨d, held⟩ := h
    rw [reread, Value.dateAt_of_field held, held]
  | texts =>
    obtain ⟨ss, held⟩ := h
    rw [reread, Value.textsAt_of_field held, held]
  | outcome =>
    obtain ⟨o, held⟩ := h
    rw [reread, held, Conclusion.toValue_ofValue]
  | link =>
    rw [reread]
    rcases h with held | ⟨s, held⟩
    · rw [held]
      rfl
    · rw [held]
      rfl

theorem field_toValue_ofValue (v : Value) :
    ∀ f ∈ fields, (ofValue v).toValue.field f.1 = f.2.reread v f.1 := by
  simp only [fields, List.forall_mem_cons]
  have summary : (ofValue v).toValue.field "reasoning_summary" =
      .text (v.textAt "reasoning_summary") :=
    congrArg Value.text (Text.Units.toString_ofString _)
  exact ⟨rfl, rfl, rfl, rfl, rfl, rfl, summary, rfl, rfl, rfl, rfl, rfl, rfl, nofun⟩

theorem reasoningLogId_ofValue (v : Value) :
    (ofValue v).reasoningLogId = some "" ↔ v.field "reasoning_log_id" = .text "" := by
  have read : (ofValue v).reasoningLogId = (v.field "reasoning_log_id").text? := rfl
  rw [read]
  cases v.field "reasoning_log_id" <;> simp [Value.text?]

theorem field_restored (stored : IsStored v) : ∀ f ∈ fields, f.1 ≠ "reasoning_log_id" →
    (restored v).field f.1 = v.field f.1 := by
  intro f hf unlinked
  rw [← FieldKind.reread_eq (stored f hf), ← field_toValue_ofValue v f hf]
  revert f
  simp only [fields, List.forall_mem_cons]
  exact ⟨fun _ => rfl, fun _ => rfl, fun _ => rfl, fun _ => rfl, fun _ => rfl, fun _ => rfl,
    fun _ => rfl, fun _ => rfl, fun linked => absurd rfl linked, fun _ => rfl, fun _ => rfl,
    fun _ => rfl, fun _ => rfl, nofun⟩

theorem fields_restored_iff (stored : IsStored v) :
    (∀ f ∈ fields, (restored v).field f.1 = v.field f.1) ↔
      v.field "reasoning_log_id" ≠ .text "" := by
  rw [ne_eq, ← reasoningLogId_ofValue]
  constructor
  · intro same empty
    have linked : ("reasoning_log_id", FieldKind.link) ∈ fields := by simp [fields]
    have lost : (restored v).field "reasoning_log_id" =
        (((ofValue v).reasoningLogId.filter fun s => !s.isEmpty).map Value.text).getD .null := rfl
    have none : v.field "reasoning_log_id" = .null := by
      rw [← same _ linked, lost, empty]
      rfl
    rw [reasoningLogId_ofValue, none] at empty
    cases empty
  · intro linked f hf
    rw [restored, (EligibilityResult.toDocument_ofDocument _).2 linked,
      field_toValue_ofValue v f hf, FieldKind.reread_eq (stored f hf)]

end ResultDocument

namespace EligibilityResult

open ResultDocument

/-- A result comes back from its document, and a document from its result, exactly if the link is
not that to a log with an empty id; an absent link stays absent. Where the link is empty all else
comes back and the link is gone. The same holds of the fields of a stored document, whatever their
order and whatever else it has. -/
theorem round_trips_unless_link_empty (r : EligibilityResult) (d : ResultDocument) (v : Value)
    (stored : IsStored v) :
    ((ofDocument r.toDocument = r ↔ r.reasoningLogId ≠ some "") ∧
      (r.reasoningLogId = none → (ofDocument r.toDocument).reasoningLogId = none) ∧
      (r.reasoningLogId = some "" → ofDocument r.toDocument = { r with reasoningLogId := none })) ∧
    (((ofDocument d).toDocument = d ↔ d.reasoningLogId ≠ some "") ∧
      (d.reasoningLogId = some "" →
        (ofDocument d).toDocument = { d with reasoningLogId := none })) ∧
    ((∀ f ∈ fields, (restored v).field f.1 = v.field f.1) ↔
      v.field "reasoning_log_id" ≠ .text "") ∧
    ∀ f ∈ fields, f.1 ≠ "reasoning_log_id" → (restored v).field f.1 = v.field f.1 := by
  refine ⟨⟨ofDocument_toDocument r, fun absent => ?_, fun empty => ?_⟩,
    ⟨toDocument_ofDocument d, fun empty => ?_⟩, fields_restored_iff stored, field_restored stored⟩
  · have same : ofDocument r.toDocument = r := (ofDocument_toDocument r).2 (by simp [absent])
    rw [same, absent]
  · cases r
    cases empty
    rfl
  · cases d
    cases empty
    rfl

def unnamedLog : EligibilityResult :=
  { id := "result-1", caseId := "case-1", visaTypeId := "visa-skilled-worker"
    ruleVersionId := "rv-skilled-2024", conclusion := .outcome .requiresReview
    confidence := .finite (1 / 2), summary := .ofString "", missingFacts := ["has_degree"]
    reasoningLogId := some "", aiUnavailable := false, conflictDetected := true, escalated := true
    createdAt := .ofMillis 1717236000000 }

/-- The document keeps the empty link, and the result that comes back has none. -/
theorem empty_link_is_lost :
    unnamedLog.toDocument.reasoningLogId = some "" ∧
    ofDocument unnamedLog.toDocument ≠ unnamedLog ∧
    (ofDocument unnamedLog.toDocument).toDocument ≠ unnamedLog.toDocument := by
  decide +kernel

def reviewed : Value :=
  .record [("_id", .text "65f0"), ("created_at", .date (.ofMillis 0)), ("result_id", .text ""),
    ("case_id", .text "case-1"), ("visa_type_id", .text "visa-a"), ("rule_version_id", .text ""),
    ("outcome", .text "requires_review"), ("confidence", .number 0),
    ("reasoning_summary", .text ""), ("missing_facts", .texts ["degree", ""]),
    ("reasoning_log_id", .null), ("ai_unavailable", .bool true),
    ("conflict_detected", .bool false), ("escalated", .bool true)]

def logged : EligibilityResult := { unnamedLog with reasoningLogId := some "log-1" }

theorem round_trips_unless_link_empty_reviewed :
    ofDocument logged.toDocument = logged ∧
    (ofDocument logged.toDocument).toDocument = logged.toDocument ∧
    IsStored reviewed ∧ ∀ f ∈ fields, (restored reviewed).field f.1 = reviewed.field f.1 := by
  have stored : IsStored reviewed := by
    simp only [IsStored, fields, List.forall_mem_cons, FieldKind.Admits]
    exact ⟨⟨_, rfl⟩, ⟨_, rfl⟩, ⟨_, rfl⟩, ⟨_, rfl⟩, ⟨.requiresReview, rfl⟩, ⟨_, rfl⟩, ⟨_, rfl⟩,
      ⟨_, rfl⟩, .inl rfl, ⟨_, rfl⟩, ⟨_, rfl⟩, ⟨_, rfl⟩, ⟨_, rfl⟩, nofun⟩
  have linked : logged.reasoningLogId ≠ some "" := by decide
  obtain ⟨⟨result, -⟩, ⟨document, -⟩, kept, -⟩ :=
    round_trips_unless_link_empty logged logged.toDocument reviewed stored
  exact ⟨result.2 linked, document.2 linked, stored, kept.2 nofun⟩

end EligibilityResult
end VisaEligibility
