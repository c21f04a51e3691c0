import Mathlib.Data.List.Basic
import VisaEligibility.Bench.Service
import VisaEligibility.Proofs.Distinct
import VisaEligibility.Proofs.Text.Cuts
import VisaEligibility.Proofs.Text.Words
/-!
Which requests are admitted and what they then ask for. A check of several parts finds nothing wrong
exactly if none of its parts does, so what was admitted is read off the value that was checked.
-/
set_option autoImplicit false

namespace VisaEligibility

namespace Checked

variable {α β : Type} {c : Checked α} {a : α}

theorem under_eq_ok {key : String} : c.under key = .ok a ↔ c = .ok a := by
  cases c <;> simp [under, Except.mapError]

theorem map_eq_ok {f : α → β} {b : β} : c.map f = .ok b ↔ ∃ a, c = .ok a ∧ f a = b := by
  cases c <;> simp [Except.map]

theorem and_eq_ok {d : Checked β} {p : α × β} : c.and d = .ok p ↔ c = .ok p.1 ∧ d = .ok p.2 := by
  cases c <;> cases d <;> simp [and, Prod.ext_iff]

theorem ofIssues_eq_ok {b : α} {is : List Issue} : ofIssues a is = .ok b ↔ is = [] ∧ a = b := by
  cases is <;> simp [ofIssues]

end Checked

namespace Validation

structure IsIdentifier (s : String) : Prop where
  least : 1 ≤ s.length
  most : s.length ≤ 128
  chars : ∀ c ∈ s.toList, ('A' ≤ c ∧ c ≤ 'Z') ∨ ('a' ≤ c ∧ c ≤ 'z') ∨ ('0' ≤ c ∧ c ≤ '9') ∨
    c ∈ ['_', '.', ':', '-']

theorem isIdentifierChar_iff {c : Char} : isIdentifierChar c = true ↔
    ('A' ≤ c ∧ c ≤ 'Z') ∨ ('a' ≤ c ∧ c ≤ 'z') ∨ ('0' ≤ c ∧ c ≤ '9') ∨
      c ∈ ['_', '.', ':', '-'] := by
  have upper : c.isUpper = true ↔ 'A' ≤ c ∧ c ≤ 'Z' := decide_eq_true_iff
  have lower : c.isLower = true ↔ 'a' ≤ c ∧ c ≤ 'z' :=
    Bool.and_eq_true_iff.trans (and_congr decide_eq_true_iff decide_eq_true_iff)
  have digit : c.isDigit = true ↔ '0' ≤ c ∧ c ≤ '9' :=
    Bool.and_eq_true_iff.trans (and_congr decide_eq_true_iff decide_eq_true_iff)
  have letter : c.isAlpha = true ↔ c.isUpper = true ∨ c.isLower = true := Bool.or_eq_true_iff
  simp only [isIdentifierChar, Char.isAlphanum, Bool.or_eq_true, decide_eq_true_eq, letter, upper,
    lower, digit, List.mem_cons, List.not_mem_nil, or_false, or_assoc]

theorem plain_of_isIdentifierChar {c : Char} (h : isIdentifierChar c = true) :
    c.toNat < 0x10000 ∧ Text.isBlank c = false := by
  simp only [isIdentifierChar, Char.isAlphanum, Bool.or_eq_true, decide_eq_true_eq] at h
  rcases h with ((((letter | digit) | rfl) | rfl) | rfl) | rfl
  · have range := Text.isAlpha_range letter
    exact ⟨by omega, Text.isBlank_of_isAlpha letter⟩
  · have range := Text.isDigit_range digit
    exact ⟨by omega, Text.isBlank_of_isDigit digit⟩
  all_goals decide

variable {s : String} {v : Value}

theorem IsIdentifier.plain (h : IsIdentifier s) :
    ∀ c ∈ s.toList, c.toNat < 0x10000 ∧ Text.isBlank c = false :=
  fun c hc => plain_of_isIdentifierChar (isIdentifierChar_iff.2 (h.chars c hc))

theorem IsIdentifier.trim (h : IsIdentifier s) : Text.trim s = s :=
  Text.trim_of_visible fun c hc => (h.plain c hc).2

theorem faults_eq_nil {conditions : List (Bool × String)} :
    faults conditions = [] ↔ ∀ c ∈ conditions, c.1 = false := by
  simp [faults]

theorem identifierFaults_eq_nil : identifierFaults s = [] ↔ IsIdentifier s := by
  have chars : s.toList.all isIdentifierChar = true ↔ ∀ c ∈ s.toList,
      ('A' ≤ c ∧ c ≤ 'Z') ∨ ('a' ≤ c ∧ c ≤ 'z') ∨ ('0' ≤ c ∧ c ≤ '9') ∨
        c ∈ ['_', '.', ':', '-'] := by
    rw [List.all_eq_true]
    exact forall₂_congr fun _ _ => isIdentifierChar_iff
  have units : s.toList.all isIdentifierChar = true → Text.unitLength s = s.length := fun h =>
    Text.unitLength_of_basic fun c hc => (plain_of_isIdentifierChar (List.all_eq_true.1 h c hc)).1
  have nonempty : s.isEmpty = false ↔ 1 ≤ s.length := by
    rw [String.isEmpty_eq_false_iff, Nat.one_le_iff_ne_zero, Ne, Ne, String.length_eq_zero_iff]
  simp only [identifierFaults, faults_eq_nil, List.forall_mem_cons, List.not_mem_nil,
    false_imp_iff, implies_true, and_true, Bool.or_eq_false_iff, Bool.not_eq_false',
    decide_eq_false_iff_not, Nat.not_lt]
  constructor
  · rintro ⟨least, most, -, all⟩
    exact ⟨nonempty.1 least, units all ▸ most, chars.1 all⟩
  · rintro ⟨least, most, all⟩
    have all := chars.2 all
    exact ⟨nonempty.2 least, (units all).symm ▸ most, nonempty.2 least, all⟩

theorem identifier_eq_ok : identifier v = .ok s ↔
    ∃ t, v = .text t ∧ Text.trim t = s ∧ IsIdentifier s := by
  cases v with
  | text t =>
    simp only [identifier, Checked.ofIssues_eq_ok, identifierFaults_eq_nil, Value.text.injEq,
      exists_eq_left']
    constructor
    · rintro ⟨fit, rfl⟩
      exact ⟨rfl, fit⟩
    · rintro ⟨rfl, fit⟩
      exact ⟨fit, rfl⟩
  | _ => simp [identifier, Checked.fault]

theorem identifiers_eq_ok {vs : List Value} {ids : List String} {place : Nat} :
    Checked.items identifier place vs = .ok ids ↔ ∃ named : List String,
      vs = named.map .text ∧ named.map Text.trim = ids ∧ ∀ id ∈ ids, IsIdentifier id := by
  induction vs generalizing place ids with
  | nil =>
    simp only [Checked.items, Except.ok.injEq]
    constructor
    · rintro rfl
      exact ⟨[], rfl, rfl, by simp⟩
    · rintro ⟨named, none, rfl, -⟩
      rw [List.map_eq_nil_iff.1 none.symm]
      rfl
  | cons v vs ih =>
    simp only [Checked.items, Checked.map_eq_ok, Checked.and_eq_ok, Checked.under_eq_ok,
      identifier_eq_ok, ih]
    constructor
    · rintro ⟨⟨_, _⟩, ⟨⟨t, rfl, rfl, first⟩, named, rfl, rfl, rest⟩, rfl⟩
      exact ⟨t :: named, rfl, rfl, List.forall_mem_cons.2 ⟨first, rest⟩⟩
    · rintro ⟨named, same, rfl, all⟩
      cases named with
      | nil => cases same
      | cons t named =>
        obtain ⟨rfl, rfl⟩ := List.cons.inj same
        obtain ⟨first, rest⟩ := List.forall_mem_cons.1 all
        exact ⟨(Text.trim t, named.map Text.trim), ⟨⟨t, rfl, rfl, first⟩, named, rfl, rfl, rest⟩, rfl⟩

theorem countFaults_eq_nil {n : Nat} : countFaults n = [] ↔ 1 ≤ n ∧ n ≤ 10 := by
  simp only [countFaults, faults_eq_nil, List.forall_mem_cons, List.not_mem_nil, false_imp_iff,
    implies_true, and_true, decide_eq_false_iff_not]
  unfold maxVisaTypes
  omega

theorem visaTypeIds_eq_ok {ids : List String} : visaTypeIds v = .ok ids ↔
    ∃ named : List String, v = .texts named ∧ (1 ≤ named.length ∧ named.length ≤ 10) ∧
      (∀ id ∈ named.map Text.trim, IsIdentifier id) ∧ distinct (named.map Text.trim) = ids := by
  cases v with
  | list vs =>
    simp only [visaTypeIds, Checked.map_eq_ok, Checked.and_eq_ok, Checked.ofIssues_eq_ok,
      countFaults_eq_nil, identifiers_eq_ok, Value.texts, Value.list.injEq]
    constructor
    · rintro ⟨⟨_, _⟩, ⟨⟨count, -⟩, named, rfl, rfl, all⟩, rfl⟩
      rw [List.length_map] at count
      exact ⟨named, rfl, count, all, rfl⟩
    · rintro ⟨named, rfl, count, all, rfl⟩
      rw [← List.length_map] at count
      exact ⟨((), named.map Text.trim), ⟨⟨count, trivial⟩, named, rfl, rfl, all⟩, rfl⟩
  | _ => simp [visaTypeIds, Checked.fault, Value.texts]

theorem checkBody_eq_ok {b : CheckBody} : checkBody v = .ok b ↔ ∃ fields, v = .record fields ∧
    visaTypeIds (v.field "visaTypeIds") = .ok b.visaTypeIds ∧
    Checked.optional (evaluationDate · .universal) (v.field "evaluationDate") = .ok b.evaluationDate ∧
    Checked.optional boolean (v.field "enableAiReasoning") = .ok b.enableAi ∧
    Checked.optional jurisdiction (v.field "jurisdiction") = .ok b.jurisdiction ∧
    unknownKeys fields = [] := by
  cases v with
  | record fields =>
    simp only [checkBody, Checked.map_eq_ok, Checked.and_eq_ok, Checked.under_eq_ok,
      Checked.ofIssues_eq_ok, Value.record.injEq, exists_eq_left']
    constructor
    · rintro ⟨⟨_, _, _, _, _⟩, ⟨ids, date, ai, place, known, -⟩, rfl⟩
      exact ⟨ids, date, ai, place, known⟩
    · rintro ⟨ids, date, ai, place, known⟩
      exact ⟨(_, _, _, _, ()), ⟨ids, date, ai, place, known, trivial⟩, rfl⟩
  | _ => simp [checkBody, Checked.fault]

/-- How the visa types that are checked come from the texts that a request names them by. -/
structure EachOnce (named ids : List String) : Prop where
  least : 1 ≤ ids.length
  most : ids.length ≤ 10
  nodup : ids.Nodup
  identifiers : ∀ id ∈ ids, IsIdentifier id ∧ Text.trim id = id
  firsts : ids = (named.map Text.trim).eraseDups
  ordered : ids.Pairwise fun a b => (named.map Text.trim).idxOf a < (named.map Text.trim).idxOf b
  complete : ∀ s ∈ named, Text.trim s ∈ ids
  stable : visaTypeIds (.texts ids) = .ok ids

theorem exists_named {ids : List String} (h : visaTypeIds v = .ok ids) :
    ∃ named : List String, v = .texts named ∧ EachOnce named ids := by
  obtain ⟨named, rfl, ⟨least, most⟩, fit, rfl⟩ := visaTypeIds_eq_ok.1 h
  have identifiers : ∀ id ∈ distinct (named.map Text.trim), IsIdentifier id :=
    fun id hid => fit id (mem_distinct.1 hid)
  have trimmed : (distinct (named.map Text.trim)).map Text.trim =
      distinct (named.map Text.trim) :=
    (List.map_congr_left fun id hid => (identifiers id hid).trim).trans (List.map_id _)
  have complete : ∀ s ∈ named, Text.trim s ∈ distinct (named.map Text.trim) :=
    fun s hs => mem_distinct.2 (List.mem_map_of_mem hs)
  have nonempty : 1 ≤ (distinct (named.map Text.trim)).length := by
    obtain ⟨s, hs⟩ := List.exists_mem_of_length_pos least
    exact List.length_pos_of_mem (complete s hs)
  have few : (distinct (named.map Text.trim)).length ≤ 10 := by
    have fewer := (distinct_sublist (named.map Text.trim)).length_le
    rw [List.length_map] at fewer
    exact Nat.le_trans fewer most
  exact ⟨named, rfl,
    { least := nonempty
      most := few
      nodup := nodup_distinct _
      identifiers := fun id hid => ⟨identifiers id hid, (identifiers id hid).trim⟩
      firsts := distinct_eq_eraseDups _
      ordered := pairwise_distinct _
      complete
      stable := visaTypeIds_eq_ok.2 ⟨_, rfl, ⟨nonempty, few⟩, by rwa [trimmed],
        by rw [trimmed, distinct_of_nodup (nodup_distinct _)]⟩ }⟩

end Validation

namespace Bench.Service

open Web (Request Destination)

variable {params body : Value} {caseId : String} {b : CheckBody} {e : Raised}

theorem asked_eq_ok : asked params body = .ok (caseId, b) ↔
    Validation.caseId params = .ok caseId ∧ Validation.checkBody body = .ok b := by
  unfold asked
  cases Validation.caseId params with
  | error is => simp [Except.mapError, bind, Except.bind]
  | ok named =>
    cases Validation.checkBody body <;>
      simp [Except.mapError, bind, Except.bind, pure, Except.pure]

theorem exists_rejected (h : asked params body = .error e) : ∃ is, e = rejected is := by
  unfold asked at h
  cases hp : Validation.caseId params with
  | error is =>
    rw [hp] at h
    cases h
    exact ⟨is, rfl⟩
  | ok named =>
    cases hb : Validation.checkBody body with
    | error is =>
      rw [hp, hb] at h
      cases h
      exact ⟨is, rfl⟩
    | ok b =>
      rw [hp, hb] at h
      cases h

def Asks (r : Request) (params body : Value) : Prop :=
  r.value? = some body ∧ ∃ place caseText, Destination.ofRequest r.method r.path =
    .page place caseText ∧ place.page = .check ∧ params = pathParams caseText

/-- A refused request is answered with a bad request, and nothing is asked of any store or service:
clock, calls and records stay as they were. -/
theorem reply_of_refused {r : Request} (asks : Asks r params body)
    (refused : asked params body = .error e) (sv : Service) (s : Session) :
    (sv.reply r s).1.answer.status = 400 ∧ (sv.reply r s).2 = s := by
  obtain ⟨read, place, caseText, route, checks, rfl⟩ := asks
  obtain ⟨is, rfl⟩ := exists_rejected refused
  have unperformed : sv.page place.page caseText body s = (.error (rejected is), s) := by
    rw [checks]
    change sv.perform (asked (pathParams caseText) body) s = _
    rw [refused]
    rfl
  unfold Service.reply
  rw [read]
  simp only [route, unperformed]
  exact ⟨rfl, trivial⟩

/-- Params and a body that fail validation are refused as a bad request before anything is done. Of
any others the batch is run over the visa types that the body names, each of them once. -/
theorem asked_types_are_checked_once (sv : Service) (params body : Value) :
    (∀ e, asked params body = .error e →
      (∃ f, e = .failure f ∧ f.kind = .badRequest ∧ f.status = 400) ∧
      (∀ s, sv.perform (asked params body) s = (.error e, s)) ∧
      ∀ r, Asks r params body → ∀ s,
        (sv.reply r s).1.answer.status = 400 ∧ (sv.reply r s).2 = s) ∧
    ∀ caseId b, asked params body = .ok (caseId, b) →
      (∀ s, sv.perform (asked params body) s =
        ((s.checkBatch sv.settings caseId b.visaTypeIds b.options).1.map fun report =>
          .json 200 report.view, (s.checkBatch sv.settings caseId b.visaTypeIds b.options).2)) ∧
      ∃ named, body.field "visaTypeIds" = .texts named ∧
        Validation.EachOnce named b.visaTypeIds := by
  constructor
  · intro e refused
    refine ⟨?_, fun s => ?_, fun r asks => reply_of_refused asks refused sv⟩
    · obtain ⟨is, rfl⟩ := exists_rejected refused
      exact ⟨_, rfl, rfl, rfl⟩
    · rw [refused]
      rfl
  · intro caseId b admitted
    obtain ⟨-, checked⟩ := asked_eq_ok.1 admitted
    obtain ⟨fields, -, ids, -⟩ := Validation.checkBody_eq_ok.1 checked
    refine ⟨fun s => ?_, Validation.exists_named ids⟩
    rw [admitted]
    rfl

def repeating : Value :=
  .record [("visaTypeIds", .texts ["visa-b", "visa-a\ufeff", "\u2003visa-b", "visa-a"])]

theorem asked_types_are_checked_once_repeating :
    (∃ b, asked (pathParams "case-1 ") repeating = .ok ("case-1", b) ∧
      b.visaTypeIds = ["visa-b", "visa-a"] ∧ ∃ named, repeating.field "visaTypeIds" = .texts named ∧
        Validation.EachOnce named b.visaTypeIds) ∧
    ∃ e, asked (pathParams "case 1") repeating = .error e ∧
      ∃ f, e = .failure f ∧ f.kind = .badRequest ∧ f.status = 400 := by
  have admitted : (asked (pathParams "case-1 ") repeating).toOption =
      some ("case-1", ⟨["visa-b", "visa-a"], none, none, none⟩) := by decide +kernel
  have refused : (asked (pathParams "case 1") repeating).toOption = none := by decide +kernel
  constructor
  · cases h : asked (pathParams "case-1 ") repeating with
    | error e =>
      rw [h] at admitted
      cases admitted
    | ok asked =>
      rw [h] at admitted
      cases Option.some.inj admitted
      exact ⟨_, rfl, rfl, ((asked_types_are_checked_once ⟨{}, []⟩ _ _).2 _ _ h).2⟩
  · cases h : asked (pathParams "case 1") repeating with
    | error e => exact ⟨e, rfl, ((asked_types_are_checked_once ⟨{}, []⟩ _ _).1 e h).1⟩
    | ok asked =>
      rw [h] at refused
      cases refused

end Bench.Service
end VisaEligibility
