import Mathlib.Data.List.Sort
import VisaEligibility.Bench.Sample
import VisaEligibility.Proofs.Reasoning.Resolution
import VisaEligibility.Proofs.Rule.MissingFacts
import VisaEligibility.Proofs.Text.UnitOrder
/-!
The order in which facts were recorded. It shows neither in the query nor in the rules' findings nor
in the prompt: both texts give every fact once, by the code units of the names.
-/
set_option autoImplicit false

namespace VisaEligibility

namespace Entries

variable {α : Type} {entries others : List (String × α)} {key : String} {a : α}

theorem get?_eq_some_iff (distinct : (keys entries).Nodup) :
    get? entries key = some a ↔ (key, a) ∈ entries := by
  induction entries with
  | nil => simp
  | cons e es ih =>
    obtain ⟨absent, distinct⟩ := List.nodup_cons.1 distinct
    specialize ih distinct
    unfold get? at ih ⊢
    by_cases named : e.1 = key
    · subst named
      have elsewhere : (e.1, a) ∉ es := fun listed => absent (List.mem_map.2 ⟨_, listed, rfl⟩)
      simp [elsewhere, Prod.ext_iff, eq_comm]
    · have other : (key, a) ≠ e := fun same => named (same ▸ rfl)
      simp [named, other, ih]

theorem has_iff : has entries key = true ↔ key ∈ keys entries := by
  simp [has, keys]

theorem get?_of_perm (distinct : (keys entries).Nodup) (same : entries.Perm others) (key : String) :
    get? entries key = get? others key := by
  have distinct' : (keys others).Nodup := (same.map Prod.fst).nodup_iff.1 distinct
  ext a
  rw [get?_eq_some_iff distinct, get?_eq_some_iff distinct', same.mem_iff]

end Entries

namespace Text

theorem unitLe_iff {s t : String} : unitLe s t = true ↔ (unitOrder s t).isLE = true := by
  unfold unitLe
  cases unitOrder s t <;> decide

theorem unitLe_trans (s t u : String) (hst : unitLe s t = true) (htu : unitLe t u = true) :
    unitLe s u = true := by
  rw [unitLe_iff] at hst htu ⊢
  exact Std.TransCmp.isLE_trans hst htu

theorem unitLe_total (s t : String) : (unitLe s t || unitLe t s) = true := by
  have swapped : unitOrder t s = (unitOrder s t).swap := Std.OrientedCmp.eq_swap
  unfold unitLe
  rw [swapped]
  cases unitOrder s t <;> rfl

theorem unitLe_antisymm {s t : String} (hst : unitLe s t = true) (hts : unitLe t s = true) :
    s = t := by
  rw [unitLe_iff] at hst hts
  exact Std.LawfulEqCmp.eq_of_compare (Std.OrientedCmp.isLE_antisymm hst hts)

end Text

namespace Facts

variable {f g : Facts}

def Distinct (f : Facts) : Prop := (Entries.keys f.entries).Nodup

theorem sortedNames_perm (f : Facts) : f.sortedNames.Perm (Entries.keys f.entries) :=
  List.mergeSort_perm _ _

theorem sortedNames_sorted (f : Facts) : f.sortedNames.Pairwise fun m n => Text.unitLe m n = true :=
  List.pairwise_mergeSort Text.unitLe_trans Text.unitLe_total _

theorem sortedNames_ordered (distinct : f.Distinct) :
    f.sortedNames.Pairwise fun m n => Text.codeUnits m < Text.codeUnits n := by
  have apart : f.sortedNames.Nodup := f.sortedNames_perm.nodup_iff.2 distinct
  refine (f.sortedNames_sorted.and apart).imp fun {m n} h => ?_
  rw [← Text.unitOrder_eq_lt_iff]
  obtain ⟨le, differ⟩ := h
  unfold Text.unitLe at le
  cases he : Text.unitOrder m n with
  | lt => rfl
  | eq => exact absurd (Std.LawfulEqCmp.eq_of_compare he) differ
  | gt => simp [he] at le

theorem sortedNames_eq (same : f.entries.Perm g.entries) : f.sortedNames = g.sortedNames := by
  have names : f.sortedNames.Perm g.sortedNames :=
    f.sortedNames_perm.trans ((same.map Prod.fst).trans g.sortedNames_perm.symm)
  exact names.eq_of_pairwise (fun _ _ _ _ => Text.unitLe_antisymm) f.sortedNames_sorted
    g.sortedNames_sorted

theorem get?_eq (distinct : f.Distinct) (same : f.entries.Perm g.entries) (name : String) :
    f.get? name = g.get? name := by
  unfold get?
  rw [Entries.get?_of_perm distinct same]

theorem agreeOn (distinct : f.Distinct) (same : f.entries.Perm g.entries) (names : List String) :
    AgreeOn names f g := by
  intro name _
  refine ⟨?_, get?_eq distinct same name⟩
  rw [Bool.eq_iff_iff, has, has, Entries.has_iff, Entries.has_iff]
  exact (same.map Prod.fst).mem_iff

theorem text_eq (distinct : f.Distinct) (same : f.entries.Perm g.entries) : f.text = g.text := by
  funext name
  unfold text
  rw [get?_eq distinct same]

theorem dated_of_perm (distinct : f.Distinct) (same : f.entries.Perm g.entries) (dated : f.Dated) :
    g.Dated :=
  fun name => get?_eq distinct same name ▸ dated name

theorem dated_of_entries (h : ∀ e ∈ f.entries, e.2 ≠ some (.date .invalid)) : f.Dated := by
  intro name hv
  unfold get? Entries.get? at hv
  cases found : f.entries.find? fun e => e.1 == name with
  | none => simp [found] at hv
  | some e =>
    have valid := h e (List.mem_of_find?_eq_some found)
    simp [found, valid] at hv

/-- The names of the facts that have a value, in order. -/
def valuedNames (f : Facts) : List String := f.sortedNames.filter fun name => (f.get? name).isSome

theorem valuedNames_eq (distinct : f.Distinct) (same : f.entries.Perm g.entries) :
    f.valuedNames = g.valuedNames := by
  unfold valuedNames
  rw [sortedNames_eq same]
  simp only [get?_eq distinct same]

theorem valuedNames_of_complete (complete : f.Complete) : f.valuedNames = f.sortedNames := by
  refine List.filter_eq_self.2 fun name hn => complete name ?_
  exact Entries.has_iff.2 (f.sortedNames_perm.mem_iff.1 hn)

end Facts

namespace Retrieval

theorem query_eq {f : Facts} (dated : f.Dated) (visaCode : Option String) {parts : List String}
    (named : parts = ((visaCode.filter (· ≠ "")).map fun code => "visa type: " ++ code).toList ++
      f.valuedNames.map fun name => String.ofList (name.toList.map fun c =>
        if c = '_' then ' ' else c) ++ ": " ++ f.text name) :
    query f visaCode = .ok (if parts = [] then "immigration eligibility requirements"
      else String.intercalate ", " parts) := by
  have coded : codePart visaCode =
      ((visaCode.filter (· ≠ "")).map fun code => "visa type: " ++ code).toList := by
    cases visaCode with
    | none => rfl
    | some code => by_cases empty : code = "" <;> simp [codePart, Option.filter, empty]
  have all : parts = codePart visaCode ++ f.valuedNames.map (factPart f) := by
    rw [named, coded]
    rfl
  unfold query
  rw [factParts_of_dated dated, all]
  simp only [← List.isEmpty_iff]
  rfl

end Retrieval

namespace Prompt

def factSection (f : Facts) : List String :=
  if f.entries = [] then ["- (no facts recorded)"]
  else f.sortedNames.map fun name => "- " ++ name ++ ": " ++ f.text name

theorem factLines_eq {f : Facts} (dated : f.Dated) : factLines f = .ok (factSection f) := by
  unfold factLines factSection
  simp only [List.isEmpty_iff]
  split
  · rfl
  · exact mapM_factLine_of_dated dated _

theorem factSection_eq {f g : Facts} (distinct : f.Distinct) (same : f.entries.Perm g.entries) :
    factSection f = factSection g := by
  have empty : f.entries = [] ↔ g.entries = [] := by
    rw [← List.length_eq_zero_iff, ← List.length_eq_zero_iff, same.length_eq]
  unfold factSection
  rw [Facts.sortedNames_eq same, Facts.text_eq distinct same]
  simp only [empty]

theorem ofCase_eq {f : Facts} (dated : f.Dated) (chunks : List Chunk) (rule : RuleFindings)
    (visaCode : String) :
    ofCase chunks rule f visaCode = .ok ⟨[⟨.system, instructions⟩, ⟨.user, String.intercalate "\n"
      (["Visa type: " ++ visaCode, "", "Case facts:"] ++ factSection f ++
        ["", "Rule evaluation:"] ++ ruleLines rule ++
        ["", "Regulatory context:", context chunks, "", request])⟩]⟩ := by
  unfold ofCase
  rw [factLines_eq dated]
  rfl

end Prompt

/-- What queries and prompts show of a fact. -/
inductive Scalar.Shows : Option Scalar → String → Prop where
  | nothing : Shows none ""
  | text (s : String) : Shows (some (.text s)) s
  | number (x : Number) : Shows (some (.number x)) x.text
  | yes : Shows (some (.bool true)) "true"
  | no : Shows (some (.bool false)) "false"
  | date {t : Instant} {day : String} : t.day? = some day → Shows (some (.date t)) day

namespace Facts

variable {f g : Facts}

theorem shows_text (dated : f.Dated) (name : String) : Scalar.Shows (f.get? name) (f.text name) := by
  cases hv : f.get? name with
  | none =>
    rw [text, hv]
    exact .nothing
  | some v =>
    have shown := factText_of_dated dated hv
    cases v with
    | number x => exact Except.ok.inj shown ▸ .number x
    | text s => exact Except.ok.inj shown ▸ .text s
    | bool b => cases b <;> exact Except.ok.inj shown ▸ by constructor
    | date t =>
      cases day : t.day? with
      | none => simp [Scalar.factText, day] at shown
      | some d =>
        simp only [Scalar.factText, day, Option.elim_some] at shown
        exact Except.ok.inj shown ▸ .date day

/-- Facts recorded in another order give the same query, the same findings of the rules and the same
prompt. Every name stands once in both texts, in the order of code units; a query leaves out what
has no value. -/
theorem recording_order_is_hidden (distinct : f.Distinct) (same : f.entries.Perm g.entries)
    (dated : f.Dated) (v : RuleVersion) (t : Thresholds) (code : Option String) (visaCode : String)
    (chunks : List Chunk) :
    (∃ parts q, Retrieval.query f code = .ok q ∧ Retrieval.query g code = .ok q ∧
      parts = ((code.filter (· ≠ "")).map fun code => "visa type: " ++ code).toList ++
        (f.valuedNames.map fun name => String.ofList (name.toList.map fun c =>
          if c = '_' then ' ' else c) ++ ": " ++ f.text name) ∧
      q = if parts = [] then "immigration eligibility requirements"
        else String.intercalate ", " parts) ∧
    v.evaluate f t = v.evaluate g t ∧
    (∃ lines user p, Prompt.ofCase chunks (v.evaluate f t).findings f visaCode = .ok p ∧
      Prompt.ofCase chunks (v.evaluate g t).findings g visaCode = .ok p ∧
      lines = (if f.entries = [] then ["- (no facts recorded)"]
        else f.sortedNames.map fun name => "- " ++ name ++ ": " ++ f.text name) ∧
      user = String.intercalate "\n" (["Visa type: " ++ visaCode, "", "Case facts:"] ++ lines ++
        ["", "Rule evaluation:"] ++ Prompt.ruleLines (v.evaluate f t).findings ++
        ["", "Regulatory context:", Prompt.context chunks, "", Prompt.request]) ∧
      p.messages = [⟨.system, Prompt.instructions⟩, ⟨.user, user⟩] ∧
      p.text = "SYSTEM:\n" ++ Prompt.instructions ++ "\n\nUSER:\n" ++ user) ∧
    (∀ name, Scalar.Shows (f.get? name) (f.text name)) ∧
    f.sortedNames.Perm (Entries.keys f.entries) ∧
    (f.sortedNames.Pairwise fun m n => Text.codeUnits m < Text.codeUnits n) ∧
    (f.Complete → f.valuedNames = f.sortedNames) := by
  have dated' := dated_of_perm distinct same dated
  have rules : v.evaluate f t = v.evaluate g t :=
    RuleVersion.evaluate_congr (agreeOn distinct same _) t
  refine ⟨⟨_, _, Retrieval.query_eq dated code rfl, Retrieval.query_eq dated' code ?_, rfl, rfl⟩,
    rules, ⟨_, _, _, Prompt.ofCase_eq dated .., ?_, rfl, rfl, rfl, Prompt.text_pair _ _⟩,
    shows_text dated, f.sortedNames_perm, sortedNames_ordered distinct, valuedNames_of_complete⟩
  · rw [valuedNames_eq distinct same, text_eq distinct same]
  · rw [Prompt.ofCase_eq dated', ← rules, Prompt.factSection_eq distinct same]

def musical : Facts := ⟨[("～_key", some (.bool true)), ("𝄞", some (.date (.ofMillis 0)))]⟩

def musicalReversed : Facts := ⟨musical.entries.reverse⟩

theorem sortedNames_musical : musical.sortedNames = ["𝄞", "～_key"] := by
  have behind : Text.unitLe "～_key" "𝄞" = false := by decide +kernel
  simp [sortedNames, musical, Entries.keys, List.mergeSort, List.MergeSort.Internal.splitInTwo,
    behind]

theorem recording_order_is_hidden_musical :
    musical.Distinct ∧ musical.entries.Perm musicalReversed.entries ∧ musical.Dated ∧
    Retrieval.query musicalReversed none = .ok "𝄞: 1970-01-01, ～ key: true" ∧
    ∃ p, Prompt.ofCase [] (Bench.Sample.ruleVersion.evaluate musicalReversed {}).findings
      musicalReversed "SKW" = .ok p ∧
    Prompt.ofCase [] (Bench.Sample.ruleVersion.evaluate musical {}).findings musical "SKW" =
      .ok p ∧
    ∃ system rest, p.text = system ++ "\n\nUSER:\n" ++ ("Visa type: SKW\n\n" ++
      "Case facts:\n- 𝄞: 1970-01-01\n- ～_key: true\n\nRule evaluation:\n" ++ rest) := by
  have distinct : musical.Distinct := by unfold Distinct; decide
  have same : musical.entries.Perm musicalReversed.entries := (List.reverse_perm _).symm
  have dated : musical.Dated := dated_of_entries (by decide)
  obtain ⟨⟨parts, q, -, asked, parts_eq, q_eq⟩, -,
      ⟨lines, user, p, prompted, prompted', lines_eq, user_eq, -, text_eq⟩, -⟩ :=
    recording_order_is_hidden distinct same dated Bench.Sample.ruleVersion {} none "SKW" []
  have named : parts = ["𝄞: 1970-01-01", "～ key: true"] := by
    rw [parts_eq, valuedNames, sortedNames_musical]
    decide +kernel
  have query : q = "𝄞: 1970-01-01, ～ key: true" := by
    rw [q_eq, named]
    decide +kernel
  have listed : lines = ["- 𝄞: 1970-01-01", "- ～_key: true"] := by
    rw [lines_eq, sortedNames_musical]
    decide +kernel
  have opening : String.intercalate "\n" (["Visa type: " ++ "SKW", "", "Case facts:"] ++
      ["- 𝄞: 1970-01-01", "- ～_key: true"] ++ ["", "Rule evaluation:"]) ++ "\n" =
      "Visa type: SKW\n\n" ++
        "Case facts:\n- 𝄞: 1970-01-01\n- ～_key: true\n\nRule evaluation:\n" := by decide +kernel
  rw [user_eq, listed, List.append_assoc _ (Prompt.ruleLines _),
    String.intercalate_append_of_ne_nil (by simp) (by simp), opening] at text_eq
  exact ⟨distinct, same, dated, query ▸ asked, p, prompted', prompted, _, _, text_eq⟩

end Facts
end VisaEligibility
