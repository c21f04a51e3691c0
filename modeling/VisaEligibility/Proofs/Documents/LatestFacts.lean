import VisaEligibility.Documents.Fact
import VisaEligibility.Proofs.Expression.InvalidInstants
import VisaEligibility.Proofs.Reasoning.FactOrder
/-!
The facts that documents hold. Under each key the last document with a usable value counts, whatever
stands between, and what is kept can be written into a query and leaves an evaluation no failure of
its own.
-/
set_option autoImplicit false

namespace VisaEligibility

/-- The scalar that a stored value is used as: a finite number, a text, a truth value or a valid
instant. -/
inductive Value.UsedAs : Value → Scalar → Prop where
  | number {x : Number} (finite : x.isFinite = true) : UsedAs (.number x) (.number x)
  | text (s : String) : UsedAs (.text s) (.text s)
  | bool (b : Bool) : UsedAs (.bool b) (.bool b)
  | date {d : Instant} (valid : d.isValid = true) : UsedAs (.date d) (.date d)

namespace Scalar

variable {v : Value} {s : Scalar}

theorem check_eq_ok : check v = .ok s ↔ v.UsedAs s := by
  constructor
  · intro h
    obtain ⟨rfl, storable⟩ := eq_toValue_of_check h
    cases s with
    | number x => exact .number storable
    | text t => exact .text t
    | bool b => exact .bool b
    | date d => exact .date storable
  · intro h
    cases h with
    | number finite => exact check_toValue (number _) finite
    | text t => rfl
    | bool b => rfl
    | date valid => exact check_toValue (date _) valid

theorem isStorable_of_usedAs (h : v.UsedAs s) : s.isStorable = true :=
  (eq_toValue_of_check (check_eq_ok.2 h)).2

theorem exists_factText (h : v.UsedAs s) : ∃ t, s.factText = .ok t := by
  cases h with
  | @date d valid =>
    cases d with
    | invalid => cases valid
    | ofMillis ms => exact ⟨_, rfl⟩
  | _ => exact ⟨_, rfl⟩

end Scalar

namespace Entries

variable {α : Type} {entries : List (String × α)} {key : String} {a : α}

theorem keys_put (entries : List (String × α)) (key : String) (a : α) :
    keys (put entries key a) =
      if key ∈ keys entries then keys entries else keys entries ++ [key] := by
  induction entries with
  | nil => simp [put, keys]
  | cons e es ih =>
    by_cases here : e.1 = key
    · simp [put, keys, here]
    · have other : ¬key = e.1 := fun same => here same.symm
      unfold keys at ih ⊢
      rw [put, if_neg here, List.map_cons, ih, List.map_cons]
      by_cases later : key ∈ es.map Prod.fst
      · simp [later]
      · simp [later, other]

theorem nodup_put (distinct : (keys entries).Nodup) : (keys (put entries key a)).Nodup := by
  rw [keys_put]
  split
  · exact distinct
  · rename_i absent
    exact List.nodup_append.2 ⟨distinct, List.nodup_singleton key, fun k hk l hl same =>
      absent (List.mem_singleton.1 hl ▸ same ▸ hk)⟩

end Entries

namespace FactDocument

/-- A document whose value counts as a fact. -/
def IsUsable (d : FactDocument) : Prop := ∃ s, d.value.UsedAs s

def told (key : String) (d : FactDocument) : Option Scalar :=
  if d.key = key then (Scalar.check d.value).toOption else none

variable {d : FactDocument} {key : String} {s : Scalar}

theorem told_eq_some : d.told key = some s ↔ d.key = key ∧ d.value.UsedAs s := by
  rw [← Scalar.check_eq_ok, told, Option.ite_none_right_eq_some]
  cases Scalar.check d.value <;> simp [Except.toOption]

theorem told_eq_none : d.told key = none ↔ (d.key = key → ¬d.IsUsable) := by
  rw [Option.eq_none_iff_forall_ne_some]
  simp only [ne_eq, told_eq_some, IsUsable, not_and, not_exists]
  exact forall_comm

end FactDocument

namespace Facts

open FactDocument

def ToldLast (ds : List FactDocument) (key : String) (s : Scalar) : Prop :=
  ∃ earlier d later, ds = earlier ++ d :: later ∧ (d.key = key ∧ d.value.UsedAs s) ∧
    ∀ x ∈ later, x.key = key → ¬x.IsUsable

/-- Under each key the lists have the same documents in the same order, so that each is a reordering
of the other that keeps the order of documents with equal keys. -/
def Reordered (ds ds' : List FactDocument) : Prop :=
  ∀ key, (ds.filter fun d => d.key = key) = ds'.filter fun d => d.key = key

/-- What the documents tell of a key last. -/
def lastTold (key : String) (ds : List FactDocument) : Option Scalar :=
  ds.reverse.findSome? (told key)

variable {f : Facts} {d : FactDocument} {ds ds' : List FactDocument} {key : String} {s : Scalar}

theorem lastTold_concat (key : String) (ds : List FactDocument) (d : FactDocument) :
    lastTold key (ds ++ [d]) = (d.told key).or (lastTold key ds) := by
  unfold lastTold
  rw [List.reverse_append, List.reverse_singleton, List.singleton_append, List.findSome?_cons]
  cases d.told key <;> rfl

theorem lastTold_eq_some : lastTold key ds = some s ↔ ToldLast ds key s := by
  unfold lastTold
  rw [List.findSome?_eq_some_iff]
  constructor
  · rintro ⟨later, d, earlier, split, tells, silent⟩
    refine ⟨earlier.reverse, d, later.reverse, ?_, told_eq_some.1 tells, fun x hx => ?_⟩
    · rw [← List.reverse_reverse ds, split]
      simp
    · exact told_eq_none.1 (silent x (List.mem_reverse.1 hx))
  · rintro ⟨earlier, d, later, rfl, tells, silent⟩
    refine ⟨later.reverse, d, earlier.reverse, by simp, told_eq_some.2 tells, fun x hx => ?_⟩
    exact told_eq_none.2 (silent x (List.mem_reverse.1 hx))

theorem usedAs_of_lastTold (h : lastTold key ds = some s) : ∃ d ∈ ds, d.value.UsedAs s := by
  obtain ⟨earlier, d, later, rfl, ⟨-, used⟩, -⟩ := lastTold_eq_some.1 h
  exact ⟨d, by simp, used⟩

theorem lastTold_eq_none : lastTold key ds = none ↔ ∀ d ∈ ds, d.key = key → ¬d.IsUsable := by
  unfold lastTold
  simp only [List.findSome?_eq_none_iff, List.mem_reverse, told_eq_none]

/-- Only the documents of a key decide what is told of it. -/
theorem lastTold_filter (key : String) (ds : List FactDocument) :
    lastTold key (ds.filter fun d => d.key = key) = lastTold key ds := by
  induction ds using List.reverseRecOn with
  | nil => rfl
  | append_singleton ds d ih =>
    rw [List.filter_append, lastTold_concat]
    by_cases own : d.key = key
    · rw [List.filter_cons_of_pos (by simpa using own), List.filter_nil, lastTold_concat, ih]
    · have silent : d.told key = none := told_eq_none.2 fun same => absurd same own
      rw [List.filter_cons_of_neg (by simpa using own), List.filter_nil, List.append_nil, ih,
        silent, Option.none_or]

theorem lastTold_of_reordered (h : Reordered ds ds') (key : String) :
    lastTold key ds = lastTold key ds' := by
  rw [← lastTold_filter, h key, lastTold_filter]

theorem addDocument_of_usedAs (h : d.value.UsedAs s) : f.addDocument d = f.put d.key (some s) := by
  rw [addDocument, Scalar.check_eq_ok.2 h]

theorem addDocument_of_unusable (h : ¬d.IsUsable) : f.addDocument d = f := by
  unfold addDocument
  cases checked : Scalar.check d.value with
  | ok s => exact absurd ⟨s, Scalar.check_eq_ok.1 checked⟩ h
  | error _ => rfl

/-- The facts have one entry for each key of which the documents tell, with what they tell last. -/
structure Keeps (f : Facts) (ds : List FactDocument) : Prop where
  distinct : f.Distinct
  mem_iff : ∀ key x, (key, x) ∈ f.entries ↔ ∃ s, x = some s ∧ lastTold key ds = some s

theorem Keeps.empty : Keeps Facts.empty [] where
  distinct := .nil
  mem_iff key x := by simp [Facts.empty, lastTold]

theorem mem_put_iff (distinct : f.Distinct) {name : String} {x y : Option Scalar} :
    (key, x) ∈ (f.put name y).entries ↔
      if name = key then x = y else (key, x) ∈ f.entries := by
  have distinct' : (Entries.keys (f.put name y).entries).Nodup := Entries.nodup_put distinct
  rw [← Entries.get?_eq_some_iff distinct', ← Entries.get?_eq_some_iff distinct, put]
  split
  · rename_i same
    rw [same, Entries.get?_put_self, Option.some.injEq, eq_comm]
  · rename_i other
    rw [Entries.get?_put_of_ne _ _ fun same => other same.symm]

theorem Keeps.addDocument (h : Keeps f ds) (d : FactDocument) :
    Keeps (f.addDocument d) (ds ++ [d]) := by
  by_cases usable : d.IsUsable
  · obtain ⟨s, used⟩ := usable
    rw [addDocument_of_usedAs used]
    refine ⟨Entries.nodup_put h.distinct, fun key x => ?_⟩
    rw [mem_put_iff h.distinct, lastTold_concat]
    split
    · rename_i own
      have tells : d.told key = some s := told_eq_some.2 ⟨own, used⟩
      simp [tells]
    · rename_i other
      have silent : d.told key = none := told_eq_none.2 fun own => absurd own other
      rw [silent, Option.none_or, h.mem_iff]
  · rw [addDocument_of_unusable usable]
    refine ⟨h.distinct, fun key x => ?_⟩
    have silent : d.told key = none := told_eq_none.2 fun _ => usable
    rw [lastTold_concat, silent, Option.none_or, h.mem_iff]

theorem ofDocuments_concat (ds : List FactDocument) (d : FactDocument) :
    ofDocuments (ds ++ [d]) = (ofDocuments ds).addDocument d := by
  unfold ofDocuments
  rw [List.foldl_append]
  rfl

theorem keeps_ofDocuments (ds : List FactDocument) : Keeps (ofDocuments ds) ds := by
  induction ds using List.reverseRecOn with
  | nil => exact .empty
  | append_singleton ds d ih =>
    rw [ofDocuments_concat]
    exact ih.addDocument d

theorem get?_ofDocuments (ds : List FactDocument) (key : String) :
    (ofDocuments ds).get? key = lastTold key ds := by
  have kept := keeps_ofDocuments ds
  ext s
  have stored : (ofDocuments ds).get? key = some s ↔ (key, some s) ∈ (ofDocuments ds).entries := by
    rw [← Entries.get?_eq_some_iff kept.distinct, get?, Option.join_eq_some_iff]
  rw [stored, kept.mem_iff]
  simp

theorem has_ofDocuments (ds : List FactDocument) (key : String) :
    (ofDocuments ds).has key = (lastTold key ds).isSome := by
  rw [Bool.eq_iff_iff, Option.isSome_iff_exists, has, Entries.has_iff, Entries.keys, List.mem_map]
  constructor
  · rintro ⟨⟨_, x⟩, stored, rfl⟩
    obtain ⟨s, -, told⟩ := ((keeps_ofDocuments ds).mem_iff _ x).1 stored
    exact ⟨s, told⟩
  · rintro ⟨s, told⟩
    exact ⟨(key, some s), ((keeps_ofDocuments ds).mem_iff key _).2 ⟨s, rfl, told⟩, rfl⟩

theorem entries_perm_of_reordered (h : Reordered ds ds') :
    (ofDocuments ds).entries.Perm (ofDocuments ds').entries := by
  have once (ds : List FactDocument) : (ofDocuments ds).entries.Nodup :=
    .of_map Prod.fst (keeps_ofDocuments ds).distinct
  refine (List.perm_ext_iff_of_nodup (once ds) (once ds')).2 fun ⟨key, x⟩ => ?_
  rw [(keeps_ofDocuments ds).mem_iff, (keeps_ofDocuments ds').mem_iff, lastTold_of_reordered h]

theorem ofDocuments_append (ds ds' : List FactDocument) :
    ofDocuments (ds ++ ds') = ds'.foldl addDocument (ofDocuments ds) :=
  List.foldl_append

theorem dated_of_values
    (h : ∀ name s, f.get? name = some s → ∃ key, (ofDocuments ds).get? key = some s) : f.Dated := by
  intro name invalid
  obtain ⟨key, told⟩ := h name _ invalid
  rw [get?_ofDocuments] at told
  obtain ⟨d, -, used⟩ := usedAs_of_lastTold told
  cases Scalar.isStorable_of_usedAs used

/-- A key has the value of its last document that can be used, and none exactly if no document of it
can. A document that cannot be used makes no difference, nor does the order of documents of
different keys, up to the order of the entries. Each entry has a value, which can be written as
text; and whatever an accepted expression fails by over facts with such values is an error of the
evaluation. -/
theorem latest_usable_document_counts (ds : List FactDocument) :
    (∀ key s, (ofDocuments ds).get? key = some s ↔ ToldLast ds key s) ∧
    (∀ key, (ofDocuments ds).has key = false ↔ ∀ d ∈ ds, d.key = key → ¬d.IsUsable) ∧
    (∀ earlier d later, ds = earlier ++ d :: later → ¬d.IsUsable →
      ofDocuments (earlier ++ later) = ofDocuments ds) ∧
    (∀ ds', Reordered ds ds' → (ofDocuments ds).entries.Perm (ofDocuments ds').entries) ∧
    (∀ entry ∈ (ofDocuments ds).entries, ∃ s, entry.2 = some s ∧ ∃ t, s.factText = .ok t) ∧
    ∀ f : Facts,
      (∀ name s, f.get? name = some s → ∃ key, (ofDocuments ds).get? key = some s) →
      ∀ raw e, Expression.ofValue raw = .ok e → ∀ x, e.evaluate f = .error x →
        x.toFailure.kind = .evaluation := by
  refine ⟨fun key s => ?_, fun key => ?_, ?_, fun ds' h => entries_perm_of_reordered h, ?_, ?_⟩
  · rw [get?_ofDocuments, lastTold_eq_some]
  · rw [has_ofDocuments, Option.isSome_eq_false_iff, Option.isNone_iff_eq_none, lastTold_eq_none]
  · rintro earlier d later rfl unusable
    rw [ofDocuments_append, ofDocuments_append, List.foldl_cons, addDocument_of_unusable unusable]
  · rintro ⟨key, x⟩ stored
    obtain ⟨s, rfl, told⟩ := ((keeps_ofDocuments ds).mem_iff key x).1 stored
    obtain ⟨d, -, used⟩ := usedAs_of_lastTold told
    exact ⟨s, rfl, Scalar.exists_factText used⟩
  · intro f values raw e accepted x failed
    have dated : e.Dated :=
      Expression.dated_of_isWellFormed
        (Expression.isWellFormed_of_read e (Expression.ofValue_eq_ok.1 accepted).2)
    exact Expression.kind_of_dated dated (dated_of_values values) failed

def correctedSalary : List FactDocument :=
  [⟨"salary", .number 30000⟩, ⟨"sponsor", .bool true⟩, ⟨"salary", .number 45000⟩,
    ⟨"address", .record [("city", .text "Leeds")]⟩, ⟨"salary", .number .nan⟩]

def salaryBehind : List FactDocument :=
  [⟨"address", .record [("city", .text "Leeds")]⟩, ⟨"sponsor", .bool true⟩,
    ⟨"salary", .number 30000⟩, ⟨"salary", .number 45000⟩, ⟨"salary", .number .nan⟩]

theorem reordered_salaryBehind : Reordered correctedSalary salaryBehind := by
  intro key
  unfold correctedSalary salaryBehind
  by_cases salary : "salary" = key
  · subst salary
    simp
  · by_cases sponsor : "sponsor" = key
    · subst sponsor
      simp
    · simp [salary, sponsor, List.filter_cons]

theorem latest_usable_document_counts_salary :
    (ofDocuments correctedSalary).get? "salary" = some (.number 45000) ∧
    (ofDocuments correctedSalary).has "address" = false ∧
    (¬(⟨"salary", .number .nan⟩ : FactDocument).IsUsable ∧
      ofDocuments (correctedSalary.take 4) = ofDocuments correctedSalary) ∧
    (Reordered correctedSalary salaryBehind ∧
      (ofDocuments correctedSalary).entries.Perm (ofDocuments salaryBehind).entries) ∧
    (∃ t, (Scalar.number 45000).factText = .ok t) ∧
    ∃ e x, Expression.ofValue e.toValue = .ok e ∧
      e.evaluate (ofDocuments correctedSalary) = .error x ∧ x.toFailure.kind = .evaluation := by
  obtain ⟨told, absent, skipped, reordered, shown, evaluated⟩ :=
    latest_usable_document_counts correctedSalary
  have noNumber : ¬(⟨"salary", .number .nan⟩ : FactDocument).IsUsable := by
    rintro ⟨_, used⟩
    cases used with
    | number finite => cases finite
  have noScalar : ¬(⟨"address", .record [("city", .text "Leeds")]⟩ : FactDocument).IsUsable := by
    rintro ⟨_, ⟨⟩⟩
  have salary : ToldLast correctedSalary "salary" (.number 45000) :=
    ⟨correctedSalary.take 2, ⟨"salary", .number 45000⟩, correctedSalary.drop 3, rfl,
      ⟨rfl, .number rfl⟩, by simpa [correctedSalary] using noNumber⟩
  have stored : ("salary", some (Scalar.number 45000)) ∈ (ofDocuments correctedSalary).entries := by
    decide +kernel
  obtain ⟨_, ⟨⟩, text⟩ := shown _ stored
  have read :
      Expression.ofValue (Expression.var "salary" none).toValue = .ok (.var "salary" none) :=
    (Expression.ofValue_toValue_eq_ok (by simp [Expression.IsWellFormed, Expression.IsSound])).2
      ⟨by decide, rfl⟩
  have failed : (Expression.var "salary" none).evaluate (ofDocuments correctedSalary) =
      .error (.notBoolean (some "salary") (.number 45000)) := by decide +kernel
  refine ⟨(told _ _).2 salary, (absent _).2 ?_, ⟨noNumber, ?_⟩,
    ⟨reordered_salaryBehind, reordered _ reordered_salaryBehind⟩, text,
    _, _, read, failed, evaluated _ (fun name _ known => ⟨name, known⟩) _ _ read _ failed⟩
  · simpa [correctedSalary] using noScalar
  · exact (skipped (correctedSalary.take 4) _ [] rfl noNumber).symm ▸ by simp

end Facts
end VisaEligibility
