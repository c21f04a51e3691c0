import Mathlib.Data.List.Perm.Basic
import Mathlib.Data.String.Basic
import VisaEligibility.Proofs.Documents.RuleSearch
/-!
How a collection is written and searched. A document that is inserted gets an id greater than those
before it. A search finds the documents that meet its conditions, in the order of its sort keys and
no more than its limit; documents that are level under all keys may stand in any order.
-/
set_option autoImplicit false

namespace VisaEligibility.Documents

/-- The order of two values of one kind: dates by time, texts by their characters. -/
def valueOrder : Value → Value → Ordering
  | .date a, .date b => (a.order? b).getD .eq
  | .text a, .text b => compare a b
  | _, _ => .eq

/-- The order of documents under sort keys: the first field that differs decides. -/
def SortKeys.order (keys : SortKeys) (a b : Value) : Ordering :=
  keys.foldr (fun key rest => (match key.2 with
    | .ascending => valueOrder (a.field key.1) (b.field key.1)
    | .descending => valueOrder (b.field key.1) (a.field key.1)).then rest) .eq

def withId (id : String) : Value → Value
  | .record fields => .record (("_id", .text id) :: fields)
  | document => document

/-- As many of the documents found as the limit allows; a limit of zero allows all. -/
def limited (limit : Option Number) (found : List Value) : List Value :=
  match (limit.bind Number.truncate?).map Int.natAbs with
  | some (n + 1) => found.take (n + 1)
  | _ => found

/-- A call on a collection is answered, with the documents before and after it. -/
inductive Serves (k : Collection) :
    List Value → Exchange StoreCall.interface → List Value → Prop where
  | insertOne {documents : List Value} {document : Value} {id : String}
      (latest : ∀ d ∈ documents, ∃ earlier, d.field "_id" = .text earlier ∧ earlier < id) :
      Serves k documents ⟨.insertOne k document, (.ok () : Except Raised Unit)⟩
        (documents ++ [withId id document])
  | find {documents found : List Value} {conditions : List Condition} {sort : SortKeys}
      {limit : Option Number} (meets : Found documents conditions found)
      (sorted : found.Pairwise fun a b => sort.order a b ≠ .gt) :
      Serves k documents ⟨.find k conditions sort limit,
        (.ok (limited limit found) : Except Raised (List Value))⟩ documents

/-- The calls of a history are answered one after the other. -/
inductive Serving (k : Collection) :
    List Value → History StoreCall.interface → List Value → Prop where
  | nil (documents : List Value) : Serving k documents [] documents
  | cons {documents documents' documents'' : List Value} {x : Exchange StoreCall.interface}
      {h : History StoreCall.interface} (first : Serves k documents x documents')
      (rest : Serving k documents' h documents'') : Serving k documents (x :: h) documents''

variable {k : Collection} {documents documents' : List Value} {h h' : History StoreCall.interface}

theorem serving_append : Serving k documents (h ++ h') documents' ↔
    ∃ between, Serving k documents h between ∧ Serving k between h' documents' := by
  induction h generalizing documents with
  | nil =>
    constructor
    · exact fun served => ⟨documents, .nil documents, served⟩
    · rintro ⟨between, first, rest⟩
      cases first
      exact rest
  | cons x h ih =>
    constructor
    · rintro (_ | ⟨first, rest⟩)
      obtain ⟨between, rest, last⟩ := ih.1 rest
      exact ⟨between, .cons first rest, last⟩
    · rintro ⟨between, _ | ⟨first, rest⟩, last⟩
      exact .cons first (ih.2 ⟨between, rest, last⟩)

theorem serving_singleton {x : Exchange StoreCall.interface} :
    Serving k documents [x] documents' ↔ Serves k documents x documents' := by
  constructor
  · rintro (_ | ⟨first, _ | _⟩)
    exact first
  · exact fun served => .cons served (.nil documents')

/-- A search finds the documents that a test picks out, if the test tells the documents there are by
the conditions. -/
theorem Found.perm_filter {conditions : List Condition} {found : List Value} {p : Value → Bool}
    (hf : Found documents conditions found)
    (decides : ∀ d ∈ documents, (∀ c ∈ conditions, c.Meets d) ↔ p d = true) :
    found.Perm (documents.filter p) := by
  obtain ⟨others, split, met, unmet⟩ := hf
  have kept : ∀ d ∈ found, p d = true := fun d hd =>
    (decides d (split.mem_iff.2 (List.mem_append_left _ hd))).1 (met d hd)
  have dropped : ∀ d ∈ others, ¬p d = true := fun d hd =>
    mt (decides d (split.mem_iff.2 (List.mem_append_right _ hd))).2 (unmet d hd)
  have all := split.filter p
  rw [List.filter_append, List.filter_eq_self.2 kept, List.filter_eq_nil_iff.2 dropped,
    List.append_nil] at all
  exact all.symm

theorem exists_perm_of_perm_map {α β : Type} {f : α → β} {l : List β} {as : List α}
    (hp : l.Perm (as.map f)) : ∃ bs : List α, bs.Perm as ∧ l = bs.map f := by
  have images : List.Forall₂ (fun b a => b = f a) (as.map f) as :=
    List.forall₂_map_left_iff.2 (List.forall₂_same.2 fun _ _ => rfl)
  obtain ⟨bs, own, perm⟩ := List.perm_comp_forall₂ hp images
  have same : List.Forall₂ (· = ·) l (bs.map f) := List.forall₂_map_right_iff.2 own
  rw [List.forall₂_eq_eq_eq] at same
  exact ⟨bs, perm, same⟩

theorem lt_append_text (s : String) {t : String} (some : t ≠ "") : s < s ++ t := by
  rw [String.lt_iff_toList_lt, String.toList_append]
  have some : t.toList ≠ [] := by simpa using some
  induction s.toList with
  | nil =>
    obtain ⟨c, cs, listed⟩ := List.exists_cons_of_ne_nil some
    rw [listed]
    exact List.nil_lt_cons c cs
  | cons c cs ih => exact List.cons_lt_cons_iff.2 (.inr ⟨rfl, ih⟩)

theorem exists_greater (ids : List String) : ∃ id, ∀ i ∈ ids, i < id := by
  induction ids with
  | nil => exact ⟨"", by simp⟩
  | cons i ids ih =>
    obtain ⟨id, greater⟩ := ih
    have longer : max i id < max i id ++ "0" := lt_append_text _ (by decide)
    refine ⟨max i id ++ "0", List.forall_mem_cons.2 ⟨?_, fun j hj => ?_⟩⟩
    · exact (le_max_left i id).trans_lt longer
    · exact ((greater j hj).trans_le (le_max_right i id)).trans longer

end VisaEligibility.Documents
