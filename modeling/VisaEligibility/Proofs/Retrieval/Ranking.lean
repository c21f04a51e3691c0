import Mathlib.Data.List.Sort
import Mathlib.Data.Rat.Floor
import VisaEligibility.Proofs.Calendar.Instants
import VisaEligibility.Proofs.Number.Order
import VisaEligibility.Proofs.Text.UnitOrder
import VisaEligibility.Retrieval.Chunk
/-!
The ranking of chunks. Chunks with valid dates and a similarity are strictly ordered as soon as no
two have both ids in common, so a ranking keeps the same first chunks in whatever order they were
found.
-/
set_option autoImplicit false

namespace VisaEligibility

namespace Number

/-- Where a number lies: below the finite ones, among them, above them, or nowhere. -/
def region : Number → Nat
  | infinite true => 0
  | negativeZero => 1
  | finite _ => 1
  | infinite false => 2
  | nan => 3

def byValue : Number → Number → Ordering := compareLex (compareOn region) (compareOn value)

instance : Std.TransCmp byValue := by
  unfold byValue
  infer_instance

variable {x y : Number}

theorem order?_eq_byValue (hx : x ≠ nan) (hy : y ≠ nan) : x.order? y = some (byValue x y) := by
  have values (p q : Rat) :
      (if p < q then Ordering.lt else if p = q then .eq else .gt) = compare p q := by
    rw [LinearOrder.compare_eq_compareOfLessAndEq, compareOfLessAndEq]
  cases x with
  | nan => contradiction
  | infinite s =>
    cases y with
    | nan => contradiction
    | infinite t => cases s <;> cases t <;> rfl
    | negativeZero => cases s <;> rfl
    | finite b => cases s <;> rfl
  | negativeZero =>
    cases y with
    | nan => contradiction
    | infinite t => cases t <;> rfl
    | negativeZero => rfl
    | finite b => exact congrArg some (values 0 b)
  | finite a =>
    cases y with
    | nan => contradiction
    | infinite t => cases t <;> rfl
    | negativeZero => exact congrArg some (values a 0)
    | finite b => exact congrArg some (values a b)

theorem lt_eq_byValue (hx : x ≠ nan) (hy : y ≠ nan) : x.lt y = true ↔ byValue x y = .lt := by
  simp [lt, order?_eq_byValue hx hy]

theorem same_eq_byValue (hx : x ≠ nan) (hy : y ≠ nan) : x.same y = true ↔ byValue x y = .eq := by
  simp [same, order?_eq_byValue hx hy]

end Number

namespace Chunk

variable {a b c : Chunk} {chunks : List Chunk} {topK floor : Number}

/-- The first chunk is the better one: it is more similar, or as similar and from a newer version of
a document, or then from a version whose id comes first, or then of an id that comes first. -/
def Precedes (a b : Chunk) : Prop :=
  b.similarity.lt a.similarity = true ∨
    a.similarity.same b.similarity = true ∧
      (b.documentCreatedAt.lt a.documentCreatedAt = true ∨
        a.documentCreatedAt = b.documentCreatedAt ∧
          (Text.codeUnits a.documentVersionId < Text.codeUnits b.documentVersionId ∨
            a.documentVersionId = b.documentVersionId ∧ Text.codeUnits a.id < Text.codeUnits b.id))

structure Rankable (c : Chunk) : Prop where
  similar : c.similarity ≠ .nan
  dated : c.documentCreatedAt.isValid = true

def byMerit : Chunk → Chunk → Ordering :=
  compareLex (fun a b => Number.byValue b.similarity a.similarity)
    (compareLex (fun a b => compare b.documentCreatedAt.millis a.documentCreatedAt.millis)
      (compareLex (fun a b => Text.unitOrder a.documentVersionId b.documentVersionId)
        fun a b => Text.unitOrder a.id b.id))

instance : Std.TransCmp byMerit := by
  have similarity : Std.TransCmp fun a b : Chunk => Number.byValue b.similarity a.similarity :=
    Sorting.transCmp_of_key (fun x y => Number.byValue y x) similarity
  have date : Std.TransCmp fun a b : Chunk =>
      compare b.documentCreatedAt.millis a.documentCreatedAt.millis :=
    Sorting.transCmp_of_key (fun x y => compare y x) fun c : Chunk => c.documentCreatedAt.millis
  have version : Std.TransCmp fun a b : Chunk =>
      Text.unitOrder a.documentVersionId b.documentVersionId :=
    Sorting.transCmp_of_key Text.unitOrder documentVersionId
  have id : Std.TransCmp fun a b : Chunk => Text.unitOrder a.id b.id :=
    Sorting.transCmp_of_key Text.unitOrder Chunk.id
  unfold byMerit
  infer_instance

theorem order_eq_byMerit (ha : a.Rankable) (hb : b.Rankable) : order a b = byMerit a b := by
  simp [order, numberOrder, byMerit, compareLex, Number.order?_eq_byValue hb.similar ha.similar,
    Instant.order?_of_valid hb.dated ha.dated, Ordering.then_assoc]

theorem precedes_iff (ha : a.Rankable) (hb : b.Rankable) : a.Precedes b ↔ byMerit a b = .lt := by
  have times : a.documentCreatedAt = b.documentCreatedAt ↔
      b.documentCreatedAt.millis = a.documentCreatedAt.millis :=
    ⟨fun same => same ▸ rfl, fun same => Instant.eq_of_millis ha.dated hb.dated same.symm⟩
  have level : a.similarity.same b.similarity = true ↔
      Number.byValue b.similarity a.similarity = .eq := by
    rw [Number.same_eq_byValue ha.similar hb.similar]
    exact Std.OrientedCmp.eq_comm
  simp only [Precedes, byMerit, compareLex, Ordering.then_eq_lt, level, times,
    Number.lt_eq_byValue hb.similar ha.similar, Instant.lt_iff_of_valid hb.dated ha.dated,
    Int.compare_eq_lt, Text.unitOrder_eq_lt_iff, Std.LawfulEqCmp.compare_eq_iff_eq]

theorem precedes_trans (ha : a.Rankable) (hb : b.Rankable) (hc : c.Rankable) (hab : a.Precedes b)
    (hbc : b.Precedes c) : a.Precedes c := by
  rw [precedes_iff ha hb] at hab
  rw [precedes_iff hb hc] at hbc
  rw [precedes_iff ha hc]
  exact Std.TransCmp.lt_trans hab hbc

theorem precedes_asymm (ha : a.Rankable) (hb : b.Rankable) (hab : a.Precedes b) :
    ¬b.Precedes a := by
  rw [precedes_iff ha hb] at hab
  rw [precedes_iff hb ha, Std.OrientedCmp.gt_of_lt hab]
  simp

theorem precedes_total (ha : a.Rankable) (hb : b.Rankable)
    (differ : (a.documentVersionId, a.id) ≠ (b.documentVersionId, b.id)) :
    a.Precedes b ∨ b.Precedes a := by
  rw [precedes_iff ha hb, precedes_iff hb ha]
  cases he : byMerit a b with
  | lt => exact .inl rfl
  | gt => exact .inr (Std.OrientedCmp.lt_of_gt he)
  | eq =>
    simp only [byMerit, compareLex, Ordering.then_eq_eq, Std.LawfulEqCmp.compare_eq_iff_eq] at he
    exact absurd (Prod.ext he.2.2.1 he.2.2.2) differ

theorem first_natCast {α : Type} (k : Nat) (l : List α) : first (.finite k) l = l.take k := by
  have whole : Number.truncate? (.finite k) = some (.ofNat k) := by
    rw [Number.truncate?, if_neg (not_lt.2 (Nat.cast_nonneg k))]
    exact congrArg some (Rat.floor_intCast k)
  simp [first, whole]

theorem first_sublist {α : Type} (count : Number) (l : List α) : (first count l).Sublist l := by
  unfold first
  split
  · exact List.nil_sublist l
  · exact List.nil_sublist l
  · exact List.Sublist.refl l
  · split
    · exact List.take_sublist _ l
    · exact List.take_sublist _ l
    · exact List.nil_sublist l

theorem of_mem_rank (hc : c ∈ rank chunks topK floor) :
    c ∈ chunks ∧ floor.le c.similarity = true :=
  List.mem_filter.1 (Sorting.mem_sort.1 ((first_sublist _ _).subset hc))

theorem length_rank_le (chunks : List Chunk) (k : Nat) (floor : Number) :
    (rank chunks (.finite k) floor).length ≤ k := by
  rw [rank, first_natCast]
  exact List.length_take_le k _

def eligible (floor : Number) (chunks : List Chunk) : List Chunk :=
  chunks.filter fun c => floor.le c.similarity

def ids (c : Chunk) : String × String := (c.documentVersionId, c.id)

section Sorted

theorem sort_eq_byMerit (rankable : ∀ c ∈ chunks, c.Rankable) :
    Sorting.sort before chunks = Sorting.sort (fun a b => byMerit a b == .lt) chunks := by
  refine Sorting.sort_congr chunks fun a ha b hb => ?_
  rw [before, order_eq_byMerit (rankable a ha) (rankable b hb)]

theorem pairwise_precedes_sort (rankable : ∀ c ∈ chunks, c.Rankable)
    (distinct : (chunks.map ids).Nodup) : (Sorting.sort before chunks).Pairwise Precedes := by
  have sorted := Sorting.sort_sorted (Sorting.isPreorder_of_cmp byMerit) chunks
  rw [← sort_eq_byMerit rankable] at sorted
  have apart : (Sorting.sort before chunks).Pairwise fun a b => ids a ≠ ids b := by
    have perm := (Sorting.sort_perm before chunks).map ids
    exact List.pairwise_map.1 (perm.nodup_iff.2 distinct)
  refine (sorted.and apart).imp_of_mem fun {a b} ha hb h => ?_
  have ha := rankable a (Sorting.mem_sort.1 ha)
  have hb := rankable b (Sorting.mem_sort.1 hb)
  rcases precedes_total ha hb h.2 with earlier | later
  · exact earlier
  · simp [(precedes_iff hb ha).1 later] at h

theorem eq_of_pairwise_precedes {l m : List Chunk} (rankable : ∀ c ∈ l, c.Rankable)
    (hl : l.Pairwise Precedes) (hm : m.Pairwise Precedes) (h : l.Perm m) : l = m := by
  refine h.eq_of_pairwise (fun a b ha hb hab hba => ?_) hl hm
  exact absurd hba (precedes_asymm (rankable a ha) (rankable b (h.mem_iff.2 hb)) hab)

end Sorted

section Eligible

theorem similarity_ne_nan (hc : floor.le c.similarity = true) : c.similarity ≠ .nan :=
  (Number.le_iff.1 hc).2.1

theorem rankable_of_mem_eligible (dated : ∀ c ∈ chunks, c.documentCreatedAt.isValid = true)
    (hc : c ∈ eligible floor chunks) : c.Rankable := by
  obtain ⟨listed, similar⟩ := List.mem_filter.1 hc
  exact ⟨similarity_ne_nan similar, dated c listed⟩

theorem nodup_ids_eligible (distinct : (chunks.map ids).Nodup) (floor : Number) :
    ((eligible floor chunks).map ids).Nodup :=
  distinct.sublist (List.filter_sublist.map ids)

end Eligible

/-- The eligible chunks stand in one order, infinite similarities included. -/
theorem strictTotalOrder_precedes (dated : ∀ c ∈ chunks, c.documentCreatedAt.isValid = true)
    (distinct : (chunks.map ids).Nodup) (floor : Number) :
    IsStrictTotalOrder {c // c ∈ eligible floor chunks} fun a b => a.1.Precedes b.1 where
  trichotomous a b hab hba := by
    by_contra differ
    have apart : ids a.1 ≠ ids b.1 := fun same =>
      differ (Subtype.ext (List.inj_on_of_nodup_map (nodup_ids_eligible distinct floor) a.2 b.2 same))
    have ha := rankable_of_mem_eligible dated a.2
    have hb := rankable_of_mem_eligible dated b.2
    exact (precedes_total ha hb apart).elim hab hba
  irrefl a ha := by
    have hr := rankable_of_mem_eligible dated a.2
    exact precedes_asymm hr hr ha ha
  trans a b c := precedes_trans (rankable_of_mem_eligible dated a.2)
    (rankable_of_mem_eligible dated b.2) (rankable_of_mem_eligible dated c.2)

/-- An arrangement of the eligible chunks in order, of which the first so many are kept. -/
structure Arranges (chunks : List Chunk) (floor : Number) (k : Nat) (kept dropped : List Chunk) :
    Prop where
  eligible : (kept ++ dropped).Perm (eligible floor chunks)
  ordered : (kept ++ dropped).Pairwise Precedes
  length : kept.length = min k (chunks.countP fun c => floor.le c.similarity)

theorem exists_arranges (dated : ∀ c ∈ chunks, c.documentCreatedAt.isValid = true)
    (distinct : (chunks.map ids).Nodup) (floor : Number) (k : Nat) :
    ∃ dropped, Arranges chunks floor k (rank chunks (.finite k) floor) dropped := by
  have perm := Sorting.sort_perm before (eligible floor chunks)
  have ordered := pairwise_precedes_sort
    (fun c hc => rankable_of_mem_eligible dated hc) (nodup_ids_eligible distinct floor)
  have kept : rank chunks (.finite k) floor =
      (Sorting.sort before (eligible floor chunks)).take k := first_natCast k _
  refine ⟨(Sorting.sort before (eligible floor chunks)).drop k, ?_, ?_, ?_⟩
  · rwa [kept, List.take_append_drop]
  · rwa [kept, List.take_append_drop]
  · rw [kept, List.length_take, perm.length_eq, eligible, List.countP_eq_length_filter]

namespace Arranges

variable {k : Nat} {kept dropped kept' dropped' : List Chunk}

theorem rankable (hd : ∀ c ∈ chunks, c.documentCreatedAt.isValid = true)
    (ha : Arranges chunks floor k kept dropped) : ∀ c ∈ kept ++ dropped, c.Rankable :=
  fun _ hc => rankable_of_mem_eligible hd (ha.eligible.mem_iff.1 hc)

theorem unique (hd : ∀ c ∈ chunks, c.documentCreatedAt.isValid = true)
    (ha : Arranges chunks floor k kept dropped) (ha' : Arranges chunks floor k kept' dropped') :
    kept = kept' := by
  have same : kept ++ dropped = kept' ++ dropped' :=
    eq_of_pairwise_precedes (ha.rankable hd) ha.ordered ha'.ordered
      (ha.eligible.trans ha'.eligible.symm)
  exact (List.append_inj same (ha.length.trans ha'.length.symm)).1

theorem perm {found : List Chunk} (h : found.Perm chunks)
    (ha : Arranges found floor k kept dropped) : Arranges chunks floor k kept dropped :=
  ⟨ha.eligible.trans (h.filter _), ha.ordered, h.countP_eq _ ▸ ha.length⟩

theorem dropped_after (ha : Arranges chunks floor k kept dropped) (listed : c ∈ chunks)
    (similar : floor.le c.similarity = true) (hc : c ∉ kept) (hb : b ∈ kept) : b.Precedes c := by
  have placed : c ∈ kept ++ dropped :=
    ha.eligible.mem_iff.2 (List.mem_filter.2 ⟨listed, similar⟩)
  have later : c ∈ dropped := (List.mem_append.1 placed).resolve_left hc
  exact (List.pairwise_append.1 ha.ordered).2.2 b hb c later

end Arranges

/-- A ranking keeps the first so many of the eligible chunks in their order, which is the only one:
each chunk once, and none that is dropped precedes one that is kept. The order in which the chunks
were found makes no difference, and what has no similarity is never kept. -/
theorem rank_keeps_best (chunks : List Chunk)
    (dated : ∀ c ∈ chunks, c.documentCreatedAt.isValid = true)
    (distinct : (chunks.map ids).Nodup) (floor : Number) (k : Nat) :
    (IsStrictTotalOrder {c // c ∈ eligible floor chunks} fun a b => a.1.Precedes b.1) ∧
    (∃ dropped, Arranges chunks floor k (rank chunks (.finite k) floor) dropped) ∧
    (∀ kept dropped, Arranges chunks floor k kept dropped →
      rank chunks (.finite k) floor = kept) ∧
    (rank chunks (.finite k) floor).Nodup ∧
    (∀ c ∈ chunks, floor.le c.similarity = true → c ∉ rank chunks (.finite k) floor →
      ∀ better ∈ rank chunks (.finite k) floor, better.Precedes c ∧ ¬c.Precedes better) ∧
    (∀ found : List Chunk, found.Perm chunks →
      rank found (.finite k) floor = rank chunks (.finite k) floor) ∧
    ∀ c ∈ rank chunks (.finite k) floor, c ∈ chunks ∧ c.similarity ≠ .nan := by
  obtain ⟨dropped, arranged⟩ := exists_arranges dated distinct floor k
  have rankable := arranged.rankable dated
  refine ⟨strictTotalOrder_precedes dated distinct floor, ⟨dropped, arranged⟩,
    fun _ _ h => arranged.unique dated h, ?_, ?_, ?_, ?_⟩
  · have eligible := (nodup_ids_eligible distinct floor).of_map
    exact (List.nodup_append.1 (arranged.eligible.nodup_iff.2 eligible)).1
  · intro c listed similar hc better hb
    have after := arranged.dropped_after listed similar hc hb
    refine ⟨after, precedes_asymm (rankable better (by simp [hb])) ?_ after⟩
    exact ⟨similarity_ne_nan similar, dated c listed⟩
  · intro found h
    have dated' : ∀ c ∈ found, c.documentCreatedAt.isValid = true :=
      fun c hc => dated c (h.mem_iff.1 hc)
    have distinct' : (found.map ids).Nodup := (h.map ids).nodup_iff.2 distinct
    obtain ⟨dropped', arranged'⟩ := exists_arranges dated' distinct' floor k
    exact (arranged'.perm h).unique dated arranged
  · intro c hc
    obtain ⟨listed, similar⟩ := of_mem_rank hc
    exact ⟨listed, similarity_ne_nan similar⟩

def boundless : List Chunk :=
  [{ (default : Chunk) with id := "c-1", documentCreatedAt := .ofMillis 0, similarity := .nan },
    { (default : Chunk) with id := "c-2", documentCreatedAt := .ofMillis 9, similarity := 1 },
    { (default : Chunk) with
      id := "c-3", documentCreatedAt := .ofMillis 0, similarity := .infinite false },
    { (default : Chunk) with
      id := "c-4", documentCreatedAt := .ofMillis 5, similarity := .infinite false }]

theorem rank_keeps_best_boundless :
    (∀ c ∈ boundless, c.documentCreatedAt.isValid = true) ∧ (boundless.map ids).Nodup ∧
    (rank boundless (.finite (2 : Nat)) 0).map Chunk.id = ["c-4", "c-3"] ∧
    rank boundless.reverse (.finite (2 : Nat)) 0 = rank boundless (.finite (2 : Nat)) 0 := by
  have dated : ∀ c ∈ boundless, c.documentCreatedAt.isValid = true := by decide
  have distinct : (boundless.map ids).Nodup := by decide
  obtain ⟨-, -, -, -, -, permuted, -⟩ := rank_keeps_best boundless dated distinct 0 2
  exact ⟨dated, distinct, by decide +kernel, permuted _ (List.reverse_perm boundless)⟩

end Chunk
end VisaEligibility
