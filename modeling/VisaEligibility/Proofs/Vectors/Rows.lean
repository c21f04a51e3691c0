import Mathlib.Data.List.ReduceOption
import Mathlib.Data.List.TakeWhile
import VisaEligibility.Proofs.Program.Histories
import VisaEligibility.Vectors.Pool
/-!
Which rows of a search are read as chunks, and as which. The date and the score are converted, so
besides the columns that hold one there are those that are only taken for one: NULL, truth values,
blank texts, lists, and a date where a score belongs.
-/
set_option autoImplicit false

namespace VisaEligibility.Chunk

open Vectors (Pool searchStatement)

/-- The instant that a column holds itself. -/
inductive HoldsInstant (dates : DateReader) : Value → Instant → Prop where
  | date {d : Instant} (valid : d.isValid = true) : HoldsInstant dates (.date d) d
  | number {x : Number} (valid : (Instant.ofNumber x).isValid = true) :
      HoldsInstant dates (.number x) (.ofNumber x)
  | text {s : String} (valid : (dates s).isValid = true) : HoldsInstant dates (.text s) (dates s)

/-- The instant that a column is taken for which holds none. -/
inductive TakenForInstant (dates : DateReader) : Value → Instant → Prop where
  | null : TakenForInstant dates .null (.ofMillis 0)
  | bool (b : Bool) : TakenForInstant dates (.bool b) (.ofMillis (if b then 1 else 0))
  | list {vs : List Value} (told : (Value.list vs).hasText = true)
      (valid : (dates (Value.list vs).display).isValid = true) :
      TakenForInstant dates (.list vs) (dates (Value.list vs).display)

/-- The number that a column holds itself. -/
inductive HoldsNumber : Value → Number → Prop where
  | number {x : Number} (valid : x ≠ .nan) : HoldsNumber (.number x) x
  | text {s : String} (filled : ∃ c ∈ s.toList, Text.isBlank c = false)
      (valid : Number.ofText s ≠ .nan) : HoldsNumber (.text s) (.ofText s)

/-- The number that a column is taken for which holds none. -/
inductive TakenForNumber : Value → Number → Prop where
  | null : TakenForNumber .null 0
  | bool (b : Bool) : TakenForNumber (.bool b) (if b then 1 else 0)
  | blank {s : String} (blank : ∀ c ∈ s.toList, Text.isBlank c = true) : TakenForNumber (.text s) 0
  | date {d : Instant} (valid : d.toNumber ≠ .nan) : TakenForNumber (.date d) d.toNumber
  | list {vs : List Value} (told : (Value.list vs).hasText = true)
      (valid : Number.ofText (Value.list vs).display ≠ .nan) :
      TakenForNumber (.list vs) (.ofText (Value.list vs).display)

def columnBefore (key : String) : Option String :=
  if key = "visaCode" then some "visa_code"
  else if key = "jurisdiction" then some "jurisdiction"
  else none

/-- What the metadata of a chunk hold under a key: the text of the column if there is one that is
not empty, or else what the metadata of the row hold, the key that is never kept aside. -/
def metadataAt (row : Value) (key : String) : Option Value :=
  match (columnBefore key).bind fun column => (row.field column).filledText? with
  | some s => some (.text s)
  | none => if key = droppedKey then none else Entries.get? (row.fieldsAt "metadata") key

/-- A row that says what a chunk is, where `instant` and `number` say what its date and its score
stand for. -/
structure Tells (instant : Value → Instant → Prop) (number : Value → Number → Prop) (row : Value)
    (c : Chunk) : Prop where
  id : row.field "chunk_id" = .text c.id
  documentVersionId : row.field "document_version_id" = .text c.documentVersionId
  documentCreatedAt : instant (row.field "document_version_created_at") c.documentCreatedAt
  text : row.field "text" = .text c.text
  similarity : number (row.field "similarity") c.similarity
  visaCode : (row.field "visa_code").isNullish = true ∨ ∃ s, row.field "visa_code" = .text s
  jurisdiction :
    (row.field "jurisdiction").isNullish = true ∨ ∃ s, row.field "jurisdiction" = .text s
  ownMetadata : (row.field "metadata").isNullish = true ∨ ∃ fs, row.field "metadata" = .record fs
  metadata : ∀ key, Entries.get? c.metadata key = metadataAt row key

/-- The row holds every required column itself. -/
def WellFormed (dates : DateReader) (row : Value) (c : Chunk) : Prop :=
  Tells (HoldsInstant dates) HoldsNumber row c

/-- The row holds every required column, or one that is taken for it. -/
def Accepted (dates : DateReader) (row : Value) (c : Chunk) : Prop :=
  Tells (fun v i => HoldsInstant dates v i ∨ TakenForInstant dates v i)
    (fun v x => HoldsNumber v x ∨ TakenForNumber v x) row c

variable {dates : DateReader} {row v : Value} {c : Chunk} {i : Instant} {x : Number} {key : String}

theorem ofText_of_blank {s : String} (blank : ∀ c ∈ s.toList, Text.isBlank c = true) :
    Number.ofText s = 0 := by
  have trimmed : Text.trimChars s.toList = [] := by
    rw [Text.trimChars, Text.trimLeft, List.dropWhile_eq_nil_iff.2 blank]
    rfl
  rw [Number.ofText, trimmed]
  rfl

theorem asInstant_eq :
    v.asInstant dates = i ∧ i.isValid = true ∧ v.hasText = true ↔
      HoldsInstant dates v i ∨ TakenForInstant dates v i := by
  constructor
  · rintro ⟨rfl, valid, told⟩
    cases v with
    | null => exact .inr .null
    | undefined => cases valid
    | bool b => exact .inr (.bool b)
    | number x => exact .inl (.number valid)
    | text s => exact .inl (.text valid)
    | date d => exact .inl (.date valid)
    | list vs => exact .inr (.list told valid)
    | record fs => cases valid
  · rintro (held | taken)
    · cases held with
      | date valid => exact ⟨rfl, valid, rfl⟩
      | number valid => exact ⟨rfl, valid, rfl⟩
      | text valid => exact ⟨rfl, valid, rfl⟩
    · cases taken with
      | null => exact ⟨rfl, rfl, rfl⟩
      | bool b => exact ⟨rfl, rfl, rfl⟩
      | list told valid => exact ⟨rfl, valid, told⟩

theorem asNumber_eq :
    v.asNumber = x ∧ x ≠ .nan ∧ v.hasText = true ↔ HoldsNumber v x ∨ TakenForNumber v x := by
  constructor
  · rintro ⟨rfl, valid, told⟩
    cases v with
    | null => exact .inr .null
    | undefined => cases valid rfl
    | bool b => exact .inr (.bool b)
    | number x => exact .inl (.number valid)
    | text s =>
      -- A blank text is read as zero, not as nothing, so it is no number of its own.
      by_cases filled : ∃ c ∈ s.toList, Text.isBlank c = false
      · exact .inl (.text filled valid)
      · have blank : ∀ c ∈ s.toList, Text.isBlank c = true := by simpa using filled
        have zero : (Value.text s).asNumber = 0 := ofText_of_blank blank
        rw [zero]
        exact .inr (.blank blank)
    | date d => exact .inr (.date valid)
    | list vs => exact .inr (.list told valid)
    | record fs => cases valid rfl
  · rintro (held | taken)
    · cases held with
      | number valid => exact ⟨rfl, valid, rfl⟩
      | text filled valid => exact ⟨rfl, valid, rfl⟩
    · cases taken with
      | null => exact ⟨rfl, by decide, rfl⟩
      | bool b => exact ⟨rfl, by cases b <;> decide, rfl⟩
      | blank blank => exact ⟨ofText_of_blank blank, by decide, rfl⟩
      | date valid => exact ⟨rfl, valid, rfl⟩
      | list told valid => exact ⟨rfl, valid, told⟩

theorem text?_eq_some {s : String} : v.text? = some s ↔ v = .text s := by
  cases v <;> simp [Value.text?]

theorem textColumn?_eq_some {column : Option String} :
    textColumn? v = some column ↔
      v.isNullish = true ∧ column = none ∨ ∃ s, v = .text s ∧ column = some s := by
  cases v <;> simp [textColumn?, Value.optional?, Value.isNullish, Value.text?, eq_comm]

theorem filledText?_eq {column : Option String} (read : textColumn? v = some column) :
    v.filledText? = column.filter fun s => !s.isEmpty := by
  rcases textColumn?_eq_some.1 read with ⟨nullish, rfl⟩ | ⟨s, rfl, rfl⟩
  · cases v with
    | null => rfl
    | undefined => rfl
    | _ => cases nullish
  · cases empty : s.isEmpty <;> simp [Value.filledText?, Option.filter, empty]

theorem metadataColumn?_eq_some {fields : List (String × Value)} :
    metadataColumn? v = some fields ↔
      (v.isNullish = true ∨ ∃ own, v = .record own) ∧
        fields = ((v.fields?).getD []).filter fun f => f.1 != droppedKey := by
  cases v <;> simp [metadataColumn?, Value.optional?, Value.isNullish, Value.fields?, eq_comm]

theorem similarityColumn?_eq_some : similarityColumn? v = some x ↔ v.asNumber = x ∧ x ≠ .nan := by
  have nan_iff : v.asNumber.isNaN = true ↔ v.asNumber = .nan := by
    cases v.asNumber <;> simp [Number.isNaN]
  simp only [similarityColumn?, nan_iff]
  split
  · rename_i nan
    simp only [reduceCtorEq, false_iff, not_and, not_not]
    exact fun same => same.symm.trans nan
  · rename_i valid
    simp only [Option.some.injEq, iff_self_and]
    rintro rfl
    exact valid

theorem validDate?_eq_some {d : Instant} :
    (Value.date d).validDate? = some i ↔ d = i ∧ i.isValid = true := by
  simp only [Value.validDate?]
  split
  · rename_i valid
    simp only [Option.some.injEq, iff_self_and]
    rintro rfl
    exact valid
  · rename_i invalid
    simp only [reduceCtorEq, false_iff, not_and]
    rintro rfl
    exact invalid

theorem get?_withColumn (metadata : List (String × Value)) (column : Option String)
    (other : String) :
    Entries.get? (withColumn metadata key column) other =
      if other = key then
        ((column.filter fun s => !s.isEmpty).map Value.text).or (Entries.get? metadata other)
      else Entries.get? metadata other := by
  cases column with
  | none => simp [withColumn]
  | some s =>
    cases empty : s.isEmpty with
    | true => simp [withColumn, empty, Option.filter]
    | false =>
      rw [withColumn, if_neg (by simp [empty])]
      split
      · rename_i same
        rw [same, Entries.get?_put_self]
        simp [Option.filter, empty]
      · rename_i differ
        exact Entries.get?_put_of_ne _ _ differ

theorem get?_undropped (fields : List (String × Value)) :
    Entries.get? (fields.filter fun f => f.1 != droppedKey) key =
      if key = droppedKey then none else Entries.get? fields key := by
  rw [Entries.get?, Entries.get?, List.find?_filter]
  split
  · rename_i dropped
    rw [List.find?_eq_none.2]
    · rfl
    · intro f _
      by_cases own : f.1 = key <;> simp [own, dropped]
  · rename_i kept
    congr 2
    funext f
    by_cases own : f.1 = key <;> simp [own, kept]

theorem get?_metadata {visaCode jurisdiction : Option String} {fields : List (String × Value)}
    (visaCodeRead : textColumn? (row.field "visa_code") = some visaCode)
    (jurisdictionRead : textColumn? (row.field "jurisdiction") = some jurisdiction)
    (metadataRead : metadataColumn? (row.field "metadata") = some fields) :
    Entries.get? (withColumn (withColumn fields "visaCode" visaCode) "jurisdiction" jurisdiction)
      key = metadataAt row key := by
  obtain ⟨-, rfl⟩ := metadataColumn?_eq_some.1 metadataRead
  rw [get?_withColumn, get?_withColumn, get?_undropped, ← filledText?_eq visaCodeRead,
    ← filledText?_eq jurisdictionRead, metadataAt, columnBefore]
  have own : (((row.field "metadata").fields?).getD []) = row.fieldsAt "metadata" := rfl
  by_cases visaKey : key = "visaCode"
  · subst visaKey
    cases filled : (row.field "visa_code").filledText? <;> simp [own, filled]
  · by_cases jurisdictionKey : key = "jurisdiction"
    · subst jurisdictionKey
      cases filled : (row.field "jurisdiction").filledText? <;> simp [own, filled]
    · simp [visaKey, jurisdictionKey, own]

theorem ofRow?_eq_some :
    ofRow? row dates = some c ↔ ∃ visaCode jurisdiction fields,
      (row.field "chunk_id" = .text c.id ∧
        row.field "document_version_id" = .text c.documentVersionId ∧
        ((row.field "document_version_created_at").asInstant dates = c.documentCreatedAt ∧
          c.documentCreatedAt.isValid = true) ∧
        row.field "text" = .text c.text ∧
        ((row.field "similarity").asNumber = c.similarity ∧ c.similarity ≠ .nan)) ∧
      textColumn? (row.field "visa_code") = some visaCode ∧
      textColumn? (row.field "jurisdiction") = some jurisdiction ∧
      metadataColumn? (row.field "metadata") = some fields ∧
      c.metadata =
        withColumn (withColumn fields "visaCode" visaCode) "jurisdiction" jurisdiction := by
  simp only [ofRow?, Option.bind_eq_bind, Option.bind_eq_some_iff, Option.pure_def,
    Option.some.injEq, text?_eq_some, validDate?_eq_some, similarityColumn?_eq_some]
  constructor
  · rintro ⟨id, hid, version, hversion, created, hcreated, text, htext, score, hscore, visaCode,
      hvisa, jurisdiction, hjurisdiction, fields, hfields, rfl⟩
    exact ⟨visaCode, jurisdiction, fields, ⟨hid, hversion, hcreated, htext, hscore⟩, hvisa,
      hjurisdiction, hfields, rfl⟩
  · rintro ⟨visaCode, jurisdiction, fields, ⟨hid, hversion, hcreated, htext, hscore⟩, hvisa,
      hjurisdiction, hfields, hmetadata⟩
    refine ⟨_, hid, _, hversion, _, hcreated, _, htext, _, hscore, _, hvisa, _, hjurisdiction, _,
      hfields, ?_⟩
    rw [← hmetadata]

theorem text_of_textColumn? {column : Option String} (read : textColumn? v = some column) :
    v.isNullish = true ∨ ∃ s, v = .text s := by
  rcases textColumn?_eq_some.1 read with ⟨nullish, -⟩ | ⟨s, given, -⟩
  · exact .inl nullish
  · exact .inr ⟨s, given⟩

theorem exists_textColumn? (given : v.isNullish = true ∨ ∃ s, v = .text s) :
    ∃ column, textColumn? v = some column := by
  rcases given with nullish | ⟨s, given⟩
  · exact ⟨none, textColumn?_eq_some.2 (.inl ⟨nullish, rfl⟩)⟩
  · exact ⟨some s, textColumn?_eq_some.2 (.inr ⟨s, given, rfl⟩)⟩

theorem accepted_of_ofRow? (convertible : isConvertible row = true) (read : ofRow? row dates = some c) :
    Accepted dates row c := by
  obtain ⟨dateTold, scoreTold⟩ := (Bool.and_eq_true _ _).mp convertible
  obtain ⟨visaCode, jurisdiction, fields, ⟨hid, hversion, ⟨hcreated, valid⟩, htext, hscore,
    counts⟩, hvisa, hjurisdiction, hfields, hmetadata⟩ := ofRow?_eq_some.1 read
  exact {
    id := hid
    documentVersionId := hversion
    documentCreatedAt := asInstant_eq.1 ⟨hcreated, valid, dateTold⟩
    text := htext
    similarity := asNumber_eq.1 ⟨hscore, counts, scoreTold⟩
    visaCode := text_of_textColumn? hvisa
    jurisdiction := text_of_textColumn? hjurisdiction
    ownMetadata := (metadataColumn?_eq_some.1 hfields).1
    metadata := fun key => by rw [hmetadata, get?_metadata hvisa hjurisdiction hfields] }

theorem Accepted.convertible (accepted : Accepted dates row c) : isConvertible row = true := by
  have dateTold := (asInstant_eq.2 accepted.documentCreatedAt).2.2
  have scoreTold := (asNumber_eq.2 accepted.similarity).2.2
  rw [isConvertible, dateTold, scoreTold]
  rfl

theorem Accepted.exists_ofRow? (accepted : Accepted dates row c) : ∃ c', ofRow? row dates = some c' := by
  obtain ⟨dated, valid, -⟩ := asInstant_eq.2 accepted.documentCreatedAt
  obtain ⟨scored, counts, -⟩ := asNumber_eq.2 accepted.similarity
  obtain ⟨visaCode, hvisa⟩ := exists_textColumn? accepted.visaCode
  obtain ⟨jurisdiction, hjurisdiction⟩ := exists_textColumn? accepted.jurisdiction
  obtain ⟨fields, hfields⟩ : ∃ fields, metadataColumn? (row.field "metadata") = some fields :=
    ⟨_, metadataColumn?_eq_some.2 ⟨accepted.ownMetadata, rfl⟩⟩
  let metadata := withColumn (withColumn fields "visaCode" visaCode) "jurisdiction" jurisdiction
  exact ⟨{ c with metadata }, ofRow?_eq_some.2 ⟨visaCode, jurisdiction, fields,
    ⟨accepted.id, accepted.documentVersionId, ⟨dated, valid⟩, accepted.text, scored, counts⟩,
    hvisa, hjurisdiction, hfields, rfl⟩⟩

theorem Accepted.not_nullish (accepted : Accepted dates row c) : row.isNullish = false := by
  have id := accepted.id
  cases row with
  | null => cases id
  | undefined => cases id
  | _ => rfl

theorem accepted_of_ofRow (read : ofRow row dates = .ok (some c)) : Accepted dates row c := by
  unfold ofRow at read
  split at read
  · cases read
  · split at read
    · rename_i convertible
      exact accepted_of_ofRow? convertible (Except.ok.inj read)
    · cases read

/-- A row is read as a chunk exactly if it tells of one. -/
theorem exists_ofRow_eq_some : (∃ c, ofRow row dates = .ok (some c)) ↔ ∃ c, Accepted dates row c := by
  constructor
  · rintro ⟨c, read⟩
    exact ⟨c, accepted_of_ofRow read⟩
  · rintro ⟨c, accepted⟩
    obtain ⟨c', read⟩ := accepted.exists_ofRow?
    refine ⟨c', ?_⟩
    simp [ofRow, accepted.not_nullish, accepted.convertible, read]

theorem ofRow_eq_error {e : Raised} :
    ofRow row dates = .error e ↔
      row.isNullish = true ∧ e = .failure (.noFields row "chunk_id") ∨
      row.isNullish = false ∧ isConvertible row = false ∧ e = .failure .noText := by
  cases nullish : row.isNullish with
  | true =>
    simp only [ofRow, nullish, if_true, Except.error.injEq, true_and, Bool.true_eq_false,
      false_and, or_false]
    exact eq_comm
  | false =>
    cases convertible : isConvertible row with
    | true => simp [ofRow, nullish, convertible]
    | false =>
      simp only [ofRow, nullish, convertible, Bool.false_eq_true, if_false, Except.error.injEq,
        false_and, true_and, false_or]
      exact eq_comm

theorem ofRow_eq_none :
    ofRow row dates = .ok none ↔
      row.isNullish = false ∧ isConvertible row = true ∧ ¬∃ c, Accepted dates row c := by
  rw [← exists_ofRow_eq_some]
  cases nullish : row.isNullish with
  | true => simp [ofRow, nullish]
  | false =>
    cases convertible : isConvertible row with
    | false => simp [ofRow, nullish, convertible]
    | true => cases read : ofRow? row dates <;> simp [ofRow, nullish, convertible, read]

/-- What a search makes of its rows: the chunks of those that tell of one, in the order of the rows,
or the failure of the first row that cannot be read. -/
def Collected (dates : DateReader) (rows : List Value) : Except Raised (List Chunk) → Prop
  | .ok cs => ∃ read, List.Forall₂ (fun row c => ofRow row dates = .ok c) rows read ∧
      cs = read.reduceOption
  | .error e => ∃ before row after, rows = before ++ row :: after ∧
      (∀ r ∈ before, ∃ c, ofRow r dates = .ok c) ∧ ofRow row dates = .error e

theorem ofRows_cons_ok {rows : List Value} {read : Option Chunk} {cs : List Chunk}
    (first : ofRow row dates = .ok read) (others : ofRows dates rows = .ok cs) :
    ofRows dates (row :: rows) = .ok (read.toList ++ cs) := by
  simp [ofRows, first, others, bind, Except.bind, pure, Except.pure]

theorem ofRows_cons_error {rows : List Value} {read : Option Chunk} {e : Raised}
    (first : ofRow row dates = .ok read) (others : ofRows dates rows = .error e) :
    ofRows dates (row :: rows) = .error e := by
  simp [ofRows, first, others, bind, Except.bind]

theorem collected_ofRows (rows : List Value) : Collected dates rows (ofRows dates rows) := by
  induction rows with
  | nil => exact ⟨[], .nil, rfl⟩
  | cons row rows ih =>
    cases first : ofRow row dates with
    | error e =>
      have all : ofRows dates (row :: rows) = .error e := by simp [ofRows, first, bind, Except.bind]
      rw [all]
      exact ⟨[], row, rows, rfl, by simp, first⟩
    | ok c =>
      cases others : ofRows dates rows with
      | error e =>
        rw [others] at ih
        obtain ⟨before, failed, after, rfl, readable, failure⟩ := ih
        rw [ofRows_cons_error first others]
        exact ⟨row :: before, failed, after, rfl, List.forall_mem_cons.2 ⟨⟨c, first⟩, readable⟩,
          failure⟩
      | ok cs =>
        rw [others] at ih
        obtain ⟨read, each, rfl⟩ := ih
        rw [ofRows_cons_ok first others]
        exact ⟨c :: read, .cons first each, by cases c <;> rfl⟩

theorem Collected.eq {rows : List Value} {x : Except Raised (List Chunk)}
    (h : Collected dates rows x) : x = ofRows dates rows := by
  cases x with
  | ok cs =>
    obtain ⟨read, each, rfl⟩ := h
    induction each with
    | nil => rfl
    | @cons row c rows read first _ ih =>
      rw [ofRows_cons_ok first ih.symm]
      cases c <;> rfl
  | error e =>
    obtain ⟨before, row, after, rfl, readable, failure⟩ := h
    induction before with
    | nil => simp [ofRows, failure, bind, Except.bind]
    | cons r before ih =>
      obtain ⟨⟨c, first⟩, later⟩ := List.forall_mem_cons.1 readable
      exact (ofRows_cons_error first (ih later).symm).symm

theorem returns_search {schemaName : String} {vector : List Number} {filters : ChunkFilters}
    {topK minSimilarity : Number} {h : History Vectors.PoolCall.interface}
    {x : Except Raised (List Chunk)} :
    (Pool.search schemaName vector filters topK minSimilarity dates).Returns h x ↔
      ∃ reply,
        (Pool.query (searchStatement schemaName vector filters topK minSimilarity)).Returns h
          reply ∧
        match reply with
        | .ok rows => Collected dates rows x
        | .error e => x = .error e := by
  constructor
  · intro hr
    obtain ⟨sent, reply, rest, rfl, answered, hr⟩ := Program.returns_bind.1 hr
    refine ⟨reply, ?_⟩
    cases reply with
    | ok rows =>
      obtain ⟨rfl, rfl⟩ := Program.returns_done.1 hr
      exact ⟨by rwa [List.append_nil], collected_ofRows rows⟩
    | error e =>
      obtain ⟨rfl, rfl⟩ := Program.returns_done.1 hr
      exact ⟨by rwa [List.append_nil], rfl⟩
  · rintro ⟨reply, answered, made⟩
    refine Program.returns_bind.2 ⟨h, reply, [], (List.append_nil h).symm, answered, ?_⟩
    cases reply with
    | ok rows => exact Program.returns_done.2 ⟨rfl, made.eq⟩
    | error e => exact Program.returns_done.2 ⟨rfl, made⟩

theorem HoldsInstant.not_taken {j : Instant} (held : HoldsInstant dates v i) : ¬TakenForInstant dates v j := by
  intro taken
  cases held <;> cases taken

theorem HoldsNumber.not_taken {y : Number} (held : HoldsNumber v x) : ¬TakenForNumber v y := by
  intro taken
  cases held with
  | number => cases taken
  | text filled =>
    cases taken with
    | blank blank =>
      obtain ⟨c, mem, visible⟩ := filled
      cases visible.symm.trans (blank c mem)

theorem wellFormed_iff :
    WellFormed dates row c ↔ Accepted dates row c ∧
      (∀ i, ¬TakenForInstant dates (row.field "document_version_created_at") i) ∧
      ∀ x, ¬TakenForNumber (row.field "similarity") x := by
  constructor
  · intro formed
    have accepted : Accepted dates row c :=
      { formed with
        documentCreatedAt := .inl formed.documentCreatedAt
        similarity := .inl formed.similarity }
    exact ⟨accepted, fun i => formed.documentCreatedAt.not_taken,
      fun x => formed.similarity.not_taken⟩
  · rintro ⟨accepted, dateNotTaken, scoreNotTaken⟩
    exact
      { accepted with
        documentCreatedAt := accepted.documentCreatedAt.resolve_right (dateNotTaken _)
        similarity := accepted.similarity.resolve_right (scoreNotTaken _) }

/-- Whether a row is read as a chunk and as which, when it is skipped, when it fails the reading,
and what a search makes of the rows that its statement is answered with. -/
theorem search_collects_accepted_rows (dates : DateReader) (row : Value) :
    (∀ c, ofRow row dates = .ok (some c) → Accepted dates row c) ∧
    ((∃ c, ofRow row dates = .ok (some c)) ↔ ∃ c, Accepted dates row c) ∧
    (ofRow row dates = .ok none ↔
      row.isNullish = false ∧ isConvertible row = true ∧ ¬∃ c, Accepted dates row c) ∧
    (∀ e, ofRow row dates = .error e ↔
      row.isNullish = true ∧ e = .failure (.noFields row "chunk_id") ∨
      row.isNullish = false ∧ isConvertible row = false ∧ e = .failure .noText) ∧
    (∀ c, WellFormed dates row c ↔ Accepted dates row c ∧
      (∀ i, ¬TakenForInstant dates (row.field "document_version_created_at") i) ∧
      ∀ x, ¬TakenForNumber (row.field "similarity") x) ∧
    ∀ schemaName vector filters topK minSimilarity h x,
      (Pool.search schemaName vector filters topK minSimilarity dates).Returns h x ↔
        ∃ reply,
          (Pool.query (searchStatement schemaName vector filters topK minSimilarity)).Returns h
            reply ∧
          match reply with
          | .ok rows => Collected dates rows x
          | .error e => x = .error e := by
  refine ⟨fun _ => accepted_of_ofRow, exists_ofRow_eq_some, ofRow_eq_none,
    fun _ => ofRow_eq_error, fun _ => wellFormed_iff, ?_⟩
  intro schemaName vector filters topK minSimilarity h x
  exact returns_search

def unscored : Value :=
  .record [("chunk_id", .text "chunk-1"), ("document_version_id", .text "docv-1"),
    ("document_version_created_at", .date (.ofMillis 1706745600000)),
    ("text", .text "Sponsors must hold a valid licence."), ("similarity", .null)]

/-- A row without a score is not skipped. -/
theorem unscored_row_accepted :
    ¬∀ row c, ofRow row = .ok (some c) → WellFormed .universal row c := by
  intro claimed
  obtain ⟨c, read⟩ : ∃ c, ofRow unscored = .ok (some c) := ⟨_, rfl⟩
  cases (claimed unscored c read).similarity

end VisaEligibility.Chunk
