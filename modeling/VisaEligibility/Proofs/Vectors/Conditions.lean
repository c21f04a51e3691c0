import VisaEligibility.Bench.Basic
import VisaEligibility.Proofs.Number.Order
import VisaEligibility.Vectors.Statement
/-!
Which stored chunks satisfy the conditions of a search statement, and which of them the bench finds.
Conditions have three truth values, and a row is selected when all of them are true.
-/
set_option autoImplicit false

namespace VisaEligibility.Vectors

inductive Condition where
  | similarAtLeast (param : Nat)
  | equal (column : String) (param : Nat)
  | isNull (column : String)
  | either (left right : Condition)
deriving DecidableEq, Repr

/-- A stored chunk as its row: the similarity to the vector of the search and the columns that
conditions look at, `none` where they hold no value. -/
structure Row where
  similarity : Number
  visaCode : Option String
  jurisdiction : Option String
deriving DecidableEq, Repr

def rowOf (c : Chunk) : Row :=
  { similarity := c.similarity
    visaCode := (Entries.get? c.metadata "visaCode").bind Value.text?
    jurisdiction := (Entries.get? c.metadata "jurisdiction").bind Value.text? }

def Row.column (row : Row) (name : String) : Option String :=
  if name = "visa_code" then row.visaCode
  else if name = "jurisdiction" then row.jurisdiction
  else none

def param? (params : List Value) : Nat → Option Value
  | 0 => none
  | n + 1 => params[n]?

/-- Whether a number is at least another as a database orders numbers, `nan` above all others. -/
def atLeast (x y : Number) : Bool := x.isNaN || y.le x

/-- The alternative of two truth values, of which `none` is unknown. -/
def alternative (a b : Option Bool) : Option Bool :=
  if a = some true ∨ b = some true then some true
  else if a = some false ∧ b = some false then some false
  else none

namespace Condition

def text : Condition → String
  | similarAtLeast n => "1 - (" ++ distance ++ ") >= " ++ placeholder n
  | equal column n => column ++ " = " ++ placeholder n
  | isNull column => column ++ " IS NULL"
  | either l r => "(" ++ l.text ++ " OR " ++ r.text ++ ")"

/-- The truth value of a condition on a row. A comparison is unknown where a side has no value. -/
def truth (params : List Value) (row : Row) : Condition → Option Bool
  | similarAtLeast n =>
    ((param? params n).bind Value.number?).map fun least => atLeast row.similarity least
  | equal column n => do
    let held ← row.column column
    let wanted ← (param? params n).bind Value.text?
    some (held == wanted)
  | isNull column => some (row.column column).isNone
  | either l r => alternative (l.truth params row) (r.truth params row)

end Condition

def Selects (conditions : List Condition) (params : List Value) (row : Row) : Prop :=
  ∀ c ∈ conditions, c.truth params row = some true

def filterConditions (n : Nat) : List (String × String) → List Condition
  | [] => []
  | f :: fs =>
    .either (.equal (columnOf f.1) n) (.isNull (columnOf f.1)) :: filterConditions (n + 1) fs

def whereClause (filters : ChunkFilters) : List Condition :=
  .similarAtLeast 2 :: filterConditions 3 filters.conditions

def searchParams (vector : List Number) (filters : ChunkFilters) (topK minSimilarity : Number) :
    List Value :=
  [.text (Json.print (.list (vector.map .number))), .number minSimilarity] ++
    filters.conditions.map (fun f => .text f.2) ++ [.number topK]

variable {params : List Value} {row : Row} {fs : List (String × String)} {f : String × String}
  {filters : ChunkFilters} {c : Chunk} {n : Nat}

theorem map_text_filterConditions (n : Nat) (fs : List (String × String)) :
    (filterConditions n fs).map Condition.text = conditions n fs := by
  induction fs generalizing n with
  | nil => rfl
  | cons f fs ih =>
    rw [filterConditions, conditions, List.map_cons, ih]
    simp [Condition.text, condition, String.append_assoc]

theorem searchStatement_eq (schemaName : String) (vector : List Number) (filters : ChunkFilters)
    (topK minSimilarity : Number) :
    searchStatement schemaName vector filters topK minSimilarity =
      ⟨String.intercalate "\n" (searchLines schemaName ((whereClause filters).map Condition.text)
        (searchParams vector filters topK minSimilarity).length),
        some (searchParams vector filters topK minSimilarity)⟩ := by
  rw [whereClause, List.map_cons, map_text_filterConditions]
  rfl

theorem alternative_eq_true {a b : Option Bool} :
    alternative a b = some true ↔ a = some true ∨ b = some true := by
  unfold alternative
  split
  · simp [*]
  · split <;> simp [*]

theorem truth_filterCondition {column : String}
    (given : (param? params n).bind Value.text? = some f.2) :
    (Condition.either (.equal column n) (.isNull column)).truth params row = some true ↔
      row.column column = none ∨ row.column column = some f.2 := by
  rw [Condition.truth, alternative_eq_true, or_comm, Condition.truth, Condition.truth, given]
  cases row.column column with
  | none => simp
  | some held => simp

theorem selects_filterConditions
    (given : (fs.map fun f => Value.text f.2) <+: params.drop n) :
    Selects (filterConditions (n + 1) fs) params row ↔
      ∀ f ∈ fs, row.column (columnOf f.1) = none ∨ row.column (columnOf f.1) = some f.2 := by
  induction fs generalizing n with
  | nil => simp [Selects, filterConditions]
  | cons f fs ih =>
    obtain ⟨rest, split⟩ := given
    rw [List.map_cons, List.cons_append] at split
    have own : param? params (n + 1) = some (.text f.2) := by
      have first := congrArg (fun l => l[0]?) split
      simpa [param?] using first.symm
    have given : (param? params (n + 1)).bind Value.text? = some f.2 := by rw [own]; rfl
    have later : (fs.map fun f => Value.text f.2) <+: params.drop (n + 1) := by
      have tail := congrArg List.tail split
      rw [List.tail_drop] at tail
      exact ⟨rest, tail⟩
    rw [Selects, filterConditions, List.forall_mem_cons, List.forall_mem_cons,
      truth_filterCondition given]
    exact and_congr_right fun _ => ih later

theorem key_of_mem_conditions (h : f ∈ filters.conditions) :
    f.1 = "visaCode" ∨ f.1 = "jurisdiction" := by
  obtain ⟨⟨key, limit⟩, listed, made⟩ := List.mem_filterMap.1 h
  have same : f.1 = key := by
    cases limit with
    | none => cases made
    | some s =>
      by_cases blank : s.isEmpty = true
      · simp [blank] at made
      · simp only [blank] at made
        cases made
        rfl
  have keys : key = "visaCode" ∧ limit = filters.visaCode ∨
      key = "jurisdiction" ∧ limit = filters.jurisdiction := by
    simpa using listed
  rw [same]
  exact keys.imp And.left And.left

theorem column_rowOf (h : f ∈ filters.conditions) :
    (rowOf c).column (columnOf f.1) = (Entries.get? c.metadata f.1).bind Value.text? := by
  rcases key_of_mem_conditions h with key | key <;> rw [key] <;> rfl

theorem meets_iff : c.meets filters = true ↔
    ∀ f ∈ filters.conditions, (rowOf c).column (columnOf f.1) = some f.2 := by
  rw [Chunk.meets, List.all_eq_true]
  refine forall_congr' fun f => forall_congr' fun h => ?_
  rw [column_rowOf h]
  cases Entries.get? c.metadata f.1 with
  | none => simp
  | some v => cases v <;> simp [Value.text?]

theorem le_iff_atLeast {x y : Number} : y.le x = true ↔ atLeast x y = true ∧ x ≠ .nan := by
  cases x with
  | nan => simp [Number.le_iff]
  | _ => simp [atLeast, Number.isNaN]

theorem selects_whereClause (vector : List Number) (topK minSimilarity : Number) :
    Selects (whereClause filters) (searchParams vector filters topK minSimilarity) row ↔
      atLeast row.similarity minSimilarity = true ∧ ∀ f ∈ filters.conditions,
        row.column (columnOf f.1) = none ∨ row.column (columnOf f.1) = some f.2 := by
  have given : (filters.conditions.map fun f => Value.text f.2) <+:
      (searchParams vector filters topK minSimilarity).drop 2 :=
    ⟨[.number topK], by simp [searchParams]⟩
  rw [Selects, whereClause, List.forall_mem_cons]
  refine and_congr ?_ (selects_filterConditions given)
  simp [Condition.truth, param?, searchParams, Value.number?]

/-- The bench finds those stored chunks that satisfy the conditions of the statement, have a
similarity that is a number, and have something in each column that a filter looks at. The
statement also accepts chunks with nothing there. -/
theorem found_iff_selected_and_marked (b : Bench) (schemaName : String) (vector : List Number)
    (filters : ChunkFilters) (topK minSimilarity : Number) :
    ∃ params, searchStatement schemaName vector filters topK minSimilarity =
        ⟨String.intercalate "\n" (searchLines schemaName ((whereClause filters).map Condition.text)
          params.length), some params⟩ ∧
      ∀ c, c ∈ b.found filters minSimilarity ↔ c ∈ b.chunks ∧
        Selects (whereClause filters) params (rowOf c) ∧ c.similarity ≠ .nan ∧
        ∀ f ∈ filters.conditions, (rowOf c).column (columnOf f.1) ≠ none := by
  refine ⟨searchParams vector filters topK minSimilarity,
    searchStatement_eq schemaName vector filters topK minSimilarity, fun c => ?_⟩
  have similar : (rowOf c).similarity = c.similarity := rfl
  rw [Bench.found, List.mem_filter, Bool.and_eq_true, meets_iff, le_iff_atLeast,
    selects_whereClause, similar]
  constructor
  · rintro ⟨stored, ⟨least, known⟩, met⟩
    refine ⟨stored, ⟨least, fun f hf => .inr (met f hf)⟩, known, fun f hf => ?_⟩
    rw [met f hf]
    exact Option.some_ne_none f.2
  · rintro ⟨stored, ⟨least, met⟩, known, marked⟩
    exact ⟨stored, ⟨least, known⟩, fun f hf => (met f hf).resolve_left (marked f hf)⟩

def unmarked : Chunk := ⟨"c-1", "dv-1", .ofMillis 0, "General rules.", 1, []⟩

theorem unmarked_selected_not_found :
    ∃ (b : Bench) (filters : ChunkFilters) (minSimilarity : Number),
      unmarked ∈ b.chunks ∧
      Selects (whereClause filters) (searchParams [1] filters 5 minSimilarity) (rowOf unmarked) ∧
      unmarked ∉ b.found filters minSimilarity := by
  refine ⟨{ Bench.start .invalid with chunks := [unmarked] }, { visaCode := some "SKW" }, 0,
    List.mem_singleton.2 rfl, ?_, ?_⟩
  · rw [selects_whereClause]
    refine ⟨by decide +kernel, fun f hf => .inl ?_⟩
    rw [column_rowOf hf]
    rfl
  · rw [Bench.found, List.mem_filter, Bool.and_eq_true, meets_iff]
    rintro ⟨-, -, met⟩
    have wanted := met ("visaCode", "SKW") (by decide)
    cases wanted

end VisaEligibility.Vectors
