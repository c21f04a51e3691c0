import VisaEligibility.Expression.Reading
import VisaEligibility.Proofs.Expression.Extent
/-!
What reads as an expression. A raw tree reads as one exactly when its fields spell it, and the raw
tree of a well-formed expression reads as that expression.
-/
set_option autoImplicit false

namespace VisaEligibility

theorem Comparison.ofName?_eq_some {s : String} {c : Comparison} :
    Comparison.ofName? s = some c ↔ s = c.name := by
  constructor
  · intro found
    have named := List.find?_some found
    exact (eq_of_beq named).symm
  · rintro rfl
    cases c <;> rfl

namespace Expression

/-- What the fields of a raw tree that reads as an expression hold, one level down. -/
inductive Spells (raw : Value) : Expression → Prop where
  | var {n : String} {t : Option ScalarKind} (op : raw.field "op" = .text "var")
      (name : raw.field "name" = .text n) (named : n ≠ "")
      (type : readType (raw.field "type") = .ok t) : Spells raw (var n t)
  | literal {v : Scalar} (op : raw.field "op" = .text "literal")
      (value : raw.field "value" = v.toValue) (storable : v.isStorable = true) :
      Spells raw (literal v)
  | compare {c : Comparison} {l r : Expression} (op : raw.field "op" = .text "compare")
      (operator : raw.field "operator" = .text c.name) (left : read (raw.field "left") = .ok l)
      (right : read (raw.field "right") = .ok r) : Spells raw (compare c l r)
  | and {vs : List Value} {es : List Expression} (op : raw.field "op" = .text "and")
      (operands : raw.field "operands" = .list vs) (some : es ≠ [])
      (each : List.Forall₂ (fun v e => read v = .ok e) vs es) : Spells raw (and es)
  | or {vs : List Value} {es : List Expression} (op : raw.field "op" = .text "or")
      (operands : raw.field "operands" = .list vs) (some : es ≠ [])
      (each : List.Forall₂ (fun v e => read v = .ok e) vs es) : Spells raw (or es)
  | not {e : Expression} (op : raw.field "op" = .text "not")
      (operand : read (raw.field "operand") = .ok e) : Spells raw (not e)
  | member {e : Expression} {os : List Scalar} (op : raw.field "op" = .text "in")
      (value : read (raw.field "value") = .ok e)
      (options : raw.field "options" = .list (os.map Scalar.toValue))
      (storable : ∀ o ∈ os, o.isStorable = true) : Spells raw (member e os)

variable {raw : Value} {e : Expression} {es : List Expression} {vs : List Value}

theorem mapError_eq_ok {ε ε' α : Type} {f : ε → ε'} {x : Except ε α} {a : α} :
    x.mapError f = .ok a ↔ x = .ok a := by
  cases x <;> simp [Except.mapError]

theorem within_eq_ok {α : Type} {key : String} {x : Except Issue α} {a : α} :
    within key x = .ok a ↔ x = .ok a := mapError_eq_ok

theorem bind_eq_ok {ε α β : Type} {x : Except ε α} {f : α → Except ε β} {b : β} :
    (x >>= f) = .ok b ↔ ∃ a, x = .ok a ∧ f a = .ok b := by
  cases x <;> simp [bind, Except.bind]

theorem readName_eq_ok {v : Value} {n : String} :
    readName v = .ok n ↔ v = .text n ∧ n ≠ "" := by
  cases v with
  | text s =>
    by_cases blank : s = ""
    · subst blank
      constructor
      · intro read
        cases read
      · rintro ⟨same, named⟩
        cases same
        exact absurd rfl named
    · have written : s.isEmpty = false := by simpa using blank
      simp only [readName, written, Bool.false_eq_true, if_false, Except.ok.injEq,
        Value.text.injEq]
      exact ⟨fun same => ⟨same, same ▸ blank⟩, And.left⟩
  | _ => simp [readName]

theorem readScalar_eq_ok {v : Value} {s : Scalar} :
    readScalar v = .ok s ↔ v = s.toValue ∧ s.isStorable = true := by
  unfold readScalar
  constructor
  · intro h
    cases checked : Scalar.check v with
    | ok s' =>
      rw [checked] at h
      cases h
      exact Scalar.eq_toValue_of_check checked
    | error r => simp [checked] at h
  · rintro ⟨rfl, storable⟩
    rw [Scalar.check_toValue s storable]

theorem readScalars_eq_ok {i : Nat} {vs : List Value} {ss : List Scalar} :
    readScalars i vs = .ok ss ↔ vs = ss.map Scalar.toValue ∧ ∀ s ∈ ss, s.isStorable = true := by
  induction vs generalizing i ss with
  | nil => cases ss <;> simp [readScalars]
  | cons v vs ih =>
    have step : readScalars i (v :: vs) = .ok ss ↔ ∃ s, (v = s.toValue ∧ s.isStorable = true) ∧
        ∃ rest, (vs = rest.map Scalar.toValue ∧ ∀ s ∈ rest, s.isStorable = true) ∧
          s :: rest = ss := by
      simp only [readScalars, bind_eq_ok, mapError_eq_ok, readScalar_eq_ok, ih, Except.ok.injEq]
    rw [step]
    constructor
    · rintro ⟨s, ⟨rfl, hs⟩, rest, ⟨rfl, hrest⟩, rfl⟩
      exact ⟨rfl, List.forall_mem_cons.2 ⟨hs, hrest⟩⟩
    · intro ⟨spelled, storable⟩
      cases ss with
      | nil => cases spelled
      | cons s rest =>
        obtain ⟨hs, hrest⟩ := List.forall_mem_cons.1 storable
        obtain ⟨hv, hvs⟩ := List.cons.inj spelled
        exact ⟨s, ⟨hv, hs⟩, rest, ⟨hvs, hrest⟩, rfl⟩

theorem readOptions_eq_ok {v : Value} {os : List Scalar} : readOptions v = .ok os ↔
    v = .list (os.map Scalar.toValue) ∧ ∀ o ∈ os, o.isStorable = true := by
  unfold readOptions
  split
  · rw [readScalars_eq_ok, Value.list.injEq]
  · rename_i other
    simp only [reduceCtorEq, false_iff]
    rintro ⟨rfl, -⟩
    exact other _ rfl

theorem readAll_eq_ok {i : Nat} :
    readAll i vs = .ok es ↔ List.Forall₂ (fun v e => read v = .ok e) vs es := by
  induction vs generalizing i es with
  | nil => cases es <;> simp [readAll]
  | cons v vs ih =>
    rw [readAll, bind_eq_ok]
    simp only [bind_eq_ok, ih, within_eq_ok]
    cases es <;> simp

theorem readOperands_eq_ok {v : Value} : readOperands v = .ok es ↔
    ∃ vs, v = .list vs ∧ es ≠ [] ∧ List.Forall₂ (fun v e => read v = .ok e) vs es := by
  cases v with
  | list vs =>
    cases vs with
    | nil => simp [readOperands]
    | cons v vs =>
      rw [readOperands, readAll_eq_ok]
      constructor
      · intro each
        refine ⟨_, rfl, ?_, each⟩
        rintro rfl
        cases each
      · rintro ⟨_, same, -, each⟩
        cases same
        exact each
  | _ => simp [readOperands]

theorem readComparison_eq_ok {c : Comparison} {v : Value} :
    readChoice Comparison.ofName? (Comparison.all.map Comparison.name) v = .ok c ↔
      v = .text c.name := by
  cases v with
  | text s =>
    rw [Value.text.injEq, ← Comparison.ofName?_eq_some, readChoice]
    cases Comparison.ofName? s <;> simp
  | _ => simp [readChoice]

theorem spells_of_read (h : read raw = .ok e) : Spells raw e := by
  unfold read at h
  split at h
  · rename_i fields
    dsimp only at h
    split at h
    · rename_i op
      simp only [bind_eq_ok, within_eq_ok, readName_eq_ok, Except.ok.injEq] at h
      obtain ⟨n, ⟨name, named⟩, t, type, rfl⟩ := h
      exact .var op name named type
    · rename_i op
      simp only [bind_eq_ok, within_eq_ok, readScalar_eq_ok, Except.ok.injEq] at h
      obtain ⟨v, ⟨value, storable⟩, rfl⟩ := h
      exact .literal op value storable
    · rename_i op
      simp only [bind_eq_ok, within_eq_ok, readComparison_eq_ok, Except.ok.injEq] at h
      obtain ⟨c, operator, l, left, r, right, rfl⟩ := h
      exact .compare op operator left right
    · rename_i op
      simp only [bind_eq_ok, within_eq_ok, readOperands_eq_ok, Except.ok.injEq] at h
      obtain ⟨es, ⟨vs, operands, some, each⟩, rfl⟩ := h
      exact .and op operands some each
    · rename_i op
      simp only [bind_eq_ok, within_eq_ok, readOperands_eq_ok, Except.ok.injEq] at h
      obtain ⟨es, ⟨vs, operands, some, each⟩, rfl⟩ := h
      exact .or op operands some each
    · rename_i op
      simp only [bind_eq_ok, within_eq_ok, Except.ok.injEq] at h
      obtain ⟨e, operand, rfl⟩ := h
      exact .not op operand
    · rename_i op
      simp only [bind_eq_ok, within_eq_ok, readOptions_eq_ok, Except.ok.injEq] at h
      obtain ⟨e, value, os, ⟨options, storable⟩, rfl⟩ := h
      exact .member op value options storable
    · cases h
  · cases h

theorem read_of_spells (h : Spells raw e) : read raw = .ok e := by
  have record : ∃ fields, raw = .record fields := by
    cases raw with
    | record fields => exact ⟨fields, rfl⟩
    | _ => cases h <;> contradiction
  obtain ⟨fields, rfl⟩ := record
  cases h with
  | var op name named type =>
    simp only [read, op, bind_eq_ok, within_eq_ok, readName_eq_ok, Except.ok.injEq]
    exact ⟨_, ⟨name, named⟩, _, type, rfl⟩
  | literal op value storable =>
    simp only [read, op, bind_eq_ok, within_eq_ok, readScalar_eq_ok, Except.ok.injEq]
    exact ⟨_, ⟨value, storable⟩, rfl⟩
  | compare op operator left right =>
    simp only [read, op, bind_eq_ok, within_eq_ok, readComparison_eq_ok, Except.ok.injEq]
    exact ⟨_, operator, _, left, _, right, rfl⟩
  | and op operands some each =>
    simp only [read, op, bind_eq_ok, within_eq_ok, readOperands_eq_ok, Except.ok.injEq]
    exact ⟨_, ⟨_, operands, some, each⟩, rfl⟩
  | or op operands some each =>
    simp only [read, op, bind_eq_ok, within_eq_ok, readOperands_eq_ok, Except.ok.injEq]
    exact ⟨_, ⟨_, operands, some, each⟩, rfl⟩
  | not op operand =>
    simp only [read, op, bind_eq_ok, within_eq_ok, Except.ok.injEq]
    exact ⟨_, operand, rfl⟩
  | member op value options storable =>
    simp only [read, op, bind_eq_ok, within_eq_ok, readOptions_eq_ok, Except.ok.injEq]
    exact ⟨_, value, _, ⟨options, storable⟩, rfl⟩

theorem read_eq_ok : read raw = .ok e ↔ Spells raw e := ⟨spells_of_read, read_of_spells⟩

theorem readType_field (n : String) (t : Option ScalarKind) :
    readType ((var n t).toValue.field "type") = .ok t := by
  cases t with
  | none => rfl
  | some k => cases k <;> rfl

theorem forall₂_toValues (h : ∀ e ∈ es, read e.toValue = .ok e) :
    List.Forall₂ (fun v e => read v = .ok e) (toValues es) es := by
  induction es with
  | nil => exact .nil
  | cons e es ih =>
    obtain ⟨he, hes⟩ := List.forall_mem_cons.1 h
    exact .cons he (ih hes)

/-- The raw tree of a well-formed expression reads as that expression. -/
theorem read_toValue (e : Expression) (h : e.IsWellFormed) : read e.toValue = .ok e := by
  induction e using induct with
  | var n t =>
    have named : n ≠ "" := h (var n t) (by simp)
    exact read_eq_ok.2 (.var rfl rfl named (readType_field n t))
  | literal v =>
    have storable : v.isStorable = true := h (literal v) (by simp)
    exact read_eq_ok.2 (.literal rfl rfl storable)
  | compare c l r ihl ihr =>
    obtain ⟨hl, hr⟩ := isWellFormed_compare.1 h
    exact read_eq_ok.2 (.compare rfl rfl (ihl hl) (ihr hr))
  | and es ih =>
    obtain ⟨some, hes⟩ := isWellFormed_and.1 h
    exact read_eq_ok.2 (.and rfl rfl some (forall₂_toValues fun e he => ih e he (hes e he)))
  | or es ih =>
    obtain ⟨some, hes⟩ := isWellFormed_or.1 h
    exact read_eq_ok.2 (.or rfl rfl some (forall₂_toValues fun e he => ih e he (hes e he)))
  | not e ih => exact read_eq_ok.2 (.not rfl (ih (isWellFormed_not.1 h)))
  | member e os ih =>
    obtain ⟨storable, he⟩ := isWellFormed_member.1 h
    exact read_eq_ok.2 (.member rfl (ih he) rfl storable)

end Expression
end VisaEligibility
