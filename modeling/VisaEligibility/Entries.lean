/-!
Keyed entries in the order they were first put. Putting a key again keeps its place and replaces
its value, so each key stands once.
-/
set_option autoImplicit false

namespace VisaEligibility.Entries

variable {α : Type}

def get? (entries : List (String × α)) (key : String) : Option α :=
  (entries.find? fun e => e.1 == key).map Prod.snd

def has (entries : List (String × α)) (key : String) : Bool := entries.any fun e => e.1 == key

def put (entries : List (String × α)) (key : String) (value : α) : List (String × α) :=
  match entries with
  | [] => [(key, value)]
  | e :: rest => if e.1 = key then (key, value) :: rest else e :: put rest key value

/-- The entries with those of a second list put after them. -/
def merge (entries more : List (String × α)) : List (String × α) :=
  more.foldl (fun acc e => put acc e.1 e.2) entries

def ofList (pairs : List (String × α)) : List (String × α) := merge [] pairs

def keys (entries : List (String × α)) : List String := entries.map Prod.fst

def modify (entries : List (String × α)) (key : String) (f : α → α) : List (String × α) :=
  entries.map fun e => if e.1 = key then (e.1, f e.2) else e

@[simp] theorem get?_nil (key : String) : get? ([] : List (String × α)) key = none := rfl

theorem get?_put_self (entries : List (String × α)) (key : String) (value : α) :
    get? (put entries key value) key = some value := by
  induction entries with
  | nil => simp [put, get?]
  | cons e rest ih =>
    by_cases h : e.1 = key
    · simp [put, get?, h]
    · simp only [get?] at ih
      simp [put, get?, h, ih]

theorem get?_put_of_ne (entries : List (String × α)) {key other : String} (value : α)
    (h : other ≠ key) : get? (put entries key value) other = get? entries other := by
  induction entries with
  | nil => simp [put, get?, Ne.symm h]
  | cons e rest ih =>
    simp only [get?] at ih
    by_cases hk : e.1 = key
    · simp [put, get?, hk, Ne.symm h]
    · by_cases ho : e.1 = other
      · subst ho
        simp [put, get?, hk]
      · simp [put, get?, hk, ho, ih]

theorem has_put (entries : List (String × α)) (key other : String) (value : α) :
    has (put entries key value) other = (key == other || has entries other) := by
  induction entries with
  | nil => simp [put, has]
  | cons e rest ih =>
    simp only [has] at ih
    by_cases h : e.1 = key
    · simp [put, has, h]
    · simp [put, has, h, ih, Bool.or_left_comm]

end VisaEligibility.Entries
