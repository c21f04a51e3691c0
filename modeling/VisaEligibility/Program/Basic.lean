/-!
Programs that make calls. A program is either done or makes one call and goes on with the reply;
what a call does is left to whoever runs it. Evaluation threads a state through the calls in order.
-/
set_option autoImplicit false

namespace VisaEligibility

/-- The calls a program can make, with the type of the reply to each. -/
structure Interface where
  Call : Type
  Reply : Call → Type

inductive Program (I : Interface) (α : Type) where
  | done (value : α)
  | call (c : I.Call) (resume : I.Reply c → Program I α)

/-- A way to answer every call from a state. -/
abbrev Answers (I : Interface) (σ : Type) := (c : I.Call) → σ → I.Reply c × σ

namespace Program

variable {I : Interface} {α β γ σ : Type}

def bind : Program I α → (α → Program I β) → Program I β
  | done a, f => f a
  | call c k, f => call c fun r => (k r).bind f

instance : Monad (Program I) where
  pure := done
  bind := bind

def perform (c : I.Call) : Program I (I.Reply c) := call c done

def eval (answer : Answers I σ) : Program I α → σ → α × σ
  | done a, s => (a, s)
  | call c k, s =>
    let r := answer c s
    eval answer (k r.1) r.2

@[simp] theorem pure_eq (a : α) : (pure a : Program I α) = done a := rfl

@[simp] theorem bind_eq (p : Program I α) (f : α → Program I β) : p >>= f = p.bind f := rfl

@[simp] theorem done_bind (a : α) (f : α → Program I β) : (done a).bind f = f a := rfl

@[simp] theorem call_bind (c : I.Call) (k : I.Reply c → Program I α) (f : α → Program I β) :
    (call c k).bind f = call c fun r => (k r).bind f := rfl

@[simp] theorem bind_done (p : Program I α) : p.bind done = p := by
  induction p with
  | done a => rfl
  | call c k ih => simp [ih]

theorem bind_assoc (p : Program I α) (f : α → Program I β) (g : β → Program I γ) :
    (p.bind f).bind g = p.bind fun a => (f a).bind g := by
  induction p with
  | done a => rfl
  | call c k ih => simp [ih]

instance : LawfulMonad (Program I) :=
  LawfulMonad.mk' _ (fun p => bind_done p) (fun _ _ => rfl) bind_assoc

@[simp] theorem eval_done (answer : Answers I σ) (a : α) (s : σ) :
    eval answer (done a) s = (a, s) := rfl

@[simp] theorem eval_call (answer : Answers I σ) (c : I.Call) (k : I.Reply c → Program I α)
    (s : σ) : eval answer (call c k) s = eval answer (k (answer c s).1) (answer c s).2 := rfl

theorem eval_bind (answer : Answers I σ) (p : Program I α) (f : α → Program I β) (s : σ) :
    eval answer (p.bind f) s = eval answer (f (eval answer p s).1) (eval answer p s).2 := by
  induction p generalizing s with
  | done a => rfl
  | call c k ih => simp [ih]

end Program

abbrev Attempt (I : Interface) (ε : Type) := ExceptT ε (Program I)

end VisaEligibility
