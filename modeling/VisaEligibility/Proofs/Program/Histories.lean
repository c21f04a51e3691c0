import VisaEligibility.Program.Basic
/-!
What programs do, whatever the replies to their calls. A history lists calls with their replies; a
program reaches another over a history when it makes these calls and, after these replies, that
other program is left. What holds of every history of a program holds of it in every world.
-/
set_option autoImplicit false

namespace VisaEligibility

structure Exchange (I : Interface) where
  call : I.Call
  reply : I.Reply call

abbrev History (I : Interface) := List (Exchange I)

namespace Program

variable {I : Interface} {α β ε σ : Type}

inductive Reaches : Program I α → History I → Program I α → Prop where
  | here (p : Program I α) : Reaches p [] p
  | step {c : I.Call} {k : I.Reply c → Program I α} (r : I.Reply c) {h : History I}
      {q : Program I α} : Reaches (k r) h q → Reaches (call c k) (⟨c, r⟩ :: h) q

def Returns (p : Program I α) (h : History I) (a : α) : Prop := Reaches p h (done a)

def Attempts (p : Program I α) (h : History I) (c : I.Call) : Prop :=
  ∃ k, Reaches p h (call c k)

theorem reaches_done {a : α} {h : History I} {q : Program I α} :
    Reaches (done a) h q ↔ h = [] ∧ q = done a := by
  constructor
  · intro hr
    cases hr
    exact ⟨rfl, rfl⟩
  · rintro ⟨rfl, rfl⟩
    exact .here _

theorem reaches_call {c : I.Call} {k : I.Reply c → Program I α} {h : History I}
    {q : Program I α} :
    Reaches (call c k) h q ↔
      (h = [] ∧ q = call c k) ∨ ∃ r h', h = ⟨c, r⟩ :: h' ∧ Reaches (k r) h' q := by
  constructor
  · intro hr
    cases hr with
    | here => exact .inl ⟨rfl, rfl⟩
    | step r hr => exact .inr ⟨r, _, rfl, hr⟩
  · rintro (⟨rfl, rfl⟩ | ⟨r, h', rfl, hr⟩)
    · exact .here _
    · exact .step r hr

theorem Reaches.trans {p q r : Program I α} {h h' : History I} (hp : Reaches p h q)
    (hq : Reaches q h' r) : Reaches p (h ++ h') r := by
  induction hp with
  | here => exact hq
  | step r _ ih => exact .step r (ih hq)

@[simp] theorem returns_done {a b : α} {h : History I} :
    Returns (done a) h b ↔ h = [] ∧ b = a := by
  simp only [Returns, reaches_done, done.injEq]

theorem returns_call {c : I.Call} {k : I.Reply c → Program I α} {h : History I} {a : α} :
    Returns (call c k) h a ↔ ∃ r h', h = ⟨c, r⟩ :: h' ∧ Returns (k r) h' a := by
  simp [Returns, reaches_call]

@[simp] theorem returns_perform {c : I.Call} {h : History I} {r : I.Reply c} :
    Returns (perform c) h r ↔ h = [⟨c, r⟩] := by
  constructor
  · intro hr
    obtain ⟨r', h', rfl, hd⟩ := returns_call.1 hr
    obtain ⟨rfl, rfl⟩ := returns_done.1 hd
    rfl
  · rintro rfl
    exact .step r (.here _)

theorem returns_bind {p : Program I α} {f : α → Program I β} {h : History I} {b : β} :
    Returns (p.bind f) h b ↔
      ∃ h₁ a h₂, h = h₁ ++ h₂ ∧ Returns p h₁ a ∧ Returns (f a) h₂ b := by
  induction p generalizing h with
  | done a =>
    constructor
    · intro hr
      exact ⟨[], a, h, rfl, .here _, hr⟩
    · rintro ⟨h₁, a', h₂, rfl, hd, hf⟩
      obtain ⟨rfl, rfl⟩ := returns_done.1 hd
      exact hf
  | call c k ih =>
    constructor
    · intro hr
      obtain ⟨r, h', rfl, hb⟩ := returns_call.1 hr
      obtain ⟨h₁, a, h₂, rfl, hk, hf⟩ := (ih r).1 hb
      exact ⟨⟨c, r⟩ :: h₁, a, h₂, rfl, .step r hk, hf⟩
    · rintro ⟨h₁, a, h₂, rfl, hp, hf⟩
      obtain ⟨r, h', rfl, hk⟩ := returns_call.1 hp
      exact .step r ((ih r).2 ⟨h', a, h₂, rfl, hk, hf⟩)

theorem Reaches.attempts {p q : Program I α} {h h' : History I} {x : Exchange I}
    (hr : Reaches p (h ++ x :: h') q) : Attempts p h x.call := by
  induction h generalizing p with
  | nil =>
    cases p with
    | done b => cases (reaches_done.1 hr).1
    | call c k =>
      rcases reaches_call.1 hr with ⟨he, -⟩ | ⟨r, h', he, -⟩
      · cases he
      · cases he
        exact ⟨k, .here _⟩
  | cons e h ih =>
    cases p with
    | done b => cases (reaches_done.1 hr).1
    | call c k =>
      rcases reaches_call.1 hr with ⟨he, -⟩ | ⟨r, h', he, hk⟩
      · cases he
      · cases he
        obtain ⟨k', hr'⟩ := ih hk
        exact ⟨k', .step r hr'⟩

theorem Returns.attempts {p : Program I α} {h h' : History I} {x : Exchange I} {a : α}
    (hr : Returns p (h ++ x :: h') a) : Attempts p h x.call :=
  Reaches.attempts hr

/-- The history of a program whose calls are answered from a state. -/
def record (answer : Answers I σ) : Program I α → σ → History I
  | done _, _ => []
  | call c k, s => ⟨c, (answer c s).1⟩ :: record answer (k (answer c s).1) (answer c s).2

theorem returns_record (answer : Answers I σ) (p : Program I α) (s : σ) :
    Returns p (record answer p s) (eval answer p s).1 := by
  induction p generalizing s with
  | done a => exact .here _
  | call c k ih => exact .step _ (ih _ _)

theorem record_bind (answer : Answers I σ) (p : Program I α) (f : α → Program I β) (s : σ) :
    record answer (p.bind f) s =
      record answer p s ++ record answer (f (eval answer p s).1) (eval answer p s).2 := by
  induction p generalizing s with
  | done a => rfl
  | call c k ih => simp [record, ih]

theorem exists_returns_eval (answer : Answers I σ) (p : Program I α) (s : σ) :
    ∃ h, Returns p h (eval answer p s).1 :=
  ⟨_, returns_record answer p s⟩

theorem exists_returns [∀ c, Nonempty (I.Reply c)] (p : Program I α) : ∃ h a, Returns p h a := by
  induction p with
  | done a => exact ⟨[], a, .here _⟩
  | call c k ih =>
    obtain ⟨r⟩ := (inferInstance : Nonempty (I.Reply c))
    obtain ⟨h, a, hr⟩ := ih r
    exact ⟨⟨c, r⟩ :: h, a, .step r hr⟩

theorem Attempts.exists_returns [∀ c, Nonempty (I.Reply c)] {p : Program I α} {h : History I}
    {c : I.Call} (ha : p.Attempts h c) : ∃ r h' a, Returns p (h ++ ⟨c, r⟩ :: h') a := by
  obtain ⟨k, hr⟩ := ha
  obtain ⟨r⟩ := (inferInstance : Nonempty (I.Reply c))
  obtain ⟨h', a, hk⟩ := Program.exists_returns (k r)
  exact ⟨r, h', a, hr.trans (.step r hk)⟩

/-- The history of a program whose calls are answered by a function, with its value. -/
def trace (answer : (c : I.Call) → I.Reply c) : Program I α → History I × α
  | done a => ([], a)
  | call c k => (⟨c, answer c⟩ :: (trace answer (k (answer c))).1, (trace answer (k (answer c))).2)

theorem returns_trace (answer : (c : I.Call) → I.Reply c) (p : Program I α) :
    Returns p (trace answer p).1 (trace answer p).2 := by
  induction p with
  | done a => exact .here _
  | call c k ih => exact .step _ (ih _)

theorem eq_of_mem_trace {answer : (c : I.Call) → I.Reply c} {p : Program I α} {x : Exchange I}
    (hx : x ∈ (trace answer p).1) : x = ⟨x.call, answer x.call⟩ := by
  induction p with
  | done a => cases hx
  | call c k ih =>
    rcases List.mem_cons.1 hx with rfl | hx
    · rfl
    · exact ih _ hx

def Only (kind : I.Call → Bool) : Program I α → Prop
  | done _ => True
  | call c k => kind c = true ∧ ∀ r, (k r).Only kind

@[simp] theorem only_done (kind : I.Call → Bool) (a : α) :
    (done a : Program I α).Only kind := trivial

@[simp] theorem only_perform {kind : I.Call → Bool} {c : I.Call} :
    (perform c).Only kind ↔ kind c = true := by
  simp [perform, Only]

theorem Only.bind {kind : I.Call → Bool} {p : Program I α} {f : α → Program I β}
    (hp : p.Only kind) (hf : ∀ a, (f a).Only kind) : (p.bind f).Only kind := by
  induction p with
  | done a => exact hf a
  | call c k ih => exact ⟨hp.1, fun r => ih r (hp.2 r)⟩

theorem Only.mono {kind kind' : I.Call → Bool} {p : Program I α} (hp : p.Only kind)
    (hk : ∀ c, kind c = true → kind' c = true) : p.Only kind' := by
  induction p with
  | done a => trivial
  | call c k ih => exact ⟨hk c hp.1, fun r => ih r (hp.2 r)⟩

theorem Only.of_reaches {kind : I.Call → Bool} {p q : Program I α} {h : History I}
    (hp : p.Only kind) (hr : Reaches p h q) : ∀ e ∈ h, kind e.call = true := by
  induction hr with
  | here => simp
  | step r _ ih =>
    intro e he
    rcases List.mem_cons.1 he with rfl | he
    · exact hp.1
    · exact ih (hp.2 r) e he

theorem Only.reached {kind : I.Call → Bool} {p q : Program I α} {h : History I}
    (hp : p.Only kind) (hr : Reaches p h q) : q.Only kind := by
  induction hr with
  | here => exact hp
  | step r _ ih => exact ih (hp.2 r)

end Program

namespace Attempt

open Program

variable {I : Interface} {ε α β : Type}

@[simp] theorem returns_pure {a : α} {h : History I} {x : Except ε α} :
    Returns (pure a : Attempt I ε α).run h x ↔ h = [] ∧ x = .ok a := by
  exact returns_done

theorem returns_bind {p : Attempt I ε α} {f : α → Attempt I ε β} {h : History I}
    {x : Except ε β} :
    Returns (p >>= f).run h x ↔
      (∃ e, x = .error e ∧ Returns p.run h (.error e)) ∨
        ∃ h₁ a h₂, h = h₁ ++ h₂ ∧ Returns p.run h₁ (.ok a) ∧ Returns (f a).run h₂ x := by
  rw [ExceptT.run_bind, bind_eq, Program.returns_bind]
  constructor
  · rintro ⟨h₁, a, h₂, rfl, hp, hf⟩
    cases a with
    | error e =>
      obtain ⟨rfl, rfl⟩ := returns_done.1 hf
      exact .inl ⟨e, rfl, by simpa using hp⟩
    | ok a => exact .inr ⟨h₁, a, h₂, rfl, hp, hf⟩
  · rintro (⟨e, rfl, hp⟩ | ⟨h₁, a, h₂, rfl, hp, hf⟩)
    · exact ⟨h, .error e, [], by simp, hp, returns_done.2 ⟨rfl, rfl⟩⟩
    · exact ⟨h₁, .ok a, h₂, rfl, hp, hf⟩

@[simp] theorem returns_lift {p : Program I α} {h : History I} {x : Except ε α} :
    Returns (ExceptT.lift p : Attempt I ε α).run h x ↔ ∃ a, x = .ok a ∧ Returns p h a := by
  rw [ExceptT.run_lift, map_eq_pure_bind, bind_eq, Program.returns_bind]
  constructor
  · rintro ⟨h₁, a, h₂, rfl, hp, hf⟩
    obtain ⟨rfl, rfl⟩ := returns_done.1 hf
    exact ⟨a, rfl, by simpa using hp⟩
  · rintro ⟨a, rfl, hp⟩
    exact ⟨h, a, [], by simp, hp, returns_done.2 ⟨rfl, rfl⟩⟩

theorem returns_lift_bind {p : Program I α} {f : α → Attempt I ε β} {h : History I}
    {x : Except ε β} :
    Returns (ExceptT.lift p >>= f).run h x ↔
      ∃ h₁ a h₂, h = h₁ ++ h₂ ∧ Returns p h₁ a ∧ Returns (f a).run h₂ x := by
  rw [returns_bind]
  constructor
  · rintro (⟨e, rfl, hp⟩ | ⟨h₁, a, h₂, rfl, hp, hf⟩)
    · obtain ⟨a, ha, -⟩ := returns_lift.1 hp
      cases ha
    · obtain ⟨b, hb, hp⟩ := returns_lift.1 hp
      cases hb
      exact ⟨h₁, a, h₂, rfl, hp, hf⟩
  · rintro ⟨h₁, a, h₂, rfl, hp, hf⟩
    exact .inr ⟨h₁, a, h₂, rfl, returns_lift.2 ⟨a, rfl, hp⟩, hf⟩

theorem only_bind {kind : I.Call → Bool} {p : Attempt I ε α} {f : α → Attempt I ε β}
    (hp : p.run.Only kind) (hf : ∀ a, (f a).run.Only kind) : (p >>= f).run.Only kind := by
  rw [ExceptT.run_bind, bind_eq]
  refine hp.bind fun x => ?_
  cases x with
  | error e => exact only_done _ _
  | ok a => exact hf a

end Attempt
end VisaEligibility
