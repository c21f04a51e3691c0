import Mathlib.Data.List.Forall2
import VisaEligibility.Proofs.Program.Histories
/-!
Programs in step. Two programs are coupled when they make corresponding calls as long as the replies
correspond, and end with corresponding values then. So two histories that correspond, exchange by
exchange, lead to corresponding values.
-/
set_option autoImplicit false

namespace VisaEligibility

/-- Both succeed or both fail, with values or errors that correspond. -/
inductive Matching {ε ε' α β : Type} (E : ε → ε' → Prop) (R : α → β → Prop) :
    Except ε α → Except ε' β → Prop where
  | ok {a : α} {b : β} (related : R a b) : Matching E R (.ok a) (.ok b)
  | error {e : ε} {e' : ε'} (related : E e e') : Matching E R (.error e) (.error e')

theorem Matching.refl {ε α : Type} (x : Except ε α) : Matching Eq Eq x x := by
  cases x with
  | ok a => exact .ok rfl
  | error e => exact .error rfl

theorem Matching.eq {ε α : Type} {x y : Except ε α} (h : Matching Eq Eq x y) : x = y := by
  cases h with
  | ok related => rw [related]
  | error related => rw [related]

namespace Program

variable {I : Interface} {α β γ δ : Type} {A : I.Call → I.Call → Prop}
  {S : Exchange I → Exchange I → Prop} {R : α → β → Prop} {T : γ → δ → Prop}

/-- Programs whose calls correspond under `A` and whose values correspond under `R`, where the
exchanges do under `S`. -/
inductive Coupled (A : I.Call → I.Call → Prop) (S : Exchange I → Exchange I → Prop)
    (R : α → β → Prop) : Program I α → Program I β → Prop where
  | done {a : α} {b : β} (related : R a b) : Coupled A S R (done a) (done b)
  | call {c d : I.Call} {k : I.Reply c → Program I α} {l : I.Reply d → Program I β}
      (alike : A c d) (next : ∀ r t, S ⟨c, r⟩ ⟨d, t⟩ → Coupled A S R (k r) (l t)) :
      Coupled A S R (call c k) (call d l)

namespace Coupled

theorem bind {p : Program I α} {q : Program I β} {f : α → Program I γ} {g : β → Program I δ}
    (hp : Coupled A S R p q) (hf : ∀ a b, R a b → Coupled A S T (f a) (g b)) :
    Coupled A S T (p.bind f) (q.bind g) := by
  induction hp with
  | done related => exact hf _ _ related
  | call alike _ ih => exact .call alike ih

theorem mono {R' : α → β → Prop} {p : Program I α} {q : Program I β} (hp : Coupled A S R p q)
    (hr : ∀ a b, R a b → R' a b) : Coupled A S R' p q := by
  induction hp with
  | done related => exact .done (hr _ _ related)
  | call alike _ ih => exact .call alike ih

theorem perform {c d : I.Call} {R : I.Reply c → I.Reply d → Prop} (alike : A c d)
    (hr : ∀ r t, S ⟨c, r⟩ ⟨d, t⟩ → R r t) :
    Coupled A S R (Program.perform c) (Program.perform d) :=
  .call alike fun r t hs => .done (hr r t hs)

theorem related {p : Program I α} {q : Program I β} {h h' : History I} {a : α} {b : β}
    (hc : Coupled A S R p q) (hp : Returns p h a) (hq : Returns q h' b)
    (alike : List.Forall₂ S h h') : R a b := by
  induction hc generalizing h h' with
  | done related =>
    obtain ⟨-, rfl⟩ := returns_done.1 hp
    obtain ⟨-, rfl⟩ := returns_done.1 hq
    exact related
  | call _ _ ih =>
    obtain ⟨r, h₁, rfl, hk⟩ := returns_call.1 hp
    obtain ⟨t, h₂, rfl, hl⟩ := returns_call.1 hq
    cases alike with
    | cons first rest => exact ih r t first hk hl rest

/-- In worlds that answer corresponding calls alike, coupled programs return values that
correspond. -/
theorem agree {p : Program I α} {q : Program I β} {h h' : History I} {a : α} {b : β}
    (hc : Coupled A S R p q) (hp : Returns p h a) (hq : Returns q h' b)
    (answered : ∀ x ∈ h, ∀ y ∈ h', A x.call y.call → S x y) : R a b := by
  induction hc generalizing h h' with
  | done related =>
    obtain ⟨-, rfl⟩ := returns_done.1 hp
    obtain ⟨-, rfl⟩ := returns_done.1 hq
    exact related
  | call alike _ ih =>
    obtain ⟨r, h₁, rfl, hk⟩ := returns_call.1 hp
    obtain ⟨t, h₂, rfl, hl⟩ := returns_call.1 hq
    have first := answered ⟨_, r⟩ List.mem_cons_self ⟨_, t⟩ List.mem_cons_self alike
    refine ih r t first hk hl fun x hx y hy => ?_
    exact answered x (List.mem_cons_of_mem _ hx) y (List.mem_cons_of_mem _ hy)

theorem trace_alike {p : Program I α} {q : Program I β} {f g : (c : I.Call) → I.Reply c}
    (hc : Coupled A S R p q) (answered : ∀ c d, A c d → S ⟨c, f c⟩ ⟨d, g d⟩) :
    List.Forall₂ S (trace f p).1 (trace g q).1 := by
  induction hc with
  | done related => exact .nil
  | call alike _ ih =>
    have first := answered _ _ alike
    exact .cons first (ih _ _ first)

end Coupled

theorem Only.coupled {kind : I.Call → Bool} {p : Program I α} (hp : p.Only kind)
    (alike : ∀ c, kind c = true → A c c)
    (same : ∀ c r t, kind c = true → S ⟨c, r⟩ ⟨c, t⟩ → r = t) : Coupled A S Eq p p := by
  induction p with
  | done a => exact .done rfl
  | call c k ih =>
    refine .call (alike c hp.1) fun r t hs => ?_
    cases same c r t hp.1 hs
    exact ih r (hp.2 r)

end Program

namespace Attempt

open Program

variable {I : Interface} {ε ε' α β γ δ : Type} {A : I.Call → I.Call → Prop}
  {S : Exchange I → Exchange I → Prop} {E : ε → ε' → Prop} {R : α → β → Prop} {T : γ → δ → Prop}

theorem coupled_pure {a : α} {b : β} (related : R a b) :
    Coupled A S (Matching E R) (pure a : Attempt I ε α).run (pure b : Attempt I ε' β).run :=
  .done (.ok related)

theorem coupled_lift {p : Program I α} {q : Program I β} (hp : Coupled A S R p q) :
    Coupled A S (Matching E R) (ExceptT.lift p : Attempt I ε α).run
      (ExceptT.lift q : Attempt I ε' β).run := by
  rw [ExceptT.run_lift, map_eq_pure_bind, bind_eq, ExceptT.run_lift, map_eq_pure_bind, bind_eq]
  exact hp.bind fun a b related => .done (.ok related)

theorem coupled_bind {p : Attempt I ε α} {q : Attempt I ε' β} {f : α → Attempt I ε γ}
    {g : β → Attempt I ε' δ} (hp : Coupled A S (Matching E R) p.run q.run)
    (hf : ∀ a b, R a b → Coupled A S (Matching E T) (f a).run (g b).run) :
    Coupled A S (Matching E T) (p >>= f).run (q >>= g).run := by
  rw [ExceptT.run_bind, bind_eq, ExceptT.run_bind, bind_eq]
  refine hp.bind fun x y hx => ?_
  cases hx with
  | ok related => exact hf _ _ related
  | error related => exact .done (.error related)

end Attempt
end VisaEligibility
