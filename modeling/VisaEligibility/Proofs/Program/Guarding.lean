import VisaEligibility.Proofs.Program.Histories
/-!
What programs may attempt. A program is guarded when each call it attempts is allowed after the
exchanges before it; this holds of every history of the program, ended or not.
-/
set_option autoImplicit false

namespace VisaEligibility

namespace Program

variable {I : Interface} {α β : Type} {P : History I → I.Call → Prop} {before : History I}

/-- Every call that the program attempts after some exchanges is allowed after them. -/
def Guarded (P : History I → I.Call → Prop) (before : History I) (p : Program I α) : Prop :=
  ∀ h c, Attempts p h c → P (before ++ h) c

@[simp] theorem guarded_done (a : α) : Guarded P before (done a : Program I α) := by
  rintro h c ⟨k, hr⟩
  cases (reaches_done.1 hr).2

theorem guarded_call {c : I.Call} {k : I.Reply c → Program I α} :
    Guarded P before (call c k) ↔ P before c ∧ ∀ r, Guarded P (before ++ [⟨c, r⟩]) (k r) := by
  constructor
  · intro hg
    refine ⟨?_, ?_⟩
    · simpa using hg [] c ⟨k, .here _⟩
    · rintro r h d ⟨l, hr⟩
      simpa using hg (⟨c, r⟩ :: h) d ⟨l, .step r hr⟩
  · rintro ⟨hc, hk⟩ h d ⟨l, hr⟩
    rcases reaches_call.1 hr with ⟨rfl, he⟩ | ⟨r, h', rfl, hn⟩
    · cases he
      simpa using hc
    · simpa using hk r h' d ⟨l, hn⟩

@[simp] theorem guarded_perform {c : I.Call} :
    Guarded P before (perform c) ↔ P before c := by
  simp [perform, guarded_call]

theorem Guarded.bind {p : Program I α} {f : α → Program I β} (hp : Guarded P before p)
    (hf : ∀ h a, Returns p h a → Guarded P (before ++ h) (f a)) :
    Guarded P before (p.bind f) := by
  induction p generalizing before with
  | done a => simpa using hf [] a (.here _)
  | call c k ih =>
    obtain ⟨hc, hk⟩ := guarded_call.1 hp
    refine guarded_call.2 ⟨hc, fun r => ih r (hk r) ?_⟩
    intro h a hr
    simpa using hf (⟨c, r⟩ :: h) a (.step r hr)

theorem Only.guarded {kind : I.Call → Bool} {p : Program I α} (hp : p.Only kind)
    (hk : ∀ h c, (∀ x ∈ h, kind x.call = true) → kind c = true → P (before ++ h) c) :
    Guarded P before p := by
  rintro h c ⟨k, hr⟩
  exact hk h c (hp.of_reaches hr) (hp.reached hr).1

theorem Guarded.mono {Q : History I → I.Call → Prop} {after : History I} {p : Program I α}
    (hg : Guarded P before p) (hq : ∀ h c, P (before ++ h) c → Q (after ++ h) c) :
    Guarded Q after p :=
  fun h c ha => hq h c (hg h c ha)

theorem Guarded.allowed {p q : Program I α} {h h' : History I} {x : Exchange I}
    (hg : Guarded P [] p) (hr : Reaches p (h ++ x :: h') q) : P h x.call :=
  hg h x.call hr.attempts

end Program

namespace Attempt

open Program

variable {I : Interface} {ε α β : Type} {P : History I → I.Call → Prop} {before : History I}

theorem guarded_bind {p : Attempt I ε α} {f : α → Attempt I ε β} (hp : Guarded P before p.run)
    (hf : ∀ h a, Returns p.run h (.ok a) → Guarded P (before ++ h) (f a).run) :
    Guarded P before (p >>= f).run := by
  rw [ExceptT.run_bind, bind_eq]
  refine hp.bind fun h x hr => ?_
  cases x with
  | error e => exact guarded_done _
  | ok a => exact hf h a hr

theorem guarded_lift {p : Program I α} (hp : Guarded P before p) :
    Guarded P before (ExceptT.lift p : Attempt I ε α).run := by
  rw [ExceptT.run_lift, map_eq_pure_bind, bind_eq]
  exact hp.bind fun h a _ => guarded_done _

end Attempt
end VisaEligibility
