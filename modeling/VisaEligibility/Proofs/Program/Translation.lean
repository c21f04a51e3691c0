import VisaEligibility.Proofs.Program.Histories
/-!
Programs whose calls are carried out by programs over another interface. The histories of such a
program are those of the original with every exchange replaced by a history of the program that
carries it out.
-/
set_option autoImplicit false

namespace VisaEligibility

def Interface.sum (I J : Interface) : Interface := ⟨I.Call ⊕ J.Call, Sum.elim I.Reply J.Reply⟩

def Exchange.second {I J : Interface} (x : Exchange J) : Exchange (I.sum J) :=
  ⟨.inr x.call, x.reply⟩

namespace Program

variable {I J : Interface} {α : Type}

/-- The program with each of its calls carried out by another program. -/
def translate (handler : (c : I.Call) → Program J (I.Reply c)) : Program I α → Program J α
  | done a => done a
  | call c k => (handler c).bind fun r => (k r).translate handler

/-- A history with every exchange replaced by a history that carries it out. -/
inductive Expands (handler : (c : I.Call) → Program J (I.Reply c)) :
    History I → History J → Prop where
  | nil : Expands handler [] []
  | cons {c : I.Call} {r : I.Reply c} {h : History I} {h₁ h' : History J}
      (first : Returns (handler c) h₁ r) (rest : Expands handler h h') :
      Expands handler (⟨c, r⟩ :: h) (h₁ ++ h')

theorem Expands.split {handler : (c : I.Call) → Program J (I.Reply c)} {h₁ h₂ : History I}
    {h : History J} (he : Expands handler (h₁ ++ h₂) h) :
    ∃ h₁' h₂', h = h₁' ++ h₂' ∧ Expands handler h₁ h₁' ∧ Expands handler h₂ h₂' := by
  induction h₁ generalizing h with
  | nil => exact ⟨[], h, rfl, .nil, he⟩
  | cons x h₁ ih =>
    cases he with
    | cons first rest =>
      obtain ⟨h₁', h₂', rfl, he₁, he₂⟩ := ih rest
      exact ⟨_ ++ h₁', h₂', (List.append_assoc _ _ _).symm, .cons first he₁, he₂⟩

theorem returns_translate {handler : (c : I.Call) → Program J (I.Reply c)} {p : Program I α}
    {h : History J} {a : α} :
    Returns (p.translate handler) h a ↔ ∃ h₀, Returns p h₀ a ∧ Expands handler h₀ h := by
  induction p generalizing h with
  | done b =>
    constructor
    · intro hr
      obtain ⟨rfl, rfl⟩ := returns_done.1 hr
      exact ⟨[], .here _, .nil⟩
    · rintro ⟨h₀, hr, he⟩
      obtain ⟨rfl, rfl⟩ := returns_done.1 hr
      cases he
      exact .here _
  | call c k ih =>
    refine returns_bind.trans ?_
    constructor
    · rintro ⟨h₁, r, h₂, rfl, first, hr⟩
      obtain ⟨h₀, hk, rest⟩ := (ih r).1 hr
      exact ⟨⟨c, r⟩ :: h₀, .step r hk, .cons first rest⟩
    · rintro ⟨h₀, hr, he⟩
      obtain ⟨r, h', rfl, hk⟩ := returns_call.1 hr
      cases he with
      | cons first rest => exact ⟨_, r, _, rfl, first, (ih r).2 ⟨h', hk, rest⟩⟩

def second (p : Program J α) : Program (I.sum J) α :=
  p.translate fun c => perform (I := I.sum J) (.inr c)

theorem returns_second {p : Program J α} {h : History (I.sum J)} {a : α} :
    Returns (second p) h a ↔ ∃ h₀, Returns p h₀ a ∧ h = h₀.map Exchange.second := by
  refine returns_translate.trans ?_
  have expands (h₀ : History J) : Expands (fun c => perform (I := I.sum J) (.inr c)) h₀ h ↔
      h = h₀.map Exchange.second := by
    induction h₀ generalizing h with
    | nil =>
      constructor
      · intro he
        cases he
        rfl
      · rintro rfl
        exact .nil
    | cons x h₀ ih =>
      constructor
      · intro he
        cases he with
        | cons first rest =>
          obtain rfl := returns_perform.1 first
          rw [ih.1 rest]
          rfl
      · rintro rfl
        have first : Returns (perform (I := I.sum J) (.inr x.call)) [x.second] x.reply :=
          returns_perform.2 rfl
        exact .cons first (ih.2 rfl)
  simp only [expands]

end Program
end VisaEligibility
