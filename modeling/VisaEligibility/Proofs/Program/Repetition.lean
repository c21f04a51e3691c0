import VisaEligibility.Proofs.Program.Histories
import VisaEligibility.Program.Retry
/-!
Repeated calls. A repeated program makes only the calls of the program and pauses, and what it
raises in the end can be shown as text, whatever the program raises.
-/
set_option autoImplicit false

namespace VisaEligibility

open Program

theorem Raised.hasText_reported (e : Raised) : e.reported.hasText = true := by
  unfold Raised.reported
  split
  · assumption
  · rfl

theorem Raised.text_of_hasText {e : Raised} (he : e.hasText = true) : e.text = .ok e.message :=
  if_pos he

theorem Raised.text_of_not_hasText {e : Raised} (he : e.hasText = false) :
    e.text = .error .noText := by
  simp [Raised.text, he]

namespace RetryRule

variable {I : Interface} {α : Type} {kind : I.Call → Bool} {pause : Number → Program I Unit}
  {operation : Program I (Except Raised α)}

theorem only_runFrom (r : RetryRule) (hp : ∀ ms, (pause ms).Only kind)
    (ho : operation.Only kind) (attempt : Nat) (last : Option Raised) (left : Nat) :
    (r.runFrom pause operation attempt last left).Only kind := by
  induction left generalizing attempt last with
  | zero => exact only_done _ _
  | succ left ih =>
    refine ho.bind fun x => ?_
    cases x with
    | ok a => exact only_done _ _
    | error e =>
      dsimp only
      split
      · exact only_done _ _
      · exact (hp _).bind fun _ => ih _ _

theorem only_run (r : RetryRule) (hp : ∀ ms, (pause ms).Only kind) (ho : operation.Only kind) :
    (r.run pause operation).Only kind :=
  only_runFrom r hp ho _ _ _

theorem filterMap_of_runFrom {β : Type} {f : Exchange I → Option β} {g : α → Option β}
    (hp : ∀ ms h u, Returns (pause ms) h u → h.filterMap f = [])
    (ho : ∀ h x, Returns operation h x → h.filterMap f = (x.toOption.bind g).toList)
    {r : RetryRule} {h : History I} {attempt left : Nat} {last : Option Raised}
    {x : Except Raised α} (hr : Returns (r.runFrom pause operation attempt last left) h x) :
    h.filterMap f = (x.toOption.bind g).toList := by
  induction left generalizing attempt last h with
  | zero =>
    obtain ⟨rfl, rfl⟩ := returns_done.1 hr
    rfl
  | succ left ih =>
    obtain ⟨h₁, y, h₂, rfl, hy, hd⟩ := returns_bind.1 hr
    have yielded := ho h₁ y hy
    cases y with
    | ok a =>
      obtain ⟨rfl, rfl⟩ := returns_done.1 hd
      simpa using yielded
    | error e =>
      dsimp only at hd
      rw [List.filterMap_append, yielded]
      split at hd
      · obtain ⟨rfl, rfl⟩ := returns_done.1 hd
        rfl
      · obtain ⟨h₃, u, h₄, rfl, hu, hn⟩ := returns_bind.1 hd
        rw [List.filterMap_append, hp _ _ _ hu, ih hn]
        rfl

theorem filterMap_of_run {β : Type} {f : Exchange I → Option β} {g : α → Option β}
    (hp : ∀ ms h u, Returns (pause ms) h u → h.filterMap f = [])
    (ho : ∀ h x, Returns operation h x → h.filterMap f = (x.toOption.bind g).toList)
    {r : RetryRule} {h : History I} {x : Except Raised α}
    (hr : Returns (r.run pause operation) h x) :
    h.filterMap f = (x.toOption.bind g).toList :=
  filterMap_of_runFrom hp ho hr

theorem hasText_lastRaised {last : Option Raised} (hl : ∀ e, last = some e → e.hasText = true) :
    (lastRaised last).hasText = true := by
  cases last with
  | none => rfl
  | some e =>
    cases e with
    | failure f => rfl
    | value v =>
      dsimp only [lastRaised]
      split
      · exact hl _ rfl
      · rfl

theorem hasText_of_runFrom {r : RetryRule} {h : History I} {attempt left : Nat}
    {last : Option Raised} {e : Raised} (hl : ∀ e, last = some e → e.hasText = true)
    (hr : Returns (r.runFrom pause operation attempt last left) h (.error e)) :
    e.hasText = true := by
  -- on the attempts that are left; the last failure so far keeps its text
  induction left generalizing attempt last h with
  | zero =>
    cases (returns_done.1 hr).2
    exact hasText_lastRaised hl
  | succ left ih =>
    obtain ⟨h₁, x, h₂, -, -, hd⟩ := returns_bind.1 hr
    cases x with
    | ok a => cases (returns_done.1 hd).2
    | error e' =>
      dsimp only at hd
      split at hd
      · cases (returns_done.1 hd).2
        exact e'.hasText_reported
      · rename_i hc
        obtain ⟨h₃, u, h₄, -, -, hn⟩ := returns_bind.1 hd
        refine ih (fun e'' he => ?_) hn
        cases he
        simp only [Bool.or_eq_true, Bool.not_eq_true', not_or] at hc
        simpa using hc.1.1

theorem hasText_of_run {r : RetryRule} {h : History I} {e : Raised}
    (hr : Returns (r.run pause operation) h (.error e)) : e.hasText = true :=
  hasText_of_runFrom (fun e he => by cases he) hr

theorem begins_of_run {r : RetryRule} {h : History I} {x : Except Raised α}
    (hr : Returns (r.run pause operation) h x) :
    (r.attempts = 0 ∧ h = [] ∧ ∃ e, x = .error e) ∨
      (r.attempts ≠ 0 ∧ ∃ h₁ y h₂, h = h₁ ++ h₂ ∧ Returns operation h₁ y) := by
  unfold run at hr
  cases ha : r.attempts with
  | zero =>
    rw [ha] at hr
    obtain ⟨rfl, rfl⟩ := returns_done.1 hr
    exact .inl ⟨rfl, rfl, _, rfl⟩
  | succ left =>
    rw [ha] at hr
    obtain ⟨h₁, y, h₂, rfl, hy, -⟩ := returns_bind.1 hr
    exact .inr ⟨nofun, h₁, y, h₂, rfl, hy⟩

theorem ends_of_runFrom {r : RetryRule} {h : History I} {attempt left : Nat}
    {last : Option Raised} {a : α}
    (hr : Returns (r.runFrom pause operation attempt last left) h (.ok a)) :
    ∃ before final, h = before ++ final ∧ Returns operation final (.ok a) := by
  induction left generalizing attempt last h with
  | zero => cases (returns_done.1 hr).2
  | succ left ih =>
    obtain ⟨h₁, y, h₂, rfl, hy, hd⟩ := returns_bind.1 hr
    cases y with
    | ok b =>
      obtain ⟨rfl, hb⟩ := returns_done.1 hd
      cases hb
      exact ⟨[], h₁, List.append_nil _, hy⟩
    | error e =>
      dsimp only at hd
      split at hd
      · cases (returns_done.1 hd).2
      · obtain ⟨h₃, u, h₄, rfl, -, hn⟩ := returns_bind.1 hd
        obtain ⟨before, final, rfl, hf⟩ := ih hn
        exact ⟨h₁ ++ (h₃ ++ before), final, by simp only [List.append_assoc], hf⟩

theorem ends_of_run {r : RetryRule} {h : History I} {a : α}
    (hr : Returns (r.run pause operation) h (.ok a)) :
    ∃ before final, h = before ++ final ∧ Returns operation final (.ok a) :=
  ends_of_runFrom hr

end RetryRule
end VisaEligibility
