import VisaEligibility.Proofs.Check.Phases
/-!
The course of a check: its parts one after another up to the first that fails, and then the count of
the failure.
-/
set_option autoImplicit false

namespace VisaEligibility.Check

open Program

variable {s : EngineSettings} {r : CheckRequest} {facts : Facts} {asOf : Instant}
  {h : History Call.interface}

def failureCount : Exchange Call.interface := ⟨.count (.check "none" "failed"), ()⟩

/-- The course of a check over the facts of its case, up to the step at which it fails or to its
end. -/
inductive Course (s : EngineSettings) (r : CheckRequest) (facts : Facts) :
    History Call.interface → Except Raised CheckReport → Prop where
  | undecided {h₁ h₂ : History Call.interface} {asOf : Instant} {e : Raised}
      (dated : Returns (evaluationDate r) h₁ asOf)
      (failed : Returns (decision s r facts asOf).run h₂ (.error e)) :
      Course s r facts (h₁ ++ h₂ ++ [failureCount]) (.error e.reported)
  | unstored {h₁ h₂ h₃ : History Call.interface} {asOf : Instant} {d : Decision} {e : Raised}
      (dated : Returns (evaluationDate r) h₁ asOf)
      (decided : Returns (decision s r facts asOf).run h₂ (.ok d))
      (failed : Returns (store s r d).run h₃ (.error e)) :
      Course s r facts (h₁ ++ h₂ ++ h₃ ++ [failureCount]) (.error e.reported)
  | untold {h₁ h₂ h₃ h₄ : History Call.interface} {asOf : Instant} {d : Decision} {x : Stored}
      {e : Raised} (dated : Returns (evaluationDate r) h₁ asOf)
      (decided : Returns (decision s r facts asOf).run h₂ (.ok d))
      (stored : Returns (store s r d).run h₃ (.ok x))
      (failed : Returns (conclude s r d x).run h₄ (.error e)) :
      Course s r facts (h₁ ++ h₂ ++ h₃ ++ h₄ ++ [failureCount]) (.error e.reported)
  | concluded {h₁ h₂ h₃ h₄ : History Call.interface} {asOf : Instant} {d : Decision} {x : Stored}
      {y : CheckReport} (dated : Returns (evaluationDate r) h₁ asOf)
      (decided : Returns (decision s r facts asOf).run h₂ (.ok d))
      (stored : Returns (store s r d).run h₃ (.ok x))
      (last : Returns (conclude s r d x).run h₄ (.ok y)) :
      Course s r facts (h₁ ++ h₂ ++ h₃ ++ h₄) (.ok y)

theorem returns_steps {x : Except Raised CheckReport} :
    Returns (steps s r facts asOf).run h x ↔
      (∃ e, x = .error e ∧ Returns (decision s r facts asOf).run h (.error e)) ∨
        ∃ h₁ d h₂, h = h₁ ++ h₂ ∧ Returns (decision s r facts asOf).run h₁ (.ok d) ∧
          ((∃ e, x = .error e ∧ Returns (store s r d).run h₂ (.error e)) ∨
            ∃ h₃ y h₄, h₂ = h₃ ++ h₄ ∧ Returns (store s r d).run h₃ (.ok y) ∧
              Returns (conclude s r d y).run h₄ x) := by
  rw [steps_eq, Attempt.returns_bind]
  simp only [Attempt.returns_bind]

theorem returns_overFacts_iff {x : Except Raised CheckReport} :
    Returns (overFacts s r facts) h x ↔
      ∃ h₁ asOf h₂, Returns (evaluationDate r) h₁ asOf ∧
        ((∃ e, x = .error e.reported ∧ h = h₁ ++ (h₂ ++ [failureCount]) ∧
            Returns (steps s r facts asOf).run h₂ (.error e)) ∨
          ∃ y, x = .ok y ∧ h = h₁ ++ h₂ ∧ Returns (steps s r facts asOf).run h₂ (.ok y)) := by
  unfold overFacts
  refine returns_bind.trans ?_
  constructor
  · rintro ⟨h₁, asOf, h₂, rfl, dated, hr⟩
    obtain ⟨h₃, y, h₄, rfl, hs, hl⟩ := returns_bind.1 hr
    refine ⟨h₁, asOf, h₃, dated, ?_⟩
    cases y with
    | error e =>
      obtain ⟨h₅, u, h₆, rfl, hc, hd⟩ := returns_bind.1 hl
      obtain rfl := returns_perform.1 hc
      obtain ⟨rfl, rfl⟩ := returns_done.1 hd
      exact .inl ⟨e, rfl, rfl, hs⟩
    | ok y =>
      obtain ⟨rfl, rfl⟩ := returns_done.1 hl
      exact .inr ⟨y, rfl, by rw [List.append_nil], hs⟩
  · rintro ⟨h₁, asOf, h₂, dated, ⟨e, rfl, rfl, hs⟩ | ⟨y, rfl, rfl, hs⟩⟩
    · refine ⟨h₁, asOf, _, rfl, dated, returns_bind.2 ⟨h₂, .error e, _, rfl, hs, ?_⟩⟩
      exact returns_bind.2 ⟨[_], (), [], rfl, returns_perform.2 rfl, returns_done.2 ⟨rfl, rfl⟩⟩
    · refine ⟨h₁, asOf, h₂, rfl, dated, returns_bind.2 ⟨h₂, .ok y, [], ?_, hs, ?_⟩⟩
      · rw [List.append_nil]
      · exact returns_done.2 ⟨rfl, rfl⟩

theorem returns_overFacts {x : Except Raised CheckReport} :
    Returns (overFacts s r facts) h x ↔ Course s r facts h x := by
  rw [returns_overFacts_iff]
  constructor
  · rintro ⟨h₁, asOf, h₂, dated, ⟨e, rfl, rfl, hs⟩ | ⟨y, rfl, rfl, hs⟩⟩
    · rw [← List.append_assoc]
      rcases returns_steps.1 hs with ⟨e', he, failed⟩ | ⟨h₃, d, h₄, rfl, decided, hs⟩
      · cases he
        exact .undecided dated failed
      · rcases hs with ⟨e', he, failed⟩ | ⟨h₅, x, h₆, rfl, stored, failed⟩
        · cases he
          rw [← List.append_assoc]
          exact .unstored dated decided failed
        · rw [← List.append_assoc, ← List.append_assoc]
          exact .untold dated decided stored failed
    · rcases returns_steps.1 hs with ⟨e, he, -⟩ | ⟨h₃, d, h₄, rfl, decided, hs⟩
      · cases he
      · rcases hs with ⟨e, he, -⟩ | ⟨h₅, x, h₆, rfl, stored, last⟩
        · cases he
        · rw [← List.append_assoc, ← List.append_assoc]
          exact .concluded dated decided stored last
  · intro hc
    cases hc with
    | @undecided h₁ h₂ asOf e dated failed =>
      refine ⟨h₁, asOf, h₂, dated, .inl ⟨e, rfl, by simp, ?_⟩⟩
      exact returns_steps.2 (.inl ⟨e, rfl, failed⟩)
    | @unstored h₁ h₂ h₃ asOf d e dated decided failed =>
      refine ⟨h₁, asOf, h₂ ++ h₃, dated, .inl ⟨e, rfl, by simp, ?_⟩⟩
      exact returns_steps.2 (.inr ⟨h₂, d, h₃, rfl, decided, .inl ⟨e, rfl, failed⟩⟩)
    | @untold h₁ h₂ h₃ h₄ asOf d x e dated decided stored failed =>
      refine ⟨h₁, asOf, h₂ ++ (h₃ ++ h₄), dated, .inl ⟨e, rfl, by simp, ?_⟩⟩
      exact returns_steps.2 (.inr ⟨h₂, d, _, rfl, decided, .inr ⟨h₃, x, h₄, rfl, stored, failed⟩⟩)
    | @concluded h₁ h₂ h₃ h₄ asOf d x y dated decided stored last =>
      refine ⟨h₁, asOf, h₂ ++ (h₃ ++ h₄), dated, .inr ⟨y, rfl, by simp, ?_⟩⟩
      exact returns_steps.2 (.inr ⟨h₂, d, _, rfl, decided, .inr ⟨h₃, x, h₄, rfl, stored, last⟩⟩)

theorem returns_run {x : Except Raised CheckReport} :
    Returns (run s r) h x ↔
      (∃ e, x = .error e ∧ h = [⟨.facts r.caseId, .error e⟩]) ∨
        ∃ facts h', h = ⟨.facts r.caseId, .ok facts⟩ :: h' ∧ Course s r facts h' x := by
  unfold run
  refine returns_bind.trans ?_
  constructor
  · rintro ⟨h₁, a, h₂, rfl, hf, hr⟩
    obtain rfl := returns_perform.1 hf
    cases a with
    | error e =>
      obtain ⟨rfl, rfl⟩ := returns_done.1 hr
      exact .inl ⟨e, rfl, rfl⟩
    | ok facts => exact .inr ⟨facts, h₂, rfl, returns_overFacts.1 hr⟩
  · rintro (⟨e, rfl, rfl⟩ | ⟨facts, h', rfl, hc⟩)
    · exact ⟨[_], .error e, [], rfl, returns_perform.2 rfl, returns_done.2 ⟨rfl, rfl⟩⟩
    · exact ⟨[_], .ok facts, h', rfl, returns_perform.2 rfl, returns_overFacts.2 hc⟩

end VisaEligibility.Check
