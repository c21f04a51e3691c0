import VisaEligibility.Verdict.Summary
import VisaEligibility.Proofs.Text.Cuts
/-!
Explanations that are cut. A long explanation is cut at a number of code units, wherever that is: it
keeps its length, but a cut within a pair of surrogates leaves the first of them alone, and so does the
summary that is made with it.
-/
set_option autoImplicit false

namespace VisaEligibility.Summary

open Text (Units unitsOf)

/-- Whether the explanation of an answer is cut after the first unit of a pair. -/
def cutsPair (response : String) : Bool :=
  let u := Units.ofList (body response)
  500 < u.length && u.units[496]?.any Units.isHigh

def withNotes (u : Units) (notes : List String) : Units :=
  notes.foldl (fun u note => u ++ .ofString (" " ++ note)) u

theorem wellFormed_withNotes (u : Units) (notes : List String) :
    (withNotes u notes).wellFormed = u.wellFormed := by
  induction notes generalizing u with
  | nil => rfl
  | cons note notes ih =>
    have spaced : (" " ++ note).toList = ' ' :: note.toList := by rw [String.toList_append]; rfl
    rw [withNotes, List.foldl_cons]
    exact (ih _).trans (Units.wellFormed_append_ofString u spaced (by decide))

section Explanation

variable (response : String)

theorem explanation_of_long (long : 500 < (Units.ofList (body response)).length) :
    explanation response = (Units.ofList (body response)).take 497 ++ ellipsis := by
  rw [explanation, shorten, explanationLength]
  exact if_pos long

theorem explanation_of_short (short : (Units.ofList (body response)).length ≤ 500) :
    explanation response = Units.ofList (body response) := by
  rw [explanation, shorten, explanationLength]
  exact if_neg (Nat.not_lt.2 short)

theorem length_of_long (long : 500 < (Units.ofList (body response)).length) :
    (explanation response).length = 500 := by
  have dots : ellipsis.length = 3 := by decide
  rw [explanation_of_long response long, Units.length_append, Units.length_take, dots]
  omega

theorem length_explanation : (explanation response).length ≤ 500 := by
  rcases Nat.lt_or_ge 500 (Units.ofList (body response)).length with long | short
  · exact Nat.le_of_eq (length_of_long response long)
  · rw [explanation_of_short response short]
    exact short

theorem wellFormed_explanation : (explanation response).wellFormed = !cutsPair response := by
  rcases Nat.lt_or_ge 500 (Units.ofList (body response)).length with long | short
  · have whole : Units.wellFormedUnits (Units.ofList (body response)).units = true :=
      Units.wellFormed_ofList (body response)
    have last : ((Units.ofList (body response)).units.take 497).getLast? =
        (Units.ofList (body response)).units[496]? := by
      have there : 496 < (Units.ofList (body response)).units.length := by
        unfold Units.length at long
        omega
      rw [List.getLast?_take, if_neg (by omega), List.getElem?_eq_getElem there, Option.some_or]
    have dots : "...".toList = '.' :: "..".toList := rfl
    rw [explanation_of_long response long, ellipsis,
      Units.wellFormed_append_ofString _ dots (by decide), Units.wellFormed, Units.take,
      Units.wellFormedUnits_take whole, last, cutsPair]
    simp [long]
  · rw [explanation_of_short response short, Units.wellFormed_ofList, cutsPair]
    simp [Nat.not_lt.2 short]

theorem length_explanation_eq_zero : (explanation response).length = 0 ↔ body response = [] := by
  constructor
  · intro none
    rcases Nat.lt_or_ge 500 (Units.ofList (body response)).length with long | short
    · rw [length_of_long response long] at none
      cases none
    · rw [explanation_of_short response short] at none
      cases said : body response with
      | nil => rfl
      | cons c cs =>
        have units : (Units.ofList (body response)).units = unitsOf c ++ cs.flatMap unitsOf := by
          rw [said, Units.ofList, List.flatMap_cons]
        rw [Units.length, units, List.length_append] at none
        rcases Units.unitsOf_cases c with ⟨u, hu, -⟩ | ⟨h, l, hu, -⟩ <;> simp [hu] at none
  · intro silent
    have empty : Units.ofList (body response) = ⟨[]⟩ := by rw [silent]; rfl
    rw [explanation_of_short response (by simp [empty, Units.length]), empty]
    rfl

theorem cutsPair_of_silent (silent : body response = []) : cutsPair response = false := by
  rw [cutsPair, silent]
  rfl

end Explanation

section Opening

variable (rule : RuleFindings) (c : CombinedVerdict)

theorem opening_of_used {a : Answer} (agrees : c.conflict = false) (used : c.aiUsed = true)
    (worded : body a.text ≠ []) : opening rule c (some a) = explanation a.text := by
  simp [opening, agrees, used, length_explanation_eq_zero, worded]

theorem wellFormed_opening (ai : Option Answer) : (opening rule c ai).wellFormed = true ↔
    ∀ a, ai = some a → c.conflict = false → c.aiUsed = true → cutsPair a.text = false := by
  have written (s : String) := Units.wellFormed_ofString s
  cases ai with
  | none => simp [opening, written]
  | some a =>
    cases agrees : c.conflict with
    | true => simp [opening, agrees, written]
    | false =>
      cases used : c.aiUsed with
      | false => simp [opening, agrees, used, written]
      | true =>
        by_cases silent : body a.text = []
        · have unused := (length_explanation_eq_zero a.text).2 silent
          simp [opening, agrees, used, unused, written, cutsPair_of_silent a.text silent]
        · rw [opening_of_used rule c agrees used silent, wellFormed_explanation]
          simp

end Opening

theorem ofVerdict_eq (rule : RuleFindings) (c : CombinedVerdict) (ai : Option Answer)
    (failure : Option AiStage) (t : Thresholds) : ofVerdict rule c ai failure t =
      withNotes (opening rule c ai)
        (aiNote c ai failure ++ missingNote rule.missingFacts ++ thresholdNote c t) := rfl

end VisaEligibility.Summary
