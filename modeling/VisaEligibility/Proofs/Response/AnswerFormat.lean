import VisaEligibility.Proofs.Number.Numeral
import VisaEligibility.Proofs.Response.LastMarker
import VisaEligibility.Response.Verdict
/-!
The format a model is asked for: an answer that ends with an outcome line and a confidence line. It
is read as these two lines say, whatever text stands before them.
-/
set_option autoImplicit false

namespace VisaEligibility

namespace Numeral

variable (d : Numeral)

theorem isDigit_or_point {c : Char} (h : c ∈ d.chars) : c.isDigit = true ∨ c = '.' := by
  rcases List.mem_append.1 h with h | h
  · exact .inl (d.whole_isDigit c h)
  · unfold pointed at h
    split at h
    · cases h
    · rcases List.mem_cons.1 h with rfl | h
      · exact .inr rfl
      · exact .inl (d.part_isDigit c h)

end Numeral

namespace Response

open Text (isLineBreak)

theorem isLineBreak_chars (d : Numeral) : d.chars.any isLineBreak = false := by
  refine List.any_eq_false.2 fun c hc isBreak => ?_
  rcases d.isDigit_or_point hc with digit | rfl
  · cases (Text.isBlank_of_isDigit digit).symm.trans (Text.isBlank_of_isLineBreak isBreak)
  · cases isBreak

def confidenceLine (d : Numeral) : List Char := "CONFIDENCE: ".toList ++ d.chars

def outcomeLine (o : Outcome) (d : Numeral) : List Char :=
  "OUTCOME: ".toList ++ o.name.toList ++ '\n' :: confidenceLine d

variable (o : Outcome) (d : Numeral)

theorem confidenceLine_eq : confidenceLine d = 'C' :: (confidenceLine d).tail := rfl

theorem outcomeLine_eq : outcomeLine o d = 'O' :: (outcomeLine o d).tail := by
  cases o <;> rfl

theorem numeral?_chars : numeral? d.chars = some (d.chars, []) := by
  obtain ⟨c, cs, hc, digit⟩ := d.exists_digit
  have nonempty := d.whole_ne_nil
  unfold numeral?
  split
  rename_i sign body hs
  obtain ⟨rfl, rfl⟩ : sign = [] ∧ body = d.chars := by
    split at hs
    · rename_i minus
      exact absurd (List.cons.inj (hc.symm.trans minus)).1 (ne_of_isDigit digit rfl)
    · cases hs
      exact ⟨rfl, rfl⟩
  rw [d.span_chars]
  by_cases hp : d.part = []
  · simp only [Numeral.chars, Numeral.pointed, if_pos hp, List.nil_append, List.append_nil]
  · obtain ⟨p, ps, hps⟩ := List.exists_cons_of_ne_nil hp
    simp only [Numeral.chars, Numeral.pointed, if_neg hp, d.span_part, List.nil_append]

theorem confidenceMarker?_line :
    confidenceMarker? (confidenceLine d) = some ⟨⟨d.chars, false⟩, []⟩ := by
  have colon : afterColon? confidenceKeyword (confidenceLine d) = some (' ' :: d.chars) := rfl
  have filled : dropFill (' ' :: d.chars) = d.chars := by
    obtain ⟨c, cs, hc, digit⟩ := d.exists_digit
    have star : c ≠ '*' := ne_of_isDigit digit rfl
    have blank := Text.isBlank_of_isDigit digit
    change dropBlanks (dropStars (dropBlanks d.chars)) = d.chars
    simp [dropBlanks, dropStars, hc, star, blank]
  rw [confidenceMarker?, colon, Option.bind_some, share?, filled, numeral?_chars]
  rfl

theorem outcomeMarker?_line : outcomeMarker? (outcomeLine o d) =
    some ⟨o.name.toList, '\n' :: confidenceLine d⟩ := by
  cases o <;> rfl

theorem endsWith_confidenceLine :
    EndsWith confidenceMarker? (confidenceLine d) ⟨⟨d.chars, false⟩, []⟩ where
  own := confidenceMarker?_line d
  covers := ⟨'C', (confidenceLine d).tail, (List.append_nil _).symm⟩
  before := by
    have own := confidenceMarker?_line d
    rw [confidenceLine_eq] at own ⊢
    exact marker_before rfl (by decide) (fun _ _ => share?_before rfl) own
  after _ := rfl

theorem endsWith_outcomeLine : EndsWith outcomeMarker? (outcomeLine o d)
    ⟨o.name.toList, '\n' :: confidenceLine d⟩ where
  own := outcomeMarker?_line o d
  covers := ⟨'O', "UTCOME: ".toList ++ o.name.toList, rfl⟩
  before := by
    have unlabelled : shortestLabel? (outcomeLine o d) = none := by
      cases o <;> rfl
    have own := outcomeMarker?_line o d
    rw [outcomeLine_eq] at unlabelled own ⊢
    exact marker_before rfl (by decide) (fun _ _ => label?_before rfl unlabelled) own
  after lineStart := by
    have plain : (confidenceLine d).tail.any isLineBreak = false := by
      change ("ONFIDENCE: ".toList ++ d.chars).any isLineBreak = false
      rw [List.any_append, isLineBreak_chars]
      rfl
    rcases scan_cons outcomeMarker? lineStart '\n' (confidenceLine d) with
      ⟨m, hm, -⟩ | passed
    · cases hm
    rw [passed, confidenceLine_eq]
    rcases scan_cons outcomeMarker? (isLineBreak '\n') 'C' (confidenceLine d).tail with
      ⟨m, hm, -⟩ | passed
    · cases hm
    rw [passed]
    exact scan_of_no_break plain

def answer (text : String) (o : Outcome) (d : Numeral) : String :=
  text ++ "\n" ++ "OUTCOME: " ++ o.name ++ "\n" ++ "CONFIDENCE: " ++ d.text

theorem toList_answer (text : String) :
    (answer text o d).toList = text.toList ++ '\n' :: outcomeLine o d := by
  have newline : "\n".toList = ['\n'] := rfl
  unfold answer outcomeLine confidenceLine Numeral.text
  generalize "OUTCOME: " = outcome, "CONFIDENCE: " = confidence
  simp only [String.toList_append, String.toList_ofList, newline, List.append_assoc,
    List.cons_append, List.nil_append]

theorem outcome_of_answer (text : String) :
    last? outcomeMarker? (answer text o d) = some o.name.toList :=
  (endsWith_outcomeLine o d).last?_eq (toList_answer o d text)

theorem share_of_answer (text : String) :
    last? confidenceMarker? (answer text o d) = some ⟨d.chars, false⟩ := by
  have last : (answer text o d).toList =
      text.toList ++ '\n' :: ("OUTCOME: ".toList ++ o.name.toList) ++ '\n' :: confidenceLine d := by
    rw [toList_answer]
    unfold outcomeLine
    generalize "OUTCOME: ".toList = outcome
    simp only [List.append_assoc, List.cons_append]
  exact (endsWith_confidenceLine d).last?_eq last

theorem inUnitInterval_nearest (h : d.value ≤ 1) :
    inUnitInterval (Number.nearest d.value) = true := by
  have zero : Number.nearest 0 = 0 := by decide +kernel
  have one : Number.nearest 1 = 1 := by decide +kernel
  have low := Number.nearest_mono le_rfl d.value_nonneg
  have high := Number.nearest_mono d.value_nonneg h
  rw [zero] at low
  rw [one] at high
  rw [inUnitInterval, low, high]
  rfl

/-- An answer that ends in the two lines it is asked for is read as they say, whatever comes before
them: text, other markers or a part of one. The confidence read is the double nearest to the
numeral. -/
theorem verdict_of_answer (text : String) (o : Outcome) (d : Numeral) (h : d.value ≤ 1) :
    (verdict (answer text o d)).conclusion = some (.outcome o) ∧
      (verdict (answer text o d)).confidence = some (Number.nearest d.value) ∧
      (verdict (answer text o d)).warnings = [] := by
  have conclusion : (verdict (answer text o d)).conclusion = some (.outcome o) := by
    have named : conclusionOf o.name.toList = some (.outcome o) := by
      cases o <;> decide +kernel
    change (last? outcomeMarker? (answer text o d)).bind conclusionOf = _
    rw [outcome_of_answer, Option.bind_some, named]
  have confidence : (verdict (answer text o d)).confidence = some (Number.nearest d.value) := by
    have value : Share.value ⟨d.chars, false⟩ = Number.nearest d.value := d.ofStart_text
    change ((last? confidenceMarker? (answer text o d)).map Share.value).filter inUnitInterval = _
    rw [share_of_answer, Option.map_some, value, Option.filter_some,
      if_pos (inUnitInterval_nearest d h)]
  refine ⟨conclusion, confidence, ?_⟩
  rw [AiVerdict.warnings, conclusion, confidence]
  rfl

def nineTenths : Numeral :=
  ⟨['0'], ['9'], by decide, List.forall_mem_singleton.2 rfl, List.forall_mem_singleton.2 rfl⟩

def misleading : String := "OUTCOME: not_eligible\nCONFIDENCE: 5%\n**OUTCOME"

theorem verdict_of_answer_misleading :
    nineTenths.value ≤ 1 ∧
      (verdict (answer misleading .eligible nineTenths)).conclusion = some (.outcome .eligible) ∧
      (verdict (answer misleading .eligible nineTenths)).confidence =
        some (Number.nearest (9 / 10)) ∧
      (verdict (answer misleading .eligible nineTenths)).warnings = [] := by
  have value : nineTenths.value = 9 / 10 := by decide +kernel
  have within : nineTenths.value ≤ 1 := by decide +kernel
  have read := verdict_of_answer misleading .eligible nineTenths within
  rw [value] at read
  exact ⟨within, read⟩

end Response
end VisaEligibility
