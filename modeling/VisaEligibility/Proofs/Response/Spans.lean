import VisaEligibility.Proofs.Response.Labels
import VisaEligibility.Proofs.Response.LastMarker
/-!
Where the markers of a text stand. The walk that reads their values also tells which characters they
cover: a stretch of covered characters starts where a line starts and ends where one ends, for either
kind of marker and for both together.
-/
set_option autoImplicit false

namespace VisaEligibility.Response

open Text (isBlank isLineBreak)

variable {α : Type} {marker? : List Char → Option (Marker α)}

/-- For each character whether a marker covers it, and the value of the marker that starts there. -/
def walk (marker? : List Char → Option (Marker α)) (covered : Nat) (lineStart : Bool) :
    List Char → List (Bool × Option α)
  | [] => []
  | c :: cs =>
    match covered with
    | n + 1 => (true, none) :: walk marker? n (isLineBreak c) cs
    | 0 =>
      match if lineStart then marker? (c :: cs) else none with
      | some m =>
        (true, some m.value) :: walk marker? (cs.length - m.rest.length) (isLineBreak c) cs
      | none => (false, none) :: walk marker? 0 (isLineBreak c) cs

theorem length_walk (covered : Nat) (lineStart : Bool) (cs : List Char) :
    (walk marker? covered lineStart cs).length = cs.length := by
  fun_induction walk marker? covered lineStart cs <;> simp [*]

theorem scan_eq_walk (covered : Nat) (lineStart : Bool) (cs : List Char) :
    scan marker? covered lineStart cs = (walk marker? covered lineStart cs).filterMap Prod.snd := by
  fun_induction walk marker? covered lineStart cs with
  | case1 => rfl
  | case2 lineStart c cs n ih => exact ih
  | case3 lineStart c cs m hm ih => rw [scan, hm, List.filterMap_cons, ← ih]
  | case4 lineStart c cs hm ih => rw [scan, hm, List.filterMap_cons, ← ih]

theorem last?_eq_walk (text : String) :
    last? marker? text = ((walk marker? 0 true text.toList).filterMap Prod.snd).getLast? :=
  congrArg List.getLast? (scan_eq_walk 0 true text.toList)

/-- A text with a flag for each character that a marker of either kind covers. -/
def marked (cs : List Char) : List (Char × Bool) :=
  cs.zip (List.zipWith (fun o c => o.1 || c.1) (walk outcomeMarker? 0 true cs)
    (walk confidenceMarker? 0 true cs))

def unmarked (text : String) : String :=
  String.ofList (((marked text.toList).filter fun x => !x.2).map Prod.fst)

theorem map_fst_marked (cs : List Char) : (marked cs).map Prod.fst = cs := by
  unfold marked
  rw [List.map_fst_zip]
  simp [length_walk]

/-- A marker takes up some of a text, up to the end of a line. -/
def EndsLine (marker? : List Char → Option (Marker α)) : Prop :=
  ∀ cs m, marker? cs = some m → ∃ written, cs = written ++ m.rest ∧ written ≠ [] ∧
    ∀ c, m.rest.head? = some c → isLineBreak c = true

theorem endsLine_outcomeMarker : EndsLine outcomeMarker? := by
  intro cs m hm
  obtain ⟨written, split, spelt, ends⟩ := exists_written hm
  obtain ⟨indent, word, gap, pad, closing, rfl, -⟩ := spelt
  exact ⟨_, split, by simp, ends⟩

theorem endsLine_confidenceMarker : EndsLine confidenceMarker? := by
  intro cs m hm
  obtain ⟨after, colon, hs⟩ := Option.bind_eq_some_iff.1 hm
  obtain ⟨indent, word, gap, rfl, -⟩ := exists_colon colon
  obtain ⟨pad, -, padded⟩ := exists_fill after
  obtain ⟨⟨numeral, unread⟩, hn, hs⟩ := Option.bind_eq_some_iff.1 hs
  obtain ⟨spelt, -⟩ := numeral?_spelled hn
  have closed : ∃ closing, unread = closing ++ m.rest ∧
      ∀ c, m.rest.head? = some c → isLineBreak c = true := by
    dsimp only at hs
    split at hs
    · rename_i rest percent
      cases hs
      split at percent
      · rename_i signed sign
        obtain ⟨closing, hc, -, ends⟩ := exists_closing percent
        refine ⟨unread.takeWhile isBlank ++ '%' :: closing, ?_, ends⟩
        have blanks : unread = unread.takeWhile isBlank ++ dropBlanks unread :=
          List.takeWhile_append_dropWhile.symm
        rw [sign, hc] at blanks
        simpa using blanks
      · cases percent
    · obtain ⟨rest, bare, rfl⟩ := Option.map_eq_some_iff.1 hs
      obtain ⟨closing, hc, -, ends⟩ := exists_closing bare
      exact ⟨closing, hc, ends⟩
  obtain ⟨closing, rfl, ends⟩ := closed
  refine ⟨indent ++ word ++ gap ++ ':' :: (pad ++ numeral ++ closing), ?_, by simp, ends⟩
  rw [padded, spelt]
  simp only [List.append_assoc, List.cons_append]

/-! ### Stretches of flagged characters -/

/-- Flags over a text whose stretches start where a line starts, that is at the start or after a line
break, and end where a line ends. `start` tells whether a line starts here and `before` whether the
character before is flagged. -/
inductive Swept : (start before : Bool) → List (Char × Bool) → Prop where
  | nil {start before : Bool} : Swept start before []
  | cons {start before flag : Bool} {c : Char} {rest : List (Char × Bool)}
      (opens : flag = true → before = true ∨ start = true)
      (closes : before = true → flag = false → isLineBreak c = true)
      (tail : Swept (isLineBreak c) flag rest) : Swept start before ((c, flag) :: rest)

theorem swept_walk (ends : EndsLine marker?) (cs : List Char) (covered : Nat) (start before : Bool)
    (within : 0 < covered → before = true)
    (last : before = true → ∀ c, (cs.drop covered).head? = some c → isLineBreak c = true) :
    Swept start before (cs.zip ((walk marker? covered start cs).map Prod.fst)) := by
  induction cs generalizing covered start before with
  | nil => exact .nil
  | cons c cs ih =>
    cases covered with
    | succ covered =>
      have inside := within (Nat.succ_pos _)
      refine .cons (fun _ => .inl inside) (fun _ h => by cases h) ?_
      exact ih covered _ true (fun _ => rfl) fun _ => last inside
    | zero =>
      rw [walk]
      split
      · rename_i m hm
        split at hm
        · rename_i starts
          obtain ⟨written, split, some, ends'⟩ := ends _ _ hm
          obtain ⟨d, written, rfl⟩ := List.exists_cons_of_ne_nil some
          rw [List.cons_append, List.cons.injEq] at split
          obtain ⟨rfl, rfl⟩ := split
          refine .cons (fun _ => .inr starts) (fun _ h => by cases h) ?_
          refine ih _ _ true (fun _ => rfl) fun _ => ?_
          have length : (written ++ m.rest).length - m.rest.length = written.length := by simp
          rw [length, List.drop_left]
          exact ends'
        · cases hm
      · refine .cons (fun h => by cases h) (fun h _ => last h c rfl) ?_
        exact ih 0 _ false (fun h => absurd h (Nat.lt_irrefl 0)) fun h => by cases h

theorem Swept.or {cs : List Char} {fs gs : List Bool} {start before before' : Bool}
    (length : fs.length = gs.length) (hf : Swept start before (cs.zip fs))
    (hg : Swept start before' (cs.zip gs)) :
    Swept start (before || before') (cs.zip (List.zipWith (· || ·) fs gs)) := by
  induction cs generalizing fs gs start before before' with
  | nil => exact .nil
  | cons c cs ih =>
    cases fs with
    | nil => exact .nil
    | cons f fs =>
      cases gs with
      | nil => cases length
      | cons g gs =>
        cases hf with
        | cons opens closes rest =>
          cases hg with
          | cons opens' closes' rest' =>
            refine .cons (fun h => ?_) (fun h none => ?_) (ih (Nat.succ.inj length) rest rest')
            · rcases Bool.or_eq_true_iff.1 h with h | h
              · rcases opens h with h | h
                · exact .inl (by rw [h, Bool.true_or])
                · exact .inr h
              · rcases opens' h with h | h
                · exact .inl (by rw [h, Bool.or_true])
                · exact .inr h
            · obtain ⟨unflagged, unflagged'⟩ := (Bool.or_eq_false_iff).1 none
              rcases Bool.or_eq_true_iff.1 h with h | h
              · exact closes h unflagged
              · exact closes' h unflagged'

theorem swept_marked (cs : List Char) : Swept true false (marked cs) := by
  have length : ((walk outcomeMarker? 0 true cs).map Prod.fst).length =
      ((walk confidenceMarker? 0 true cs).map Prod.fst).length := by
    simp only [List.length_map, length_walk]
  have outcomes := swept_walk endsLine_outcomeMarker cs 0 true false
    (fun h => absurd h (Nat.lt_irrefl 0)) fun h => by cases h
  have confidences := swept_walk endsLine_confidenceMarker cs 0 true false
    (fun h => absurd h (Nat.lt_irrefl 0)) fun h => by cases h
  have both := outcomes.or length confidences
  rwa [List.zipWith_map] at both

theorem Swept.of_append {xs ys : List (Char × Bool)} {start before : Bool}
    (h : Swept start before (xs ++ ys)) : Swept start before xs := by
  induction xs generalizing start before with
  | nil => exact .nil
  | cons x xs ih =>
    cases h with
    | cons opens closes rest => exact .cons opens closes (ih rest)

theorem Swept.of_append_cons {xs ys : List (Char × Bool)} {start before flag : Bool} {c : Char}
    (h : Swept start before (xs ++ (c, flag) :: ys)) : Swept (isLineBreak c) flag ys := by
  induction xs generalizing start before with
  | nil =>
    cases h with
    | cons _ _ rest => exact rest
  | cons x xs ih =>
    cases h with
    | cons _ _ rest => exact ih rest

end VisaEligibility.Response
