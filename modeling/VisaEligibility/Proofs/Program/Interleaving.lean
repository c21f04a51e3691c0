import VisaEligibility.Proofs.Program.Histories
/-!
Programs that run side by side. Each step is one exchange of one of them, in any order; the
exchanges of each are a history of it.
-/
set_option autoImplicit false

namespace VisaEligibility

abbrev SharedHistory (I : Interface) := List (Nat × Exchange I)

namespace Program

variable {I : Interface} {α : Type}

/-- Programs reach others by exchanges of one after another, in any order. -/
inductive Interleaves : List (Program I α) → SharedHistory I → List (Program I α) → Prop where
  | here (ps : List (Program I α)) : Interleaves ps [] ps
  | step {ps qs : List (Program I α)} {h : SharedHistory I} {n : Nat} {c : I.Call}
      {k : I.Reply c → Program I α} (turn : ps[n]? = some (call c k)) (r : I.Reply c)
      (rest : Interleaves (ps.set n (k r)) h qs) : Interleaves ps ((n, ⟨c, r⟩) :: h) qs

def own (n : Nat) (h : SharedHistory I) : History I :=
  h.filterMap fun e => if e.1 = n then some e.2 else none

theorem own_cons_self (n : Nat) (x : Exchange I) (h : SharedHistory I) :
    own n ((n, x) :: h) = x :: own n h := by
  simp [own]

theorem own_cons_of_ne {n m : Nat} (hn : m ≠ n) (x : Exchange I) (h : SharedHistory I) :
    own n ((m, x) :: h) = own n h := by
  simp [own, hn]

theorem mem_own {n : Nat} {x : Exchange I} {h : SharedHistory I} :
    x ∈ own n h ↔ (n, x) ∈ h := by
  unfold own
  rw [List.mem_filterMap]
  constructor
  · rintro ⟨⟨m, y⟩, hm, hy⟩
    split at hy
    · rename_i hn
      cases hn
      cases hy
      exact hm
    · cases hy
  · intro hx
    exact ⟨(n, x), hx, by simp⟩

theorem own_append (n : Nat) (h h' : SharedHistory I) : own n (h ++ h') = own n h ++ own n h' :=
  List.filterMap_append

theorem own_map_self (n : Nat) (h : History I) : own n (h.map (Prod.mk n)) = h := by
  induction h with
  | nil => rfl
  | cons x h ih => rw [List.map_cons, own_cons_self, ih]

theorem own_map_of_ne {n m : Nat} (hn : m ≠ n) (h : History I) :
    own n (h.map (Prod.mk m)) = [] := by
  induction h with
  | nil => rfl
  | cons x h ih => rw [List.map_cons, own_cons_of_ne hn, ih]

theorem flatMap_own_perm {h : SharedHistory I} {numbers : List Nat} (distinct : numbers.Nodup)
    (all : ∀ e ∈ h, e.1 ∈ numbers) :
    (numbers.flatMap fun n => own n h).Perm (h.map Prod.snd) := by
  induction h with
  | nil => simp [own]
  | cons e h ih =>
    obtain ⟨m, x⟩ := e
    obtain ⟨hm, rest⟩ := List.forall_mem_cons.1 all
    have ih := ih rest
    obtain ⟨low, high, rfl⟩ := List.append_of_mem hm
    obtain ⟨-, apart, disjoint⟩ := List.nodup_append.1 distinct
    have others {numbers : List Nat} (hn : m ∉ numbers) :
        (numbers.flatMap fun n => own n ((m, x) :: h)) = numbers.flatMap fun n => own n h := by
      refine congrArg List.flatten (List.map_congr_left fun n hm => own_cons_of_ne ?_ x h)
      rintro rfl
      exact hn hm
    have below := others fun hl => disjoint m hl m List.mem_cons_self rfl
    have above := others (List.nodup_cons.1 apart).1
    rw [List.flatMap_append, List.flatMap_cons, below, above, own_cons_self, List.map_cons,
      List.cons_append]
    refine List.perm_middle.trans (List.Perm.cons x ?_)
    rwa [List.flatMap_append, List.flatMap_cons] at ih

theorem Interleaves.length_eq {ps qs : List (Program I α)} {h : SharedHistory I}
    (hi : Interleaves ps h qs) : qs.length = ps.length := by
  induction hi with
  | here ps => rfl
  | step turn r rest ih => simpa using ih

/-- The exchanges of each program are a history of it. -/
theorem Interleaves.reaches {ps qs : List (Program I α)} {h : SharedHistory I}
    (hi : Interleaves ps h qs) {n : Nat} {q : Program I α} (hq : qs[n]? = some q) :
    ∃ p, ps[n]? = some p ∧ Reaches p (own n h) q := by
  induction hi with
  | here ps => exact ⟨q, hq, .here q⟩
  | @step ps qs h m c k turn r rest ih =>
    obtain ⟨p, hp, hr⟩ := ih hq
    by_cases hn : m = n
    · subst hn
      have bound : m < ps.length := (List.getElem?_eq_some_iff.1 turn).1
      rw [List.getElem?_set_self bound] at hp
      cases hp
      rw [own_cons_self]
      exact ⟨_, turn, .step r hr⟩
    · rw [List.getElem?_set_ne hn] at hp
      rw [own_cons_of_ne hn]
      exact ⟨p, hp, hr⟩

theorem Interleaves.index_lt {ps qs : List (Program I α)} {h : SharedHistory I}
    (hi : Interleaves ps h qs) : ∀ e ∈ h, e.1 < ps.length := by
  induction hi with
  | here ps => simp
  | step turn r rest ih =>
    have bound := (List.getElem?_eq_some_iff.1 turn).1
    rw [List.length_set] at ih
    intro e he
    rcases List.mem_cons.1 he with rfl | he
    · exact bound
    · exact ih e he

theorem Interleaves.trans {ps qs rs : List (Program I α)} {h h' : SharedHistory I}
    (hp : Interleaves ps h qs) (hq : Interleaves qs h' rs) : Interleaves ps (h ++ h') rs := by
  induction hp with
  | here ps => exact hq
  | step turn r rest ih => exact .step turn r (ih hq)

theorem Interleaves.of_reaches {ps : List (Program I α)} {n : Nat} {p q : Program I α}
    {h : History I} (hp : ps[n]? = some p) (hr : Reaches p h q) :
    Interleaves ps (h.map (Prod.mk n)) (ps.set n q) := by
  induction hr generalizing ps with
  | here p =>
    have bound := (List.getElem?_eq_some_iff.1 hp).1
    have same : ps.set n p = ps := by
      rw [← (List.getElem?_eq_some_iff.1 hp).2, List.set_getElem_self]
    rw [same]
    exact .here ps
  | @step c k r h q hr ih =>
    have bound := (List.getElem?_eq_some_iff.1 hp).1
    have turn : (ps.set n (k r))[n]? = some (k r) := List.getElem?_set_self bound
    have rest := ih turn
    rw [List.set_set] at rest
    exact .step hp r rest

end Program
end VisaEligibility
