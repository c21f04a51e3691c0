import VisaEligibility.Proofs.Program.Repetition
import VisaEligibility.Reasoning.Reasoner
/-!
The calls of the reasoning path. It asks remote services, pauses and counts; it writes nothing and
asks for neither facts nor rules.
-/
set_option autoImplicit false

namespace VisaEligibility

open Program

def Call.isRemote : Call → Bool
  | .embedding _ _ => true
  | .search _ _ _ _ _ => true
  | .completion _ _ _ => true
  | .pause _ => true
  | .count _ => true
  | _ => false

namespace Retrieval

variable {kind : Call → Bool}

theorem only_policyOf (setting : String) (policy : Option CallPolicy) :
    (policyOf setting policy).run.Only kind := only_done _ _

theorem only_remote {α : Type} {policy : CallPolicy}
    {call : Option Number → Engine (Except Raised α)} (hp : ∀ ms, kind (.pause ms) = true)
    (hc : ∀ limit, (call limit).Only kind) : (remote policy call).Only kind :=
  RetryRule.only_run _ (fun ms => only_perform.2 (hp ms)) (hc _)

theorem only_staged {α : Type} {stage : AiStage} {activity : String}
    {call : Engine (Except Raised α)} (hc : call.Only kind) :
    (staged stage activity call).run.Only kind := by
  refine hc.bind fun x => ?_
  cases x with
  | ok a => exact only_done _ _
  | error e => exact only_done _ _

theorem only_embed (s : RetrievalSettings) (text : String) (hp : ∀ ms, kind (.pause ms) = true)
    (hc : ∀ limit, kind (.embedding text limit) = true) : (embed s text).run.Only kind := by
  refine Attempt.only_bind (only_policyOf _ _) fun policy => ?_
  refine Attempt.only_bind (only_staged (only_remote hp fun l => only_perform.2 (hc l))) fun v => ?_
  exact only_done _ _

theorem only_search (s : RetrievalSettings) (vector : List Number) (filters : ChunkFilters)
    (topK minSimilarity : Number) (hp : ∀ ms, kind (.pause ms) = true)
    (hc : ∀ limit, kind (.search vector filters topK minSimilarity limit) = true) :
    (search s vector filters topK minSimilarity).run.Only kind := by
  refine Attempt.only_bind (only_policyOf _ _) fun policy => ?_
  refine Attempt.only_bind (only_staged (only_remote hp fun l => only_perform.2 (hc l))) fun v => ?_
  exact only_done _ _

theorem only_retrieve (s : RetrievalSettings) (facts : Facts) (filters : ChunkFilters) :
    (retrieve s facts filters).run.Only Call.isRemote := by
  refine Attempt.only_bind (only_done _ _) fun q => ?_
  refine Attempt.only_bind (only_embed s q (fun _ => rfl) fun _ => rfl) fun v => ?_
  refine Attempt.only_bind (only_search s v filters _ _ (fun _ => rfl) fun _ => rfl) fun chunks => ?_
  exact only_done _ _

end Retrieval

namespace Reasoning

open Retrieval

theorem only_consult {kind : Call → Bool} (s : ReasoningSettings) (p : Prompt)
    (hp : ∀ ms, kind (.pause ms) = true)
    (hc : ∀ options limit, kind (.completion p.messages options limit) = true)
    (hn : ∀ name model status, kind (.count (.modelCall name model status)) = true) :
    (consult s p).run.Only kind := by
  refine Attempt.only_bind (only_policyOf _ _) fun policy => ?_
  refine (only_remote hp fun limit => only_perform.2 (hc _ limit)).bind fun x => ?_
  cases x with
  | ok a => exact (only_perform.2 (hn _ _ _)).bind fun _ => only_done _ _
  | error e => exact (only_perform.2 (hn _ _ _)).bind fun _ => only_done _ _

theorem only_complete (retrieval : RetrievalSettings) (s : ReasoningSettings)
    (i : AssessmentInput) : (complete retrieval s i).run.Only Call.isRemote := by
  refine Attempt.only_bind (only_retrieve _ _ _) fun context => ?_
  refine Attempt.only_bind (only_done _ _) fun p => ?_
  exact Attempt.only_bind (only_consult s p (fun _ => rfl) (fun _ _ => rfl) fun _ _ _ => rfl)
    fun a => only_done _ _

theorem only_run (retrieval : RetrievalSettings) (s : ReasoningSettings) (i : AssessmentInput) :
    (run retrieval s i).run.Only Call.isRemote := by
  refine (only_complete retrieval s i).bind fun x => ?_
  cases x with
  | ok c => exact (only_perform.2 rfl).bind fun _ => only_done _ _
  | error f =>
    dsimp only
    cases f.stage? with
    | some stage => exact (only_perform.2 rfl).bind fun _ => only_done _ _
    | none => exact only_done _ _

end Reasoning
end VisaEligibility
