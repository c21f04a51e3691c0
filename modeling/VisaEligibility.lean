import VisaEligibility.Json.Printer
import VisaEligibility.Json.Reader
import VisaEligibility.Failure.Response
import VisaEligibility.Failure.Transience
import VisaEligibility.Rule.Evaluation
import VisaEligibility.Response.Citation
import VisaEligibility.Verdict.Summary
import VisaEligibility.Retrieval.Query
import VisaEligibility.Reasoning.Prompt
import VisaEligibility.Clock.Shutdown
import VisaEligibility.Program.Trial
import VisaEligibility.Rule.Lookup
import VisaEligibility.Check.Batch
import VisaEligibility.Clock.Pool
import VisaEligibility.Bench.Session
import VisaEligibility.Validation.Request
import VisaEligibility.Bench.Service
import VisaEligibility.Configuration.Basic
import VisaEligibility.Documents.Fact
import VisaEligibility.Documents.RuleVersion
import VisaEligibility.Documents.Result
import VisaEligibility.Documents.Log
import VisaEligibility.Vectors.Row
import VisaEligibility.Vectors.Statement
import VisaEligibility.Documents.Store
import VisaEligibility.Bench.DocumentClient
import VisaEligibility.Vectors.Pool
import VisaEligibility.Bench.PoolClient
import VisaEligibility.Provider.Chat
import VisaEligibility.Provider.Embedding
import VisaEligibility.Logging.Line
import VisaEligibility.Metrics.Memory
import VisaEligibility.Bench.Sample
import VisaEligibility.Bench.Reading
import VisaEligibility.Proofs.Check.Approval
import VisaEligibility.Proofs.Check.Rejection
import VisaEligibility.Proofs.Check.BatchStatus
import VisaEligibility.Proofs.Check.References
import VisaEligibility.Proofs.Check.LostAnswers
import VisaEligibility.Proofs.Check.BatchAgreement
import VisaEligibility.Proofs.Web.Disclosure
import VisaEligibility.Proofs.Distinct
import VisaEligibility.Proofs.Expression.Coincidence
import VisaEligibility.Proofs.Rule.MissingFacts
import VisaEligibility.Proofs.Number.Rounding
import VisaEligibility.Proofs.Verdict.Improvement
import VisaEligibility.Proofs.Number.Numeral
import VisaEligibility.Proofs.Response.AnswerFormat
import VisaEligibility.Proofs.Documents.RuleSearch
import VisaEligibility.Proofs.Check.ContextCap
import VisaEligibility.Proofs.Check.CachedLookups
import VisaEligibility.Proofs.Check.Consistency
import VisaEligibility.Proofs.Reasoning.Attribution
import VisaEligibility.Proofs.Check.Confidence
import VisaEligibility.Proofs.Check.CitedContext
import VisaEligibility.Proofs.Expression.Acceptance
import VisaEligibility.Proofs.Vectors.Conditions
import VisaEligibility.Proofs.Documents.ResultListing
import VisaEligibility.Proofs.Check.BatchLookups
import VisaEligibility.Proofs.Expression.Comparisons
import VisaEligibility.Proofs.Expression.Raising
import VisaEligibility.Proofs.Expression.InvalidInstants
import VisaEligibility.Proofs.Expression.NegationNormalForm
import VisaEligibility.Proofs.Expression.Indeterminacy
import VisaEligibility.Proofs.Expression.Membership
import VisaEligibility.Proofs.Expression.OperandOrder
import VisaEligibility.Proofs.Rule.Aggregation
import VisaEligibility.Proofs.Rule.NewestVersion
import VisaEligibility.Proofs.Retrieval.Ranking
import VisaEligibility.Proofs.Reasoning.FactOrder
import VisaEligibility.Proofs.Program.Trials
import VisaEligibility.Proofs.Reasoning.Deadlines
import VisaEligibility.Proofs.Response.Spans
import VisaEligibility.Proofs.Verdict.Stripping
import VisaEligibility.Proofs.Check.StoredTexts
import VisaEligibility.Proofs.Validation.EvaluationDate
import VisaEligibility.Proofs.Validation.Admission
import VisaEligibility.Proofs.Documents.ReviewOpening
import VisaEligibility.Proofs.Clock.ShuttingDown
import VisaEligibility.Proofs.Vectors.Rows
import VisaEligibility.Proofs.Configuration.Acceptance
import VisaEligibility.Proofs.Documents.LatestFacts
import VisaEligibility.Proofs.Documents.ResultMapping
import VisaEligibility.Proofs.Expression.Stopping
