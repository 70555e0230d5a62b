import QueryPushdown.Request.Draft
import QueryPushdown.Request.Equality
import QueryPushdown.Store.Session
import QueryPushdown.Value.JsonReader
import QueryPushdown.Proofs.Eval.Yields
import QueryPushdown.Proofs.Eval.Tolerance
import QueryPushdown.Proofs.Eval.Agreement
import QueryPushdown.Proofs.Request.Operands
import QueryPushdown.Proofs.Eval.Congruence
import QueryPushdown.Proofs.Transform.Moving
import QueryPushdown.Proofs.Transform.Cutting
import QueryPushdown.Proofs.Transform.Splitting
import QueryPushdown.Proofs.Engine.Planning
import QueryPushdown.Proofs.Typing.Scoping
import QueryPushdown.Proofs.Engine.Soundness
import QueryPushdown.Proofs.Typing.Inhabits
import QueryPushdown.Proofs.Typing.Safety
import QueryPushdown.Proofs.Typing.Operators
import QueryPushdown.Proofs.Eval.Sorting
import QueryPushdown.Proofs.Typing.Inference
import QueryPushdown.Proofs.Typing.Evaluated
import QueryPushdown.Proofs.Typing.Soundness
import QueryPushdown.Proofs.Document.Answers
import QueryPushdown.Proofs.Engine.Documents
import QueryPushdown.Proofs.Engine.Pushdown
import QueryPushdown.Proofs.Request.Drafts
import QueryPushdown.Proofs.Document.Staging
import QueryPushdown.Proofs.Engine.Lookups
import QueryPushdown.Proofs.Sql.Decoding
import QueryPushdown.Proofs.Document.Verdicts
import QueryPushdown.Proofs.Store.Replays
import QueryPushdown.Proofs.Eval.Strict
import QueryPushdown.Proofs.Transform.Bindings
import QueryPushdown.Proofs.Transform.Reading
import QueryPushdown.Proofs.Transform.Shifting
import QueryPushdown.Proofs.Eval.Aligned
import QueryPushdown.Proofs.Eval.Backed
import QueryPushdown.Proofs.Eval.Grouping
import QueryPushdown.Proofs.Eval.Yielding
import QueryPushdown.Proofs.Sql.Aggregates
import QueryPushdown.Proofs.Value.Classes
import QueryPushdown.Proofs.Eval.Partition
import QueryPushdown.Proofs.Transform.Sharing
import QueryPushdown.Proofs.Eval.Ranking
import QueryPushdown.Proofs.Sql.Meaning
import QueryPushdown.Proofs.Sql.Grouping
import QueryPushdown.Proofs.Value.Coherence
import QueryPushdown.Proofs.Eval.Stability
import QueryPushdown.Proofs.Eval.Ends
import QueryPushdown.Proofs.Typing.Calm
import QueryPushdown.Proofs.Engine.Consulting
import QueryPushdown.Proofs.Engine.Protocol
import QueryPushdown.Proofs.Engine.Slicing
import QueryPushdown.Proofs.Sql.Lockstep
import QueryPushdown.Proofs.Sql.Parameters
import QueryPushdown.Proofs.Sql.Delimited
import QueryPushdown.Proofs.Typing.Joining
