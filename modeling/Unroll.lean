import Unroll.Expr.Equality
import Unroll.Expr.Printer
import Unroll.LogFilter
import Unroll.Proofs.Expr.Spans
import Unroll.Proofs.Instantiation.Complete
import Unroll.Proofs.Instantiation.Idempotent
import Unroll.Proofs.Instantiation.Loop
import Unroll.Proofs.Instantiation.Order
import Unroll.Proofs.Instantiation.Repetition
import Unroll.Proofs.Instantiation.Unwrap
import Unroll.Proofs.Resolver.Coherence
import Unroll.Proofs.Resolver.Concrete
import Unroll.Proofs.Resolver.Elements
import Unroll.Proofs.Resolver.Embeds
import Unroll.Proofs.Resolver.Failure
import Unroll.Proofs.Resolver.Indexing
import Unroll.Proofs.Resolver.Keys
import Unroll.Proofs.Resolver.LoopIds
import Unroll.Proofs.Resolver.LoopVariables
import Unroll.Proofs.Resolver.Members
import Unroll.Proofs.Resolver.Reads
import Unroll.Proofs.Resolver.Stack
import Unroll.Proofs.Substitution.Composition
import Unroll.Proofs.Substitution.Frame
import Unroll.Proofs.Substitution.Rules
import Unroll.Proofs.Substitution.Structural
import Unroll.Proofs.Table.Aliases
import Unroll.Proofs.Table.Growth
import Unroll.Proofs.Table.Interning
import Unroll.Proofs.Table.Layers
import Unroll.Proofs.Table.Marks
import Unroll.Proofs.Table.Names
import Unroll.Proofs.Table.Renaming
import Unroll.Proofs.Table.Run
import Unroll.Proofs.Table.Unfolding
import Unroll.Proofs.Table.WellBuilt
import Unroll.Proofs.TypeId.Packing
import Unroll.Report.Outcome
import Unroll.Resolver.Typing
import Unroll.TypeId.Lemmas
