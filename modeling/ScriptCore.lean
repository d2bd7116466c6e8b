import ScriptCore.Bench
import ScriptCore.Native.Probe
import ScriptCore.Program
import ScriptCore.Ty.Description
import ScriptCore.Proofs.Lowering.Derivation
import ScriptCore.Proofs.Lowering.Rules
import ScriptCore.Proofs.Node.Parts
import ScriptCore.Proofs.Node.Typed
import ScriptCore.Proofs.Scope.Admitted
import ScriptCore.Proofs.Lowering.WellTyped
import ScriptCore.Proofs.Eval.Return
import ScriptCore.Proofs.Eval.Fits
import ScriptCore.Proofs.Eval.TypeSafety
import ScriptCore.Proofs.Session.History
import ScriptCore.Proofs.Ty.OverloadName
import ScriptCore.Proofs.Session.TypeSafety
import ScriptCore.Proofs.Session.Start
import ScriptCore.Proofs.Eval.Evolution
import ScriptCore.Proofs.Node.FirstOrder
import ScriptCore.Proofs.Node.Resolved
import ScriptCore.Proofs.Store.Sight
import ScriptCore.Proofs.Eval.Resolution
import ScriptCore.Proofs.Lowering.Sight
import ScriptCore.Proofs.Lowering.Resolution
import ScriptCore.Proofs.Session.Resolution
import ScriptCore.Proofs.Eval.Encapsulation
import ScriptCore.Proofs.Scope.Indices
import ScriptCore.Proofs.Session.Persistence
import ScriptCore.Proofs.Scope.Extends
import ScriptCore.Proofs.Scope.Extensions
import ScriptCore.Proofs.Lowering.Kept
import ScriptCore.Proofs.Lowering.Stack
import ScriptCore.Proofs.Lowering.Extensions
import ScriptCore.Proofs.Session.Overloads
import ScriptCore.Proofs.Eval.Straight
import ScriptCore.Proofs.Session.Agreement
import ScriptCore.Proofs.Lowering.Declarations
import ScriptCore.Proofs.Store.Roots
import ScriptCore.Proofs.Eval.Roots
import ScriptCore.Proofs.Eval.Course
import ScriptCore.Proofs.Session.Calls
import ScriptCore.Proofs.Node.Layers
import ScriptCore.Proofs.Lowering.Layers
import ScriptCore.Proofs.Eval.Worlds
import ScriptCore.Proofs.Eval.Watched
import ScriptCore.Proofs.Eval.Closures
import ScriptCore.Proofs.Session.Closures
import ScriptCore.Proofs.Store.Linked
import ScriptCore.Proofs.Eval.Linked
import ScriptCore.Proofs.Eval.Alike
import ScriptCore.Proofs.Lowering.Statements
import ScriptCore.Proofs.Eval.Refusing
import ScriptCore.Proofs.Session.Modules
import ScriptCore.Proofs.Session.Splitting
import ScriptCore.Proofs.Lowering.Reserved
import ScriptCore.Proofs.Node.Tidy
import ScriptCore.Proofs.Eval.Suits
import ScriptCore.Proofs.Eval.Discipline
import ScriptCore.Proofs.Eval.Declaring
import ScriptCore.Proofs.Session.Redeclaration
import ScriptCore.Proofs.Lowering.Returns
import ScriptCore.Proofs.Lowering.Calls
import ScriptCore.Proofs.Session.Programs
import ScriptCore.Proofs.Attempt
import ScriptCore.Proofs.Node.Relined
import ScriptCore.Proofs.Lowering.Relined
import ScriptCore.Proofs.Value.Relined
import ScriptCore.Proofs.Store.Relined
import ScriptCore.Proofs.Eval.Relined
import ScriptCore.Proofs.Session.Relined
import ScriptCore.Proofs.Store.Search
import ScriptCore.Proofs.Store.Assignment
import ScriptCore.Proofs.Ty.Structural
import ScriptCore.Proofs.Eval.Traces
import ScriptCore.Proofs.Decimal.Nearest
import ScriptCore.Proofs.Decimal.OfInt
import ScriptCore.Proofs.Session.Comparison
import ScriptCore.Proofs.Store.Rehung
import ScriptCore.Proofs.Eval.Closed
import ScriptCore.Proofs.Store.Answers
import ScriptCore.Proofs.Eval.Answering
import ScriptCore.Proofs.Session.Callees
import ScriptCore.Proofs.Node.FunctionFree
import ScriptCore.Proofs.Lowering.FunctionFree
import ScriptCore.Proofs.Eval.UnitValues
import ScriptCore.Proofs.Session.BoundValues
import ScriptCore.Proofs.Lowering.Grouping
import ScriptCore.Proofs.Scope.Alike
import ScriptCore.Proofs.Lowering.Composition
import ScriptCore.Proofs.Lowering.Blocks
import ScriptCore.Proofs.Lowering.Records
