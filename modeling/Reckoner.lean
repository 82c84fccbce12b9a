import Reckoner.Proofs.Calculator
import Reckoner.Proofs.Environment.CopyShape
import Reckoner.Proofs.Environment.InStep
import Reckoner.Proofs.Environment.Lines
import Reckoner.Proofs.Environment.Listing
import Reckoner.Proofs.Environment.Snapshot
import Reckoner.Proofs.Expr.Agreement
import Reckoner.Proofs.Expr.Binding
import Reckoner.Proofs.Expr.Correctness
import Reckoner.Proofs.Expr.Located
import Reckoner.Proofs.Expr.Moved
import Reckoner.Proofs.Expr.Plain
import Reckoner.Proofs.Expr.Reads
import Reckoner.Proofs.Expr.Safety
import Reckoner.Proofs.Expr.Sequencing
import Reckoner.Proofs.Expr.SourceMap
import Reckoner.Proofs.Grammar.Statements
import Reckoner.Proofs.Program.Calls
import Reckoner.Proofs.Program.Dependency
import Reckoner.Proofs.Program.Places
import Reckoner.Proofs.Session
import Reckoner.Session
