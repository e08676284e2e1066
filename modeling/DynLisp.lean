import DynLisp.Main
import DynLisp.Proofs.Effects
import DynLisp.Proofs.Frames
import DynLisp.Proofs.Spelling
import DynLisp.Proofs.TokenLayout
import DynLisp.Proofs.Number.BitPattern
import DynLisp.Proofs.Number.PlainNotation
import DynLisp.Proofs.ReadBack
import DynLisp.Proofs.Approximation
import DynLisp.Proofs.Allowance
import DynLisp.Proofs.Names
import DynLisp.Proofs.Vocabulary
import DynLisp.Proofs.ListProgram
import DynLisp.Proofs.Resolution
import DynLisp.Proofs.Endings
import DynLisp.Proofs.Conditions
import DynLisp.Proofs.Correspondence
import DynLisp.Proofs.Simulation
import DynLisp.Proofs.Renaming
import DynLisp.Proofs.Unmentioned
import DynLisp.Proofs.Number.Layout
import DynLisp.Proofs.PartialOperations
import DynLisp.Proofs.Domains
import DynLisp.Proofs.Unexpected
import DynLisp.Proofs.Balance
import DynLisp.Proofs.Reading
import DynLisp.Proofs.Inert
import DynLisp.Proofs.Malformed
import DynLisp.Proofs.Repetition
import DynLisp.Proofs.Parameters
import DynLisp.Proofs.History
import DynLisp.Proofs.FirstFailure
import DynLisp.Proofs.References
import DynLisp.Proofs.Number.Exactness
import DynLisp.Proofs.Sameness
import DynLisp.Proofs.WrittenComparison
import DynLisp.Proofs.Number.Division
import DynLisp.Proofs.Calculation
import DynLisp.Proofs.Termination
