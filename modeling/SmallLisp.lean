import SmallLisp.Main
import SmallLisp.Proofs.Command.Run
import SmallLisp.Proofs.Eval.Covered
import SmallLisp.Proofs.Eval.Depth
import SmallLisp.Proofs.Eval.Division
import SmallLisp.Proofs.Eval.Inlining
import SmallLisp.Proofs.Eval.Lookup
import SmallLisp.Proofs.Eval.Sequence
import SmallLisp.Proofs.Eval.Typing
import SmallLisp.Proofs.Eval.Wrapping
import SmallLisp.Proofs.Number.Equality
import SmallLisp.Proofs.Reader.Calls
import SmallLisp.Proofs.Session.Prompt
import SmallLisp.Proofs.Session.Reserved
import SmallLisp.Proofs.Session.Sources
import SmallLisp.Proofs.Session.Tracing
import SmallLisp.Proofs.Store.Calls
import SmallLisp.Proofs.Store.Chains
import SmallLisp.Proofs.Store.Isolation
import SmallLisp.Proofs.Store.Termination
import SmallLisp.Proofs.Store.View
import SmallLisp.Proofs.Token.Layout
import SmallLisp.Proofs.Token.Lossless
import SmallLisp.Proofs.Token.Scans
import SmallLisp.Proofs.Token.Stray
import SmallLisp.Proofs.Value.Data
import SmallLisp.Proofs.Value.Equality
