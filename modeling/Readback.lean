import Readback.Main
import Readback.Value.Sketch
import Readback.Proofs.Value.Prototype
import Readback.Proofs.Value.Failure
import Readback.Proofs.Grammar.Yields
import Readback.Proofs.Grammar.Sound
import Readback.Proofs.Grammar.Derives
import Readback.Proofs.Grammar.Complete
import Readback.Proofs.Grammar.Read
import Readback.Proofs.Grammar.Extent
import Readback.Proofs.Grammar.Transport
import Readback.Proofs.Grammar.Moved
import Readback.Proofs.Token.Fence
import Readback.Proofs.Token.Gap
import Readback.Proofs.Grammar.Cut
import Readback.Proofs.Snippet.Inert
import Readback.Proofs.Snippet.Remainder
import Readback.Proofs.Snippet.Expression
import Readback.Proofs.Grammar.Start
import Readback.Proofs.Grammar.Label
import Readback.Proofs.Snippet.Stable
import Readback.Proofs.Snippet.Agreement
import Readback.Proofs.Number.Rounding
import Readback.Proofs.Number.Spelling
import Readback.Proofs.Token.Literal
import Readback.Proofs.Grammar.Context
import Readback.Proofs.Date.Calendar
import Readback.Proofs.Value.Walk
import Readback.Proofs.Value.Apart
import Readback.Proofs.Token.Lexeme
import Readback.Proofs.Grammar.Layer
import Readback.Proofs.Grammar.Spot
import Readback.Proofs.Grammar.Written
import Readback.Proofs.Date.Text
import Readback.Proofs.Value.Match
import Readback.Proofs.Grammar.Fill
import Readback.Proofs.Value.Legible
import Readback.Proofs.Value.Recall
import Readback.Proofs.Grammar.Back
import Readback.Proofs.Grammar.Piece
import Readback.Proofs.Value.Faithful
import Readback.Proofs.Value.Makes
import Readback.Proofs.Session.History
import Readback.Proofs.Value.Reprint
import Readback.Proofs.Grammar.Formed
import Readback.Proofs.Grammar.Local
import Readback.Proofs.Snippet.Accepted
import Readback.Proofs.Session.Names
import Readback.Proofs.Tree.Node
import Readback.Proofs.Grammar.Copy
import Readback.Proofs.Grammar.Layout
import Readback.Proofs.Session.Silent
import Readback.Proofs.Grammar.Compose
import Readback.Proofs.Grammar.Walk
import Readback.Proofs.Grammar.Spans
import Readback.Proofs.Number.Source
import Readback.Proofs.Grammar.Divide
import Readback.Proofs.Grammar.Guarded
import Readback.Proofs.Grammar.Slices
import Readback.Proofs.Grammar.Ending
import Readback.Proofs.Value.Selector
import Readback.Proofs.Number.Nearest
import Readback.Proofs.Number.Radix
import Readback.Proofs.Token.Lossless
import Readback.Proofs.Grammar.Refusal
import Readback.Proofs.Snippet.Rejected
