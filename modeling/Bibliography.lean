import Bibliography.Text.Class
import Bibliography.Text.Number
import Bibliography.Text.Case
import Bibliography.Text.Quoted
import Bibliography.Document
import Bibliography.Source.Cursor
import Bibliography.Latex
import Bibliography.Record
import Bibliography.Layout
import Bibliography.Options
import Bibliography.Tidy
import Bibliography.FileTree
import Bibliography.Arguments
import Bibliography.Session
import Bibliography.Command
import Bibliography.Outline
import Bibliography.Main
import Bibliography.Proofs.Source.Grammar
import Bibliography.Proofs.Source.Values
import Bibliography.Proofs.Source.Entries
import Bibliography.Proofs.Source.Sound
import Bibliography.Proofs.Layout
import Bibliography.Proofs.Render
import Bibliography.Proofs.Source.Items
import Bibliography.Proofs.Source.Within
import Bibliography.Proofs.Source.Trace
import Bibliography.Proofs.Assembly
import Bibliography.Proofs.Tidy
import Bibliography.Proofs.RoundTrip
import Bibliography.Proofs.Idempotence
import Bibliography.Proofs.Stuck
import Bibliography.Proofs.Latex.Depth
import Bibliography.Proofs.Latex.Range
import Bibliography.Proofs.Latex.Rows
import Bibliography.Proofs.Escaped
import Bibliography.Proofs.Source.Append
import Bibliography.Proofs.Source.Homes
import Bibliography.Proofs.Source.Concatenation
import Bibliography.Proofs.Merge
import Bibliography.Proofs.Accounts
import Bibliography.Proofs.Comments
import Bibliography.Proofs.Verbatim
import Bibliography.Proofs.Text.CaseFences
import Bibliography.Proofs.Balance
import Bibliography.Proofs.Rereading
import Bibliography.Proofs.Delimiters
import Bibliography.Proofs.Choice
import Bibliography.Proofs.Lists
import Bibliography.Proofs.Filling
import Bibliography.Proofs.Groups
import Bibliography.Proofs.Surname
import Bibliography.Proofs.OneLine
import Bibliography.Proofs.Wrapping
import Bibliography.Proofs.Metadata
import Bibliography.Proofs.Keys
import Bibliography.Proofs.Latex.Settled
import Bibliography.Proofs.TitleCase
import Bibliography.Proofs.Rerendering
import Bibliography.Proofs.Options
import Bibliography.Proofs.Command
import Bibliography.Proofs.Omission
import Bibliography.Proofs.Report
import Bibliography.Proofs.FieldOrder
import Bibliography.Proofs.Source.Rounds
