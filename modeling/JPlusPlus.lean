import JPlusPlus.Text.Blank
import JPlusPlus.Text.Json
import JPlusPlus.Text.Lines
import JPlusPlus.Text.Outline
import JPlusPlus.Text.Printable
import JPlusPlus.Text.Quoted
import JPlusPlus.Text.Utf8
import JPlusPlus.Token.Basic
import JPlusPlus.Token.Listing
import JPlusPlus.Token.Scan
import JPlusPlus.Token.Unit
import JPlusPlus.Program.Basic
import JPlusPlus.Program.Lower
import JPlusPlus.Program.Outline
import JPlusPlus.Program.Parse.Expr
import JPlusPlus.Program.Parse.Reading
import JPlusPlus.Program.Parse.Stmt
import JPlusPlus.Typing.Check
import JPlusPlus.Typing.Table
import JPlusPlus.Script.Basic
import JPlusPlus.Script.Text
import JPlusPlus.Compile.Basic
import JPlusPlus.Compile.Fault
import JPlusPlus.Compile.Result
import JPlusPlus.File.Path
import JPlusPlus.File.Tree
import JPlusPlus.Command.Failure
import JPlusPlus.Command.Request
import JPlusPlus.Command.Run
import JPlusPlus.Command.Session
import JPlusPlus.Main
import JPlusPlus.Proofs.Parse.Grammar
import JPlusPlus.Proofs.Parse.Reads
import JPlusPlus.Proofs.Parse.Exact
import JPlusPlus.Proofs.Token.Render
import JPlusPlus.Proofs.Parse.Print
import JPlusPlus.Proofs.Scope.Place
import JPlusPlus.Proofs.Scope.Visible
import JPlusPlus.Proofs.Scope.Check
import JPlusPlus.Proofs.Scope.Script
import JPlusPlus.Proofs.Token.Slices
import JPlusPlus.Proofs.Script.Forms
import JPlusPlus.Proofs.Script.Lines
import JPlusPlus.Proofs.Script.Normal
import JPlusPlus.Proofs.Run.Point
import JPlusPlus.Proofs.Run.Value
import JPlusPlus.Proofs.Run.Machine
import JPlusPlus.Proofs.Run.Sound
import JPlusPlus.Proofs.Token.Lexable
import JPlusPlus.Proofs.File.Path
import JPlusPlus.Proofs.File.Tree
import JPlusPlus.Proofs.Command.Session
import JPlusPlus.Proofs.Command.Single
import JPlusPlus.Proofs.Text.Json
import JPlusPlus.Proofs.Text.Outline
import JPlusPlus.Proofs.Program.Outline
import JPlusPlus.Proofs.Command.Formats
import JPlusPlus.Proofs.File.Name
import JPlusPlus.Proofs.File.Order
import JPlusPlus.Proofs.File.Entry
import JPlusPlus.Proofs.File.Walk
import JPlusPlus.Proofs.Command.Directory
import JPlusPlus.Proofs.Typing.Recorded
import JPlusPlus.Proofs.Typing.Mentioned
import JPlusPlus.Proofs.Typing.Bound
import JPlusPlus.Proofs.Parse.WellFormed
import JPlusPlus.Proofs.Script.Literals
import JPlusPlus.Proofs.Script.Lexeme
import JPlusPlus.Proofs.Script.Legal
import JPlusPlus.Proofs.Compile.Legal
import JPlusPlus.Proofs.Parse.Numerals
import JPlusPlus.Proofs.Script.Layout
import JPlusPlus.Proofs.Token.Lines
import JPlusPlus.Proofs.Parse.Cursor
import JPlusPlus.Proofs.Parse.Ahead
import JPlusPlus.Proofs.Script.Source
import JPlusPlus.Proofs.Token.Listing
import JPlusPlus.Proofs.Parse.Calls
import JPlusPlus.Proofs.Compile.Progress
