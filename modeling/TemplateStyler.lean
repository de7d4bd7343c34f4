import TemplateStyler.Main
import TemplateStyler.Session
import TemplateStyler.Style.Look
import TemplateStyler.Proofs.Lexeme.Names
import TemplateStyler.Proofs.Lexeme.Line
import TemplateStyler.Proofs.Lexeme.Scan
import TemplateStyler.Proofs.Lexeme.Partition
import TemplateStyler.Proofs.Lexeme.Agreement
import TemplateStyler.Proofs.State.Consistent
import TemplateStyler.Proofs.Styler.Course
import TemplateStyler.Proofs.Styler.Colours
import TemplateStyler.Proofs.Styler.Marks
import TemplateStyler.Proofs.Styler.Pass
import TemplateStyler.Proofs.Buffer
import TemplateStyler.Proofs.Session.Step
import TemplateStyler.Proofs.Session.Reachable
import TemplateStyler.Proofs.Styler.Literal
import TemplateStyler.Proofs.Session.Request
import TemplateStyler.Proofs.Session.Settle
import TemplateStyler.Proofs.Session.Script
import TemplateStyler.Proofs.Session.Stop
import TemplateStyler.Proofs.State.Modes
import TemplateStyler.Proofs.Styler.Compose
import TemplateStyler.Proofs.Styler.Returning
import TemplateStyler.Proofs.Session.Frontier
import TemplateStyler.Proofs.Session.Onward
import TemplateStyler.Proofs.Text.Lines
import TemplateStyler.Proofs.Block.Section
import TemplateStyler.Proofs.Block.Rewrite
import TemplateStyler.Proofs.Block.Normalized
import TemplateStyler.Proofs.Directive.Restore
import TemplateStyler.Proofs.Format
import TemplateStyler.Proofs.Directive.Hidden
import TemplateStyler.Proofs.Session.Cover
import TemplateStyler.Proofs.Block.Place
import TemplateStyler.Proofs.Directive.Checked
import TemplateStyler.Proofs.Check.Report
import TemplateStyler.Proofs.Check.Place
import TemplateStyler.Proofs.Lexeme.First
import TemplateStyler.Proofs.Lexeme.Quoted
import TemplateStyler.Proofs.Styler.Quoted
import TemplateStyler.Proofs.Styler.Extension
import TemplateStyler.Proofs.Styler.Comment
import TemplateStyler.Proofs.Lexeme.Returns
import TemplateStyler.Proofs.Styler.Returns
import TemplateStyler.Proofs.Styler.Delimiters
import TemplateStyler.Proofs.Directive.Tokens
import TemplateStyler.Proofs.Directive.Written
import TemplateStyler.Proofs.Check.Complete
import TemplateStyler.Proofs.Directive.Spelling
import TemplateStyler.Proofs.Directive.Canonical
import TemplateStyler.Proofs.Styler.Unclosed
import TemplateStyler.Proofs.Check.Returns
import TemplateStyler.Proofs.Block.Pairing
import TemplateStyler.Proofs.State.Causes
import TemplateStyler.Proofs.Lexeme.LineStart
import TemplateStyler.Proofs.Lexeme.Identifiers
import TemplateStyler.Proofs.Styler.BlockMarks
import TemplateStyler.Proofs.Styler.Names
import TemplateStyler.Proofs.CommandLine.Record
import TemplateStyler.Proofs.Directive.Columns
import TemplateStyler.Proofs.Lexeme.Bounded
import TemplateStyler.Proofs.Session.Aside
import TemplateStyler.Proofs.Buffer.Cursor
