import GoFront.Build.CompileCall
import GoFront.Build.Desk.Effects
import GoFront.Build.Desk.Files
import GoFront.Build.Desk.Imports
import GoFront.Build.FileTask
import GoFront.Build.Machine
import GoFront.Build.Mailbox
import GoFront.Build.Notice
import GoFront.Build.Schedule
import GoFront.Build.Shutdown
import GoFront.Build.Unit.Audience
import GoFront.Build.Unit.File
import GoFront.Build.Unit.Package
import GoFront.Build.Unit.Record
import GoFront.Build.Unit.Status
import GoFront.Build.Unit.View
import GoFront.Build.Waiting.Graph
import GoFront.Build.Waiting.Search
import GoFront.Command.Arguments
import GoFront.Command.Run
import GoFront.Config
import GoFront.Decimal.Binary64
import GoFront.Decimal.Numeral
import GoFront.Decimal.Shortest
import GoFront.Diagnostic
import GoFront.Failure
import GoFront.Frontend
import GoFront.Lexer
import GoFront.Lexer.Literal
import GoFront.Lexer.Number
import GoFront.Lexer.Scan
import GoFront.Locator
import GoFront.Main
import GoFront.Names
import GoFront.Parser
import GoFront.Parser.Declaration
import GoFront.Parser.Group
import GoFront.Parser.Stream
import GoFront.Parser.Walk
import GoFront.Path
import GoFront.Proofs.Build.Awaiting
import GoFront.Proofs.Build.Dependency
import GoFront.Proofs.Build.Owed
import GoFront.Proofs.Build.Progress
import GoFront.Proofs.Build.Provenance
import GoFront.Proofs.Build.Replies
import GoFront.Proofs.Build.Run
import GoFront.Proofs.Build.Searching
import GoFront.Proofs.Build.Soundness
import GoFront.Proofs.Build.Step
import GoFront.Proofs.Build.Talk
import GoFront.Proofs.Build.Unit
import GoFront.Proofs.Build.Verdict
import GoFront.Proofs.Build.Waiting.Acyclic
import GoFront.Proofs.Build.Waiting.Cover
import GoFront.Proofs.Build.Waiting.Parents
import GoFront.Proofs.Build.Waiting.Search
import GoFront.Proofs.Names
import GoFront.Source.Position
import GoFront.Source.Span
import GoFront.SourceFile
import GoFront.Storage
import GoFront.Symbol
import GoFront.Symbol.Index
import GoFront.Text.Blank
import GoFront.Text.Bytes
import GoFront.Text.Combining
import GoFront.Text.Printable
import GoFront.Text.Quoted
import GoFront.Text.Ranges
import GoFront.Token
import GoFront.Vocabulary
import GoFront.Proofs.Build.Waiting.Cycle
import GoFront.Proofs.Build.Blame
import GoFront.Proofs.Build.Cycles
import GoFront.Proofs.Build.Answer
import GoFront.Proofs.Build.Repeat
import GoFront.Proofs.Build.Lifetime
import GoFront.Proofs.Build.Work
import GoFront.Proofs.Path
import GoFront.Proofs.Build.Once
import GoFront.Proofs.Build.Stopping
import GoFront.Proofs.Lexer.Signs
import GoFront.Proofs.Lexer.Cut
import GoFront.Proofs.Lexer.Lines
import GoFront.Proofs.Lexer.Layout
import GoFront.Proofs.Parser.Balance
import GoFront.Proofs.Parser.Nested
import GoFront.Proofs.Parser.Group
import GoFront.Proofs.Lexer.Semicolons
import GoFront.Proofs.Lexer.Rendering
import GoFront.Proofs.Lexer.LineEndings
import GoFront.Proofs.Parser.Likeness
import GoFront.Proofs.Parser.LineEndings
import GoFront.Proofs.Parser.Print
import GoFront.Proofs.Parser.RoundTrip
import GoFront.Proofs.Symbol.Site
import GoFront.Proofs.Symbol.Methods
import GoFront.Proofs.Symbol.Blank
import GoFront.Proofs.Symbol.Contents
import GoFront.Proofs.Lexer.Extent
import GoFront.Proofs.Lexer.Numeral
import GoFront.Proofs.Lexer.Decoding
import GoFront.Proofs.Lexer.Integers
import GoFront.Proofs.Parser.Tracing
import GoFront.Proofs.Parser.Findings
import GoFront.Proofs.Parser.Spans
import GoFront.Proofs.Parser.Grammar
import GoFront.Proofs.Parser.Recovery
import GoFront.Proofs.Parser.Functions
import GoFront.Proofs.Build.Collecting
import GoFront.Proofs.Build.FileLifecycle
import GoFront.Proofs.Build.PackageLifecycle
import GoFront.Proofs.Build.Record
import GoFront.Proofs.Build.TaskCourse
import GoFront.Proofs.Build.Waiting.Live
import GoFront.Proofs.Build.Waiting.Shortest
import GoFront.Proofs.Build.MemberLines
import GoFront.Proofs.Storage
import GoFront.Proofs.Locator
import GoFront.Proofs.Source.Position
import GoFront.Proofs.Symbol.Index
import GoFront.Proofs.Parser.Walk.Steps
import GoFront.Proofs.Parser.Walk.Grammar
import GoFront.Proofs.Parser.Walk.Reach
import GoFront.Proofs.Parser.Walk.Group
import GoFront.Proofs.Build.Mailbox
import GoFront.Proofs.Decimal.Numeral
import GoFront.Proofs.Lexer.Floats
