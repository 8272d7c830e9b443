import BallerinaSyntax.Coverage
import BallerinaSyntax.Diagnostic.Basic
import BallerinaSyntax.Diagnostic.Message
import BallerinaSyntax.Diagnostic.Template
import BallerinaSyntax.Dialogue
import BallerinaSyntax.Forest
import BallerinaSyntax.Grammar.Assignment
import BallerinaSyntax.Grammar.Attachment
import BallerinaSyntax.Grammar.Callable
import BallerinaSyntax.Grammar.Climb
import BallerinaSyntax.Grammar.Compound
import BallerinaSyntax.Grammar.Definition
import BallerinaSyntax.Grammar.Expression
import BallerinaSyntax.Grammar.Goal
import BallerinaSyntax.Grammar.Import
import BallerinaSyntax.Grammar.Literal
import BallerinaSyntax.Grammar.Name
import BallerinaSyntax.Grammar.Parameter
import BallerinaSyntax.Grammar.Query
import BallerinaSyntax.Grammar.Reference
import BallerinaSyntax.Grammar.Rule
import BallerinaSyntax.Grammar.Service
import BallerinaSyntax.Grammar.Start
import BallerinaSyntax.Grammar.Statement
import BallerinaSyntax.Grammar.Stream
import BallerinaSyntax.Grammar.TypeName
import BallerinaSyntax.Grammar.Xml
import BallerinaSyntax.Interner
import BallerinaSyntax.Kind.Basic
import BallerinaSyntax.Kind.Class
import BallerinaSyntax.Kind.Name
import BallerinaSyntax.Kind.Text
import BallerinaSyntax.NodeInfo
import BallerinaSyntax.Operator
import BallerinaSyntax.Options.Basic
import BallerinaSyntax.Options.Json
import BallerinaSyntax.Options.JsonText
import BallerinaSyntax.Outline.Basic
import BallerinaSyntax.Outline.Tree
import BallerinaSyntax.Outline.Unit
import BallerinaSyntax.Parse.Basic
import BallerinaSyntax.Parse.Consume
import BallerinaSyntax.Parse.Node
import BallerinaSyntax.Parse.Recovery
import BallerinaSyntax.Parse.Report
import BallerinaSyntax.ParseTree
import BallerinaSyntax.Pool
import BallerinaSyntax.Program.Basic
import BallerinaSyntax.Program.Definition
import BallerinaSyntax.Program.Grammar
import BallerinaSyntax.Proofs.Behind
import BallerinaSyntax.Proofs.Bracketing
import BallerinaSyntax.Proofs.Capping
import BallerinaSyntax.Proofs.Contract
import BallerinaSyntax.Proofs.Covering
import BallerinaSyntax.Proofs.Cursor
import BallerinaSyntax.Proofs.Dialogue
import BallerinaSyntax.Proofs.Elsewhere
import BallerinaSyntax.Proofs.Enough
import BallerinaSyntax.Proofs.ErrorFlags
import BallerinaSyntax.Proofs.Everywhere
import BallerinaSyntax.Proofs.Following.Compound
import BallerinaSyntax.Proofs.Following.Definition
import BallerinaSyntax.Proofs.Following.Expression
import BallerinaSyntax.Proofs.Following.Judgement
import BallerinaSyntax.Proofs.Following.Literal
import BallerinaSyntax.Proofs.Following.Primitive
import BallerinaSyntax.Proofs.Following.Query
import BallerinaSyntax.Proofs.Following.Recovery
import BallerinaSyntax.Proofs.Following.Reference
import BallerinaSyntax.Proofs.Following.Rule
import BallerinaSyntax.Proofs.Following.Signature
import BallerinaSyntax.Proofs.Following.Statement
import BallerinaSyntax.Proofs.Following.TypeName
import BallerinaSyntax.Proofs.Following.Xml
import BallerinaSyntax.Proofs.Grouping.Basic
import BallerinaSyntax.Proofs.Grouping.Compound
import BallerinaSyntax.Proofs.Grouping.Definition
import BallerinaSyntax.Proofs.Grouping.Expression
import BallerinaSyntax.Proofs.Grouping.Judgement
import BallerinaSyntax.Proofs.Grouping.Literal
import BallerinaSyntax.Proofs.Grouping.Primitive
import BallerinaSyntax.Proofs.Grouping.Query
import BallerinaSyntax.Proofs.Grouping.Reference
import BallerinaSyntax.Proofs.Grouping.Rule
import BallerinaSyntax.Proofs.Grouping.Statement
import BallerinaSyntax.Proofs.Grouping.TypeName
import BallerinaSyntax.Proofs.Grouping.Xml
import BallerinaSyntax.Proofs.Halting.Callable
import BallerinaSyntax.Proofs.Halting.Compound
import BallerinaSyntax.Proofs.Halting.Definition
import BallerinaSyntax.Proofs.Halting.Expression
import BallerinaSyntax.Proofs.Halting.Judgement
import BallerinaSyntax.Proofs.Halting.Literal
import BallerinaSyntax.Proofs.Halting.Primitive
import BallerinaSyntax.Proofs.Halting.Query
import BallerinaSyntax.Proofs.Halting.Recovery
import BallerinaSyntax.Proofs.Halting.Reference
import BallerinaSyntax.Proofs.Halting.Signature
import BallerinaSyntax.Proofs.Halting.Statement
import BallerinaSyntax.Proofs.Halting.TypeName
import BallerinaSyntax.Proofs.Halting.Unit
import BallerinaSyntax.Proofs.Halting.Xml
import BallerinaSyntax.Proofs.Json.Grammar
import BallerinaSyntax.Proofs.Json.Object
import BallerinaSyntax.Proofs.Json.Reading
import BallerinaSyntax.Proofs.Json.Skipping
import BallerinaSyntax.Proofs.Lookalike
import BallerinaSyntax.Proofs.Nesting
import BallerinaSyntax.Proofs.Nodes
import BallerinaSyntax.Proofs.Outcome
import BallerinaSyntax.Proofs.Parts
import BallerinaSyntax.Proofs.Phrase.Basic
import BallerinaSyntax.Proofs.Phrase.Climb
import BallerinaSyntax.Proofs.Phrase.Descent
import BallerinaSyntax.Proofs.Phrase.Documentation
import BallerinaSyntax.Proofs.Phrase.Enclosed
import BallerinaSyntax.Proofs.Phrase.Inversion
import BallerinaSyntax.Proofs.Phrase.Name
import BallerinaSyntax.Proofs.Phrase.Reference
import BallerinaSyntax.Proofs.Phrase.Standalone
import BallerinaSyntax.Proofs.Phrase.Straight
import BallerinaSyntax.Proofs.Phrase.Text
import BallerinaSyntax.Proofs.Phrase.TypeName
import BallerinaSyntax.Proofs.Phrase.Unit
import BallerinaSyntax.Proofs.Phrase.Xml
import BallerinaSyntax.Proofs.Placeholder
import BallerinaSyntax.Proofs.Placement
import BallerinaSyntax.Proofs.Primitive
import BallerinaSyntax.Proofs.Program.Effect
import BallerinaSyntax.Proofs.Program.Machine
import BallerinaSyntax.Proofs.Reading.Callable
import BallerinaSyntax.Proofs.Reading.Compound
import BallerinaSyntax.Proofs.Reading.Definition
import BallerinaSyntax.Proofs.Reading.Expression
import BallerinaSyntax.Proofs.Reading.Literal
import BallerinaSyntax.Proofs.Reading.Query
import BallerinaSyntax.Proofs.Reading.Reference
import BallerinaSyntax.Proofs.Reading.Signature
import BallerinaSyntax.Proofs.Reading.Statement
import BallerinaSyntax.Proofs.Reading.TypeName
import BallerinaSyntax.Proofs.Reading.Unit
import BallerinaSyntax.Proofs.Reading.Xml
import BallerinaSyntax.Proofs.Recovery
import BallerinaSyntax.Proofs.Renaming
import BallerinaSyntax.Proofs.Requests
import BallerinaSyntax.Proofs.RoundTrip
import BallerinaSyntax.Proofs.Sharing
import BallerinaSyntax.Proofs.Speculation
import BallerinaSyntax.Proofs.StoredTokens
import BallerinaSyntax.Proofs.Stray
import BallerinaSyntax.Proofs.Successive
import BallerinaSyntax.Proofs.Termination
import BallerinaSyntax.Proofs.TooDeep
import BallerinaSyntax.Proofs.Unclosed
import BallerinaSyntax.Proofs.Unmoved
import BallerinaSyntax.Proofs.Violation
import BallerinaSyntax.Range
import BallerinaSyntax.Relabel
import BallerinaSyntax.Session
import BallerinaSyntax.Token.Basic
import BallerinaSyntax.Token.Buffer
import BallerinaSyntax.Token.Cursor
import BallerinaSyntax.Token.Source
import BallerinaSyntax.Trace
import BallerinaSyntax.Tree.Basic
import BallerinaSyntax.Tree.Info
import BallerinaSyntax.Tree.Leaf
import BallerinaSyntax.Tree.Unit
import BallerinaSyntax.Tree.Walk
