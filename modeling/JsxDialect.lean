import JsxDialect.Check.Class
import JsxDialect.Check.Declaration
import JsxDialect.Check.Tree
import JsxDialect.Command.Files
import JsxDialect.Command.Invocation
import JsxDialect.Command.Report
import JsxDialect.Command.Run
import JsxDialect.Command.SourceMap
import JsxDialect.Compile
import JsxDialect.Config.Json
import JsxDialect.Config.Options
import JsxDialect.Diagnostic
import JsxDialect.Element.Attribute
import JsxDialect.Element.Binder
import JsxDialect.Element.Children
import JsxDialect.Element.Tag
import JsxDialect.Element.Text
import JsxDialect.Fixture
import JsxDialect.Header
import JsxDialect.Helper
import JsxDialect.Lower.Bind
import JsxDialect.Lower.Children
import JsxDialect.Lower.ClassName
import JsxDialect.Lower.ComponentClass
import JsxDialect.Lower.ControlFlow
import JsxDialect.Lower.Controlled
import JsxDialect.Lower.Element
import JsxDialect.Lower.Lift
import JsxDialect.Lower.Reference
import JsxDialect.Lower.State
import JsxDialect.Lower.Style
import JsxDialect.Lower.Walk
import JsxDialect.Main
import JsxDialect.Normal
import JsxDialect.Number.Basic
import JsxDialect.Number.Compact
import JsxDialect.Number.Decimal
import JsxDialect.Options.Basic
import JsxDialect.Parse.Class
import JsxDialect.Parse.Expression
import JsxDialect.Parse.Function
import JsxDialect.Parse.Markup
import JsxDialect.Parse.Module
import JsxDialect.Parse.Pattern
import JsxDialect.Parse.Primary
import JsxDialect.Parse.State
import JsxDialect.Parse.Statement
import JsxDialect.Parse.Type
import JsxDialect.Print.Level
import JsxDialect.Print.Literal
import JsxDialect.Print.Tree
import JsxDialect.Scope
import JsxDialect.Source.Compile
import JsxDialect.Source.Prepared
import JsxDialect.Style.Declaration
import JsxDialect.Style.Merge
import JsxDialect.Syntax.Basic
import JsxDialect.Syntax.Build
import JsxDialect.Syntax.Declared
import JsxDialect.Syntax.Inner
import JsxDialect.Syntax.Occurrence
import JsxDialect.Table
import JsxDialect.Text.Blank
import JsxDialect.Text.Case
import JsxDialect.Text.CaseTable
import JsxDialect.Text.Identifier
import JsxDialect.Text.IdentifierTable
import JsxDialect.Token.Basic
import JsxDialect.Token.Scan
import JsxDialect.Proofs.Frames
import JsxDialect.Proofs.Names
import JsxDialect.Proofs.Occurrence
import JsxDialect.Proofs.Discipline
import JsxDialect.Proofs.Attributes
import JsxDialect.Proofs.ControlFlow
import JsxDialect.Proofs.Elements
import JsxDialect.Proofs.Declared
import JsxDialect.Proofs.Opening
import JsxDialect.Proofs.Walk
import JsxDialect.Proofs.Compiled
import JsxDialect.Proofs.ControlFree
import JsxDialect.Proofs.Slots
import JsxDialect.Proofs.Capture
import JsxDialect.Proofs.Insertion
import JsxDialect.Proofs.Offset
import JsxDialect.Proofs.Children
import JsxDialect.Proofs.Evaluation
import JsxDialect.Proofs.Nesting
import JsxDialect.Proofs.Written
import JsxDialect.Proofs.Contents
import JsxDialect.Proofs.Idle
import JsxDialect.Proofs.Composed
import JsxDialect.Proofs.Quiet
import JsxDialect.Proofs.Visits
import JsxDialect.Proofs.Linear
import JsxDialect.Proofs.Component
import JsxDialect.Proofs.RuntimeStyles
import JsxDialect.Proofs.Strict
import JsxDialect.Proofs.Settled
import JsxDialect.Proofs.StyleAttribute
import JsxDialect.Proofs.Declarations
import JsxDialect.Proofs.FunctionNames
import JsxDialect.Proofs.ValidFunctions
import JsxDialect.Proofs.TopLevel
import JsxDialect.Proofs.Origin
import JsxDialect.Proofs.KnownAttributes
import JsxDialect.Proofs.KnownElements
import JsxDialect.Proofs.KnownWalk
import JsxDialect.Proofs.EarlyErrors
import JsxDialect.Proofs.FreeNames
import JsxDialect.Proofs.Hidden
import JsxDialect.Proofs.Introduced
import JsxDialect.Proofs.ShownText
import JsxDialect.Proofs.Directives
import JsxDialect.Proofs.ModuleScope
import JsxDialect.Proofs.NamedChildren
import JsxDialect.Proofs.RenderFunctions
import JsxDialect.Proofs.KeptObjects
import JsxDialect.Proofs.GroupKeys
import JsxDialect.Proofs.BinderLists
import JsxDialect.Proofs.HoistedNames
import JsxDialect.Proofs.Constructors
import JsxDialect.Proofs.MarkupText
import JsxDialect.Proofs.Placement
import JsxDialect.Proofs.PropertyNames
