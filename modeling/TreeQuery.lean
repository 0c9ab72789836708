import TreeQuery.Decimal.Binary64
import TreeQuery.Decimal.Shortest
import TreeQuery.Directive.Basic
import TreeQuery.Directive.Error
import TreeQuery.Directive.Extract
import TreeQuery.Directive.Line
import TreeQuery.Flags.Basic
import TreeQuery.Flags.Names
import TreeQuery.Flags.Table
import TreeQuery.Json.Fault
import TreeQuery.Json.Number
import TreeQuery.Json.Record
import TreeQuery.Json.Token
import TreeQuery.Json.Unexpected
import TreeQuery.Json.Value
import TreeQuery.Log.Level
import TreeQuery.Log.Logger
import TreeQuery.Log.Traced
import TreeQuery.OrderedMap
import TreeQuery.Query.Accessor
import TreeQuery.Query.BaseClass
import TreeQuery.Query.Basic
import TreeQuery.Query.Destructuring
import TreeQuery.Query.Located
import TreeQuery.Query.Statement
import TreeQuery.Query.TupleReturn
import TreeQuery.Query.TypeKind
import TreeQuery.Settings.Basic
import TreeQuery.Settings.Load
import TreeQuery.Text.Blank
import TreeQuery.Text.Combining
import TreeQuery.Text.Invisible
import TreeQuery.Text.Quoted
import TreeQuery.Tree.Draft
import TreeQuery.Tree.File
import TreeQuery.Tree.Form
import TreeQuery.Tree.Fragment
import TreeQuery.Tree.Kind
import TreeQuery.Tree.Operator
import TreeQuery.Tree.Step
import TreeQuery.Types.Checker
import TreeQuery.Types.Symbol
import TreeQuery.Proofs.Outcome
import TreeQuery.Proofs.Tree.Edit
import TreeQuery.Proofs.Tree.Links
import TreeQuery.Proofs.Directive.Extraction
import TreeQuery.Proofs.Directive.Grammar
import TreeQuery.Proofs.Query.Answer
import TreeQuery.Proofs.Query.Location
import TreeQuery.Proofs.Directive.ReportedName
import TreeQuery.Proofs.Tree.Forest
import TreeQuery.Proofs.Query.Enclosing
import TreeQuery.Proofs.Query.Isomorphic
import TreeQuery.Proofs.Query.Order
import TreeQuery.Proofs.Tree.Content
import TreeQuery.Proofs.Query.Inside
import TreeQuery.Proofs.Directive.WrittenBack
import TreeQuery.Proofs.Directive.Insertion
import TreeQuery.Proofs.Json.Grammar
import TreeQuery.Proofs.Json.Text
import TreeQuery.Proofs.Json.Members
import TreeQuery.Proofs.Json.Number
import TreeQuery.Proofs.Json.Value
import TreeQuery.Proofs.Json.Record
import TreeQuery.Proofs.Json.Decided
import TreeQuery.Proofs.Settings.Accepted
import TreeQuery.Proofs.Settings.Foreign
import TreeQuery.Proofs.Settings.Strict
import TreeQuery.Proofs.Flags.Bits
import TreeQuery.Proofs.Flags.Masks
import TreeQuery.Proofs.Flags.Described
import TreeQuery.Proofs.Flags.Determined
import TreeQuery.Proofs.Query.Destructured
import TreeQuery.Proofs.Query.Messages
import TreeQuery.Proofs.Query.OneNode
import TreeQuery.Proofs.Directive.Messages
import TreeQuery.Proofs.Query.Inherited
import TreeQuery.Proofs.Directive.Trace
import TreeQuery.Proofs.Query.Discarded
import TreeQuery.Proofs.Query.Accessed
import TreeQuery.Proofs.Query.FirstBase
import TreeQuery.Proofs.Tree.Ascent
import TreeQuery.Proofs.Query.Module
import TreeQuery.Proofs.Tree.Missing
import TreeQuery.Proofs.Json.Forms
import TreeQuery.Proofs.Settings.Forms
import TreeQuery.Proofs.Log.Printed
import TreeQuery.Proofs.Tree.Wrapped
import TreeQuery.Proofs.Text.Quoted
import TreeQuery.Proofs.Tree.Description
