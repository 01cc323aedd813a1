import FilterSelect.Catalog
import FilterSelect.CommandLine.Arguments
import FilterSelect.CommandLine.Folder
import FilterSelect.CommandLine.Run
import FilterSelect.CommandLine.Source
import FilterSelect.Compiler.Basic
import FilterSelect.Compiler.Condition
import FilterSelect.Compiler.Error
import FilterSelect.Compiler.Scope
import FilterSelect.Config
import FilterSelect.Filter.Field
import FilterSelect.Filter.Operator
import FilterSelect.Filter.Tree
import FilterSelect.Json.Basic
import FilterSelect.Json.Number
import FilterSelect.Json.Reader
import FilterSelect.Json.Token
import FilterSelect.Json.Writer
import FilterSelect.Main
import FilterSelect.Number.Binary64
import FilterSelect.Number.Decimal
import FilterSelect.Number.Numeral
import FilterSelect.Options
import FilterSelect.Request.Basic
import FilterSelect.Request.Error
import FilterSelect.Request.OfJson
import FilterSelect.Service
import FilterSelect.Sql.Condition
import FilterSelect.Sql.Name
import FilterSelect.Sql.Quoted
import FilterSelect.Sql.Select
import FilterSelect.Text.AsciiCase
import FilterSelect.Text.Blank
import FilterSelect.Text.Extending
import FilterSelect.Text.Quoted
import FilterSelect.Text.Ranges
import FilterSelect.Text.Unprintable
import FilterSelect.Toml.Document
import FilterSelect.Toml.Quoted
import FilterSelect.Toml.Scalar
import FilterSelect.Toml.Statement
import FilterSelect.Toml.Token
import FilterSelect.Value.Basic
import FilterSelect.Value.Json
import FilterSelect.Proofs.Text.Trim
import FilterSelect.Proofs.Sql.Lexer
import FilterSelect.Proofs.Number.Binary64
import FilterSelect.Proofs.Number.Plain
import FilterSelect.Proofs.Number.Rounding
import FilterSelect.Proofs.Number.Literal
import FilterSelect.Proofs.Number.Shortest
import FilterSelect.Proofs.Number.Fewest
import FilterSelect.Proofs.Number.Display
import FilterSelect.Proofs.Filter.Rules
import FilterSelect.Proofs.Injection
import FilterSelect.Proofs.Filter.Tables
import FilterSelect.Proofs.Precedence
import FilterSelect.Proofs.Faults
import FilterSelect.Proofs.Sql.Statement
import FilterSelect.Proofs.Scoping
import FilterSelect.Proofs.Grammar
import FilterSelect.Proofs.Json.Members
import FilterSelect.Proofs.RoundTrip
import FilterSelect.Proofs.Sql.Blank
import FilterSelect.Proofs.Thinning
import FilterSelect.Proofs.Pruning
import FilterSelect.Proofs.Independence
import FilterSelect.Proofs.Recovery
import FilterSelect.Proofs.CommandLine.Agreement
import FilterSelect.Proofs.OfferedFields
import FilterSelect.Proofs.Normalization
import FilterSelect.Proofs.Renaming
import FilterSelect.Proofs.Nesting
import FilterSelect.Proofs.NumberComparison
import FilterSelect.Proofs.WholeNumbers
import FilterSelect.Proofs.NumericText
import FilterSelect.Proofs.Sql.Like
import FilterSelect.Proofs.Sql.Unquoting
import FilterSelect.Proofs.TextMatch
import FilterSelect.Proofs.PrunedFilters
import FilterSelect.Proofs.Composition
import FilterSelect.Proofs.NormalizerReach
import FilterSelect.Proofs.NonemptyNames
import FilterSelect.Proofs.CanonicalNumerals
import FilterSelect.Proofs.CatalogRows
import FilterSelect.Proofs.DisplayedText
