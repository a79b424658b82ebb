import SchemaDialects.Catalog.Row
import SchemaDialects.Conversion.Session
import SchemaDialects.Json.Decode
import SchemaDialects.Proofs.Catalog.DefaultExpr
import SchemaDialects.Proofs.Catalog.KeyOrder
import SchemaDialects.Proofs.Catalog.Literals
import SchemaDialects.Proofs.Catalog.StoredStatement
import SchemaDialects.Proofs.Catalog.TableOrder
import SchemaDialects.Proofs.Column.MappedTypes
import SchemaDialects.Proofs.Column.Markers
import SchemaDialects.Proofs.Column.Plain
import SchemaDialects.Proofs.Column.Stability
import SchemaDialects.Proofs.Conversion.ClauseHead
import SchemaDialects.Proofs.Conversion.ColumnComments
import SchemaDialects.Proofs.Conversion.Comments
import SchemaDialects.Proofs.Conversion.Completeness
import SchemaDialects.Proofs.Conversion.Counting
import SchemaDialects.Proofs.Conversion.Failures
import SchemaDialects.Proofs.Conversion.Indentation
import SchemaDialects.Proofs.Conversion.InlineIndexes
import SchemaDialects.Proofs.Conversion.KeptNames
import SchemaDialects.Proofs.Conversion.LineEnd
import SchemaDialects.Proofs.Conversion.Lines
import SchemaDialects.Proofs.Conversion.Output
import SchemaDialects.Proofs.Conversion.ScriptParts
import SchemaDialects.Proofs.Conversion.SourceMarkers
import SchemaDialects.Proofs.Conversion.SqliteScript
import SchemaDialects.Proofs.Conversion.Strictness
import SchemaDialects.Proofs.Conversion.StringDefaults
import SchemaDialects.Proofs.Conversion.Stripping
import SchemaDialects.Proofs.Conversion.SurrogateKey
import SchemaDialects.Proofs.Conversion.TypeWarnings
import SchemaDialects.Proofs.Conversion.UnknownTypes
import SchemaDialects.Proofs.Definition.Attributes
import SchemaDialects.Proofs.Definition.Breaks
import SchemaDialects.Proofs.Definition.Chunks
import SchemaDialects.Proofs.Definition.ColumnConvert
import SchemaDialects.Proofs.Definition.ColumnLine
import SchemaDialects.Proofs.Definition.ColumnQuotes
import SchemaDialects.Proofs.Definition.ColumnType
import SchemaDialects.Proofs.Definition.CommentText
import SchemaDialects.Proofs.Definition.InlineIndex
import SchemaDialects.Proofs.Definition.KeptNames
import SchemaDialects.Proofs.Definition.KeyLine
import SchemaDialects.Proofs.Definition.LeadingName
import SchemaDialects.Proofs.Definition.LineComments
import SchemaDialects.Proofs.Definition.Lines
import SchemaDialects.Proofs.Definition.Literals
import SchemaDialects.Proofs.Definition.PrimaryKey
import SchemaDialects.Proofs.Definition.QuotedNames
import SchemaDialects.Proofs.Definition.Quoting
import SchemaDialects.Proofs.Definition.Requoting
import SchemaDialects.Proofs.Definition.Rewriting
import SchemaDialects.Proofs.Definition.SourceMarker
import SchemaDialects.Proofs.Definition.Tame
import SchemaDialects.Proofs.Definition.Trailing
import SchemaDialects.Proofs.Definition.TypeWords
import SchemaDialects.Proofs.Rendering.Agreement
import SchemaDialects.Proofs.Rendering.Convert
import SchemaDialects.Proofs.Rendering.KeptLines
import SchemaDialects.Proofs.Rendering.KeyPlace
import SchemaDialects.Proofs.Rendering.Lines
import SchemaDialects.Proofs.Rendering.MarkerPlace
import SchemaDialects.Proofs.Rendering.ReadBack
import SchemaDialects.Proofs.Rendering.RoundTrip
import SchemaDialects.Proofs.Rendering.Table
import SchemaDialects.Proofs.Script.Apart
import SchemaDialects.Proofs.Script.Body
import SchemaDialects.Proofs.Script.Kinds
import SchemaDialects.Proofs.Script.LeadingComments
import SchemaDialects.Proofs.Script.PlainParts
import SchemaDialects.Proofs.Script.Reading
import SchemaDialects.Proofs.Script.Rejoined
import SchemaDialects.Proofs.Script.Settled
import SchemaDialects.Proofs.Script.Splitting
import SchemaDialects.Proofs.Script.Sqlite
import SchemaDialects.Proofs.Text.Stops
import SchemaDialects.Proofs.Text.Words
import SchemaDialects.Proofs.Transfer.Calls
import SchemaDialects.Proofs.Transfer.Journal
import SchemaDialects.Proofs.Transfer.Losses
import SchemaDialects.Proofs.Warning.Kept
import SchemaDialects.Settings.Load
import SchemaDialects.Transfer
