import Recast.Collection
import Recast.Container.Reshape
import Recast.Container.Selection
import Recast.Conversion.Context
import Recast.Conversion.Error
import Recast.Converter
import Recast.Description
import Recast.EnumSet
import Recast.Hierarchy
import Recast.Json
import Recast.Json.Number
import Recast.Json.Reading
import Recast.Json.Text
import Recast.Json.Value
import Recast.Number.Binary
import Recast.Number.Binary.Reading
import Recast.Number.Binary.Shortest
import Recast.Number.Decimal
import Recast.Number.Decimal.Floating
import Recast.Number.Decimal.Reading
import Recast.Number.Integral
import Recast.Number.Power
import Recast.Number.Rounding
import Recast.Proofs.Collection.Changes
import Recast.Proofs.Collection.Discipline
import Recast.Proofs.Collection.Reachable
import Recast.Proofs.Collection.Rebuilding
import Recast.Proofs.Collection.SetEquality
import Recast.Proofs.Container.Requests
import Recast.Proofs.Container.Reshape
import Recast.Proofs.Container.Typing
import Recast.Proofs.Conversion.Procedure
import Recast.Proofs.Converter.Dispatch
import Recast.Proofs.Converter.Memory
import Recast.Proofs.Converter.Nesting
import Recast.Proofs.Converter.Parametricity
import Recast.Proofs.Converter.Support
import Recast.Proofs.Converter.Typing
import Recast.Proofs.Hierarchy.Assignability
import Recast.Proofs.Hierarchy.Extension
import Recast.Proofs.Hierarchy.Layering
import Recast.Proofs.Hierarchy.Levels
import Recast.Proofs.Hierarchy.Locality
import Recast.Proofs.Hierarchy.Reachability
import Recast.Proofs.Hierarchy.Specificity
import Recast.Proofs.Hierarchy.Superclass
import Recast.Proofs.Hierarchy.Transitivity
import Recast.Proofs.Number.Cutting
import Recast.Proofs.Number.Decimal
import Recast.Proofs.Registry.Building
import Recast.Proofs.Registry.Families
import Recast.Proofs.Registry.Resolution
import Recast.Proofs.Registry.Specificity
import Recast.Proofs.Scalar.Number
import Recast.Proofs.Scalar.Numeral
import Recast.Proofs.Scalar.Temporal
import Recast.Proofs.Scalar.Typing
import Recast.Proofs.Sorting
import Recast.Proofs.Standard.Bytes
import Recast.Proofs.Standard.Collections
import Recast.Proofs.Standard.EnumSetRoundTrip
import Recast.Proofs.Standard.EnumSets
import Recast.Proofs.Standard.Extension
import Recast.Proofs.Standard.IntegerText
import Recast.Proofs.Standard.Moments
import Recast.Proofs.Standard.NestedNumbers
import Recast.Proofs.Standard.Overrides
import Recast.Proofs.Standard.Resolution
import Recast.Proofs.Standard.ScalarText
import Recast.Proofs.Standard.TemporalText
import Recast.Proofs.Standard.TypeText
import Recast.Proofs.Standard.Typing
import Recast.Proofs.Standard.ZoneIndependence
import Recast.Proofs.Text.Charset
import Recast.Proofs.Text.Digits
import Recast.Proofs.Text.Utf8
import Recast.Proofs.Time.Calendar
import Recast.Proofs.Time.Moment
import Recast.Proofs.Time.Offset
import Recast.Proofs.Time.Reading
import Recast.Proofs.Time.Seconds
import Recast.Proofs.Time.Span
import Recast.Proofs.Time.Text
import Recast.Proofs.Ty.Catalog
import Recast.Proofs.Ty.Reading
import Recast.Proofs.Value.Equality
import Recast.Proofs.Value.Order
import Recast.Proofs.Value.Parts
import Recast.Proofs.Value.Settled
import Recast.Proofs.Value.Typing
import Recast.Proofs.Value.WellFormed
import Recast.Registry
import Recast.Resolution
import Recast.Scalar.Enum
import Recast.Scalar.Null
import Recast.Scalar.Number
import Recast.Scalar.Temporal
import Recast.Scalar.Text
import Recast.Sorting
import Recast.Standard
import Recast.Stored.Settings
import Recast.Stored.Ty
import Recast.Stored.Value
import Recast.Text.Blank
import Recast.Text.Charset
import Recast.Text.Digits
import Recast.Text.Lowercase
import Recast.Text.Lowercase.Table
import Recast.Text.Quoted
import Recast.Text.Quoted.Table
import Recast.Text.Utf8
import Recast.Time.Clock
import Recast.Time.Date
import Recast.Time.Moment
import Recast.Time.Offset
import Recast.Time.Reading
import Recast.Time.Span
import Recast.Time.Span.Reading
import Recast.Ty
import Recast.Ty.Description
import Recast.Ty.Reading
import Recast.Value
import Recast.Value.Equality
import Recast.Value.Order
import Recast.Value.Settled
import Recast.Value.Text
