import EnumNames.Build
import EnumNames.Declaration.Expansion
import EnumNames.Declaration.Table
import EnumNames.Proofs.Declaration.Expansion
import EnumNames.Proofs.Declaration.Survey
import EnumNames.Proofs.Declaration.Table
import EnumNames.Proofs.Declared
import EnumNames.Proofs.Passes
import EnumNames.Proofs.Probe
import EnumNames.Proofs.Query
import EnumNames.Proofs.Range
import EnumNames.Proofs.Signature.Cuts
import EnumNames.Proofs.Signature.Delimiters
import EnumNames.Proofs.Signature.Identifiers
import EnumNames.Proofs.Signature.RoundTrip
import EnumNames.Proofs.Signature.Segments
import EnumNames.Proofs.Signature.Undeclared
import EnumNames.Proofs.Text.Boundaries
import EnumNames.Proofs.Text.Seams
import EnumNames.Table
import EnumNames.Text.Order
import EnumNames.Text.Quoted
import EnumNames.Proofs.Bounds
import EnumNames.Proofs.Census
import EnumNames.Proofs.Outcomes
import EnumNames.Proofs.Edits
import EnumNames.Proofs.Signature.Canonical
import EnumNames.Proofs.Arguments
import EnumNames.Proofs.Representable
import EnumNames.Proofs.Declaration.Reading
import EnumNames.Proofs.Declaration.Locality
import EnumNames.Proofs.Declaration.Items
import EnumNames.Proofs.Declaration.Ends
import EnumNames.Proofs.Declaration.Options
import EnumNames.Proofs.Declaration.Decimals
import EnumNames.Proofs.Declaration.Faults
import EnumNames.Proofs.Declaration.Given
import EnumNames.Proofs.Declaration.Grammar
import EnumNames.Proofs.Declaration.Messages
import EnumNames.Proofs.Declaration.Pieces
import EnumNames.Proofs.Declaration.Spread
import EnumNames.Proofs.Declaration.Occurrences
import EnumNames.Proofs.Signature.Buffer
import EnumNames.Proofs.Signature.Capacity
import EnumNames.Proofs.Signature.Unambiguous
import EnumNames.Proofs.Gaps
import EnumNames.Proofs.Signature.Separators
import EnumNames.Proofs.Text.Order
import EnumNames.Proofs.Text.Parts
import EnumNames.Proofs.Ceiling
import EnumNames.Counters
import EnumNames.Proofs.Counters
import EnumNames.Proofs.Signature.Bare
import EnumNames.Proofs.Signature.Paths
