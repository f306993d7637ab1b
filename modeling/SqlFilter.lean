import SqlFilter.Inspect
import SqlFilter.Main
import SqlFilter.Filter.Session
import SqlFilter.Proofs.Metering
import SqlFilter.Proofs.ValueMap
import SqlFilter.Proofs.Draft
import SqlFilter.Proofs.Fields
import SqlFilter.Proofs.Numbering
import SqlFilter.Proofs.Sql.Grammar
import SqlFilter.Proofs.Sql.Reader
import SqlFilter.Proofs.Meaning
import SqlFilter.Proofs.Sql.Reading
import SqlFilter.Proofs.Sql.Idioms
import SqlFilter.Proofs.Preservation
import SqlFilter.Proofs.Agreement
import SqlFilter.Proofs.Accounting
import SqlFilter.Proofs.Prefixes
import SqlFilter.Proofs.Rewriting
import SqlFilter.Proofs.Wire.RoundTrip
import SqlFilter.Proofs.Guard
import SqlFilter.Proofs.Silence
import SqlFilter.Proofs.Ranges
import SqlFilter.Proofs.Faults
import SqlFilter.Proofs.Renumbering
import SqlFilter.Proofs.Matching
import SqlFilter.Proofs.Recording
import SqlFilter.Proofs.Tidying
import SqlFilter.Proofs.Lookups
import SqlFilter.Proofs.Wire.Records
import SqlFilter.Proofs.Emptiness
import SqlFilter.Proofs.Admission
import SqlFilter.Proofs.Wire.Numbers
import SqlFilter.Proofs.Wire.Steps
import SqlFilter.Proofs.Wire.Values
import SqlFilter.Proofs.Wire.Nulls
import SqlFilter.Proofs.Wire.Places
import SqlFilter.Proofs.Wire.Omissions
import SqlFilter.Proofs.Identifiers
import SqlFilter.Proofs.Names
import SqlFilter.Proofs.Counts
import SqlFilter.Proofs.Output
