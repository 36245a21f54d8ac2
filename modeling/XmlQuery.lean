import XmlQuery.Document.Parse
import XmlQuery.Document.Tree
import XmlQuery.Markup.Cursor
import XmlQuery.Proofs.Decimal.Numeral
import XmlQuery.Proofs.Document.Additions
import XmlQuery.Proofs.Document.Doctypes
import XmlQuery.Proofs.Document.GivenAttributes
import XmlQuery.Proofs.Document.Kinship
import XmlQuery.Proofs.Document.Sections
import XmlQuery.Proofs.Document.Walking
import XmlQuery.Proofs.Markup.Concatenation
import XmlQuery.Proofs.Markup.Declarations
import XmlQuery.Proofs.Markup.Recognition
import XmlQuery.Proofs.Markup.References
import XmlQuery.Proofs.Markup.Tiling
import XmlQuery.Proofs.Query.Brackets
import XmlQuery.Proofs.Query.Canonical
import XmlQuery.Proofs.Query.Conditions
import XmlQuery.Proofs.Query.Diagnosis
import XmlQuery.Proofs.Query.DocumentOrder
import XmlQuery.Proofs.Query.Elements
import XmlQuery.Proofs.Query.IdleDigits
import XmlQuery.Proofs.Query.Joining
import XmlQuery.Proofs.Query.Lines
import XmlQuery.Proofs.Query.Locality
import XmlQuery.Proofs.Query.Monotone
import XmlQuery.Proofs.Query.Operators
import XmlQuery.Proofs.Query.Paths
import XmlQuery.Proofs.Query.Positions
import XmlQuery.Proofs.Query.Recency
import XmlQuery.Proofs.Query.Reports
import XmlQuery.Proofs.Query.Shorthand
import XmlQuery.Query.Batch
import XmlQuery.Query.Cache
import XmlQuery.Query.Listing
