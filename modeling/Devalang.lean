import Devalang.About
import Devalang.Argument.Item
import Devalang.Document.Print
import Devalang.Draft.Attribute
import Devalang.Draft.Build
import Devalang.Draft.Compare
import Devalang.Draft.Diagram
import Devalang.Draft.OfDocument
import Devalang.Draft.Print
import Devalang.Proofs.Document.Indented
import Devalang.Proofs.Document.LineEndings
import Devalang.Proofs.Document.Order
import Devalang.Proofs.Document.Printing
import Devalang.Proofs.Document.Stability
import Devalang.Token.Scan
import Devalang.Proofs.Reading.Turn
import Devalang.Proofs.Outline.Descent
import Devalang.Proofs.Reading.Branches
import Devalang.Proofs.Document.Branches
import Devalang.Proofs.Reading.Extents
import Devalang.Proofs.Document.Extents
import Devalang.Proofs.Reading.Flat
import Devalang.Proofs.Document.Equivalence
import Devalang.Guarded
import Devalang.Proofs.Draft.Diagram
import Devalang.Proofs.Draft.Printing
import Devalang.Proofs.Guarded.Document
import Devalang.Proofs.Statement.Alone
import Devalang.Proofs.Token.Scan
import Devalang.Proofs.Value.Strings
import Devalang.Proofs.Statement.Extraction
import Devalang.Proofs.Token.Rejoin
import Devalang.Proofs.Token.Rules
import Devalang.Proofs.Reading.Continuation
