import SqlSelect.Document.Writing
import SqlSelect.Main
import SqlSelect.Proofs.Where.Grouping
import SqlSelect.Proofs.Where.Sweep
import SqlSelect.Proofs.Where.Fixpoint
import SqlSelect.Proofs.Where.Pruning
import SqlSelect.Proofs.Where.BooleanGrammar
import SqlSelect.Proofs.Where.Meaning
import SqlSelect.Proofs.Where.Leaves
import SqlSelect.Proofs.Outcome
import SqlSelect.Proofs.Alias.Registry
import SqlSelect.Proofs.Alias.Registration
import SqlSelect.Proofs.Parameter.Binding
import SqlSelect.Proofs.Parameter.Account
import SqlSelect.Proofs.Parameter.Growth
import SqlSelect.Proofs.Parameter.Call
import SqlSelect.Proofs.Parameter.Repetition
import SqlSelect.Proofs.Script.Reader
import SqlSelect.Proofs.Script.Spelling
import SqlSelect.Proofs.Script.Recovery
import SqlSelect.Proofs.Pattern.Quotation
import SqlSelect.Proofs.Marking.Text
import SqlSelect.Proofs.Marking.Source
import SqlSelect.Proofs.Where.Absence
import SqlSelect.Proofs.Marking.Filter
import SqlSelect.Proofs.Query.Call
import SqlSelect.Proofs.Query.Selected
import SqlSelect.Proofs.Query.Build
import SqlSelect.Proofs.Query.References
import SqlSelect.Proofs.Failing
import SqlSelect.Proofs.Query.Step
import SqlSelect.Proofs.Query.Completeness
import SqlSelect.Proofs.Query.Commuting
import SqlSelect.Proofs.Query.Ordering
import SqlSelect.Proofs.Agreement
import SqlSelect.Proofs.Alike.Parameter
import SqlSelect.Proofs.Alike.Condition
import SqlSelect.Proofs.Alike.Query
import SqlSelect.Proofs.Lists
import SqlSelect.Proofs.Schema.Lookup
import SqlSelect.Proofs.Path.Reading
import SqlSelect.Proofs.Alias.Reference
import SqlSelect.Proofs.Path.Grammar
import SqlSelect.Proofs.Path.Language
import SqlSelect.Proofs.Join.Resolving
import SqlSelect.Proofs.Join.Conjunction
import SqlSelect.Proofs.Join.Declaration
import SqlSelect.Proofs.Document.Making
import SqlSelect.Proofs.Naming.Condition
import SqlSelect.Proofs.Naming.Filter
import SqlSelect.Proofs.Naming.Document
import SqlSelect.Proofs.Json.Canonical
import SqlSelect.Proofs.Json.Slot
import SqlSelect.Proofs.Document.Operand
import SqlSelect.Proofs.Document.Codec
import SqlSelect.Proofs.Query.Script
import SqlSelect.Proofs.SelectList.Alignment
import SqlSelect.Proofs.Calendar.Written
import SqlSelect.Proofs.Calendar.Operand
import SqlSelect.Proofs.Listing.Items
import SqlSelect.Proofs.Predicate.Chain
import SqlSelect.Proofs.Document.Conversion
import SqlSelect.Proofs.Document.Soundness
import SqlSelect.Proofs.Document.Meaning
import SqlSelect.Proofs.Predicate.Null
import SqlSelect.Proofs.Where.Outline
import SqlSelect.Proofs.Pattern.Like
import SqlSelect.Proofs.Predicate.Unbroken
import SqlSelect.Proofs.Query.LineEnding
