import BracketFilter.Agreement
import BracketFilter.Binding
import BracketFilter.Calendar.Date
import BracketFilter.Calendar.Moment
import BracketFilter.Calendar.Scan
import BracketFilter.Calendar.Time
import BracketFilter.Coercion
import BracketFilter.Compile
import BracketFilter.Error
import BracketFilter.Inspect
import BracketFilter.Json
import BracketFilter.Key
import BracketFilter.Kind
import BracketFilter.Leaf
import BracketFilter.Limits
import BracketFilter.Limits.Config
import BracketFilter.Number.Binary64
import BracketFilter.Number.Binary64.Printer
import BracketFilter.Number.Binary64.Reader
import BracketFilter.Number.Decimal
import BracketFilter.Operation
import BracketFilter.Predicate
import BracketFilter.Proofs.Accounts
import BracketFilter.Proofs.AgreementSearch
import BracketFilter.Proofs.AgreementSound
import BracketFilter.Proofs.Answers
import BracketFilter.Proofs.BindingExact
import BracketFilter.Proofs.BindingFailure
import BracketFilter.Proofs.BindingMonotone
import BracketFilter.Proofs.BindingReads
import BracketFilter.Proofs.BindingSteps
import BracketFilter.Proofs.CaseOfNames
import BracketFilter.Proofs.Cells
import BracketFilter.Proofs.Compilable
import BracketFilter.Proofs.CompileMeaning
import BracketFilter.Proofs.CompileSteps
import BracketFilter.Proofs.Conjunction
import BracketFilter.Proofs.Coverage
import BracketFilter.Proofs.DayNumbers
import BracketFilter.Proofs.Emptiness
import BracketFilter.Proofs.Faults
import BracketFilter.Proofs.FieldsApart
import BracketFilter.Proofs.FieldsReadBack
import BracketFilter.Proofs.FirstFault
import BracketFilter.Proofs.FullPath
import BracketFilter.Proofs.Intervals
import BracketFilter.Proofs.Jointly
import BracketFilter.Proofs.KeyCanonical
import BracketFilter.Proofs.KeyGrammar
import BracketFilter.Proofs.KeySpelling
import BracketFilter.Proofs.KeysBelow
import BracketFilter.Proofs.KindsAgree
import BracketFilter.Proofs.LeafCalls
import BracketFilter.Proofs.LeafExact
import BracketFilter.Proofs.LimitsReject
import BracketFilter.Proofs.ListIndices
import BracketFilter.Proofs.LocalAgreement
import BracketFilter.Proofs.Lookup
import BracketFilter.Proofs.LoweredBinding
import BracketFilter.Proofs.LoweredNames
import BracketFilter.Proofs.Lowering
import BracketFilter.Proofs.Meaning
import BracketFilter.Proofs.Membership
import BracketFilter.Proofs.MomentsReadBack
import BracketFilter.Proofs.Narrowing
import BracketFilter.Proofs.Negation
import BracketFilter.Proofs.Notations
import BracketFilter.Proofs.NotedTests
import BracketFilter.Proofs.NumbersReadBack
import BracketFilter.Proofs.OneCalendar
import BracketFilter.Proofs.OneKey
import BracketFilter.Proofs.OwnText
import BracketFilter.Proofs.QueryStrings
import BracketFilter.Proofs.Readings
import BracketFilter.Proofs.Reindexing
import BracketFilter.Proofs.Relocation
import BracketFilter.Proofs.RepeatedKeys
import BracketFilter.Proofs.RequestContent
import BracketFilter.Proofs.Resolution
import BracketFilter.Proofs.RespacedValues
import BracketFilter.Proofs.ServedKeys
import BracketFilter.Proofs.Sifting
import BracketFilter.Proofs.TestsInOrder
import BracketFilter.Proofs.TextSearch
import BracketFilter.Proofs.TimesReadBack
import BracketFilter.Proofs.TokenLists
import BracketFilter.Proofs.Traversal
import BracketFilter.Proofs.TreeExtent
import BracketFilter.Proofs.TreeShape
import BracketFilter.Proofs.Utf8ReadBack
import BracketFilter.Proofs.ValueOrder
import BracketFilter.Query
import BracketFilter.Query.Form
import BracketFilter.Record
import BracketFilter.Shape
import BracketFilter.Text.Ascii
import BracketFilter.Text.Blank
import BracketFilter.Text.CaseTable
import BracketFilter.Text.Hex
import BracketFilter.Text.LowerCase
import BracketFilter.Text.Numeral
import BracketFilter.Text.PrintTable
import BracketFilter.Text.Quoted
import BracketFilter.Text.Utf8
import BracketFilter.Tree
import BracketFilter.Uuid
import BracketFilter.Value
