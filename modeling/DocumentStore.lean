import DocumentStore.Backend.Scripted
import DocumentStore.Memory.Answer
import DocumentStore.Mongo.Query
import DocumentStore.Mongo.Settings
import DocumentStore.Mongo.Write
import DocumentStore.Service
import DocumentStore.Json.Number
import DocumentStore.Json.Reader
import DocumentStore.Proofs.Backend.Calls
import DocumentStore.Proofs.Text.Pieces
import DocumentStore.Proofs.Document.Paths
import DocumentStore.Proofs.Document.MappedFields
import DocumentStore.Proofs.Predicate.Evaluators
import DocumentStore.Proofs.Memory.Scans
import DocumentStore.Proofs.Service.Histories
import DocumentStore.Proofs.Collection.Calls
import DocumentStore.Proofs.Identifier.NormalForm
import DocumentStore.Proofs.Memory.Writes
import DocumentStore.Proofs.Collection.RequestCalls
import DocumentStore.Proofs.Collection.Keys
import DocumentStore.Proofs.Memory.Identifiers
import DocumentStore.Proofs.Collection.Revisions
import DocumentStore.Proofs.Value.ComparandEquality
import DocumentStore.Proofs.Memory.Uniqueness
import DocumentStore.Proofs.Service.Uniqueness
import DocumentStore.Proofs.Filter.Lexemes
import DocumentStore.Proofs.Filter.Reading
import DocumentStore.Proofs.Filter.Places
import DocumentStore.Proofs.Filter.Spelling
import DocumentStore.Proofs.Literal
import DocumentStore.Proofs.Literal.Inference
import DocumentStore.Proofs.Filter.Printing
import DocumentStore.Proofs.Predicate.PatternReaders
import DocumentStore.Proofs.Mongo.Meaning
import DocumentStore.Proofs.Backend.Failures
import DocumentStore.Proofs.Memory.Failures
import DocumentStore.Proofs.Collection.Failures
import DocumentStore.Proofs.Projection
import DocumentStore.Proofs.Memory.Answers
import DocumentStore.Proofs.Value.Keys
import DocumentStore.Proofs.Collection.Deletions
import DocumentStore.Proofs.Collection.Matches
import DocumentStore.Proofs.Memory.Completeness
import DocumentStore.Proofs.Collection.Readings
import DocumentStore.Proofs.Collection.Removals
import DocumentStore.Proofs.Collection.ListedChanges
import DocumentStore.Proofs.Memory.FirstMatch
import DocumentStore.Proofs.Backend.Orders
import DocumentStore.Proofs.Collection.SingleChanges
import DocumentStore.Proofs.Collection.BatchOrder
import DocumentStore.Proofs.Collection.ConcurrentMerges
import DocumentStore.Proofs.Collection.Contention
import DocumentStore.Proofs.Collection.ReadBack
import DocumentStore.Proofs.Memory.Insertions
import DocumentStore.Proofs.Collection.BatchCreation
import DocumentStore.Proofs.Collection.BatchChecks
import DocumentStore.Proofs.Collection.Saving
import DocumentStore.Proofs.Collection.CreationReadBack
import DocumentStore.Proofs.Predicate.FailingLeaves
import DocumentStore.Proofs.Backend.Endings
import DocumentStore.Proofs.Memory.Promises
import DocumentStore.Proofs.Collection.StepEndings
import DocumentStore.Proofs.Collection.SeenFailures
import DocumentStore.Proofs.Collection.RequestEndings
import DocumentStore.Proofs.Service.ShownRecords
import DocumentStore.Proofs.Predicate.Wildcards
import DocumentStore.Proofs.Filter.Segments
import DocumentStore.Proofs.Collection.FilterChecks
import DocumentStore.Proofs.Number.Rounding
import DocumentStore.Proofs.Number.Grammar
import DocumentStore.Proofs.Filter.Shapes
import DocumentStore.Proofs.Filter.Composition
import DocumentStore.Proofs.Filter.QuotedLists
import DocumentStore.Proofs.Filter.FieldNames
import DocumentStore.Proofs.Value.Ranking
import DocumentStore.Proofs.Sort.Preorder
import DocumentStore.Proofs.Sort.Printing
import DocumentStore.Proofs.Predicate.Trichotomy
import DocumentStore.Proofs.Mongo.SortDocuments
import DocumentStore.Proofs.Collection.IdentifierAnswers
import DocumentStore.Proofs.Filter.Blanks
import DocumentStore.Proofs.Filter.EndTokens
import DocumentStore.Proofs.Filter.Surroundings
import DocumentStore.Proofs.Document.Lens
import DocumentStore.Proofs.Document.KeptPaths
import DocumentStore.Proofs.Filter.TextTests
import DocumentStore.Proofs.Mongo.ConditionKeys
import DocumentStore.Proofs.Document.RepeatedWrites
import DocumentStore.Proofs.Memory.Retries
import DocumentStore.Proofs.Collection.Paging
import DocumentStore.Proofs.Memory.Indexes
import DocumentStore.Proofs.Memory.Agreement
import DocumentStore.Proofs.Identifier.DelimitedLists
import DocumentStore.Proofs.Identifier.CanonicalForms
import DocumentStore.Proofs.Value.Content
import DocumentStore.Proofs.Value.Widths
import DocumentStore.Proofs.Memory.Widths
import DocumentStore.Proofs.Json.Payloads
import DocumentStore.Proofs.Json.Listings
import DocumentStore.Proofs.Text.Uuid
import DocumentStore.Proofs.Value.DateTimes
import DocumentStore.Proofs.Memory.Duplicates
import DocumentStore.Proofs.Mongo.InsertFailures
import DocumentStore.Proofs.Mongo.Replacements
import DocumentStore.Proofs.Filter.Respacing
import DocumentStore.Proofs.Filter.CheckedDescent
