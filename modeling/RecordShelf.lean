import RecordShelf.Cache.Caches
import RecordShelf.Cache.Namespace
import RecordShelf.Cache.Sweeper
import RecordShelf.Cache.TimedCache
import RecordShelf.CommandLine.Arguments
import RecordShelf.CommandLine.Help
import RecordShelf.CommandLine.Path
import RecordShelf.CommandLine.Report
import RecordShelf.CommandLine.Run
import RecordShelf.CommandLine.Shell
import RecordShelf.CommandLine.World
import RecordShelf.Database.Bans
import RecordShelf.Database.Basic
import RecordShelf.Database.Chats
import RecordShelf.Database.Lookup
import RecordShelf.Database.Nicknames
import RecordShelf.Database.Roles
import RecordShelf.Database.Vip
import RecordShelf.Error
import RecordShelf.Json.Number
import RecordShelf.Json.Reader
import RecordShelf.Json.Value
import RecordShelf.Json.Writer
import RecordShelf.Main
import RecordShelf.Named
import RecordShelf.Names
import RecordShelf.Number.Decimal
import RecordShelf.Number.Double
import RecordShelf.Number.Fixed
import RecordShelf.Number.Shortest
import RecordShelf.Query.Comparison
import RecordShelf.Query.Execute
import RecordShelf.Query.Like
import RecordShelf.Query.Order
import RecordShelf.Query.Params
import RecordShelf.Query.Predicate
import RecordShelf.Query.Result
import RecordShelf.Settings.Basic
import RecordShelf.Settings.File
import RecordShelf.Shelf.Basic
import RecordShelf.Shelf.Cleanup
import RecordShelf.Shelf.Identity
import RecordShelf.Shelf.Locks
import RecordShelf.Shelf.Node
import RecordShelf.Shelf.RecordFile
import RecordShelf.Shelf.Tree
import RecordShelf.Sql.Clause
import RecordShelf.Sql.Code
import RecordShelf.Sql.Parse
import RecordShelf.Sql.ParseError
import RecordShelf.Sql.Reader
import RecordShelf.Sql.Statement
import RecordShelf.Sql.Term
import RecordShelf.Sql.TopLevel
import RecordShelf.Text.Alphanumeric
import RecordShelf.Text.Blank
import RecordShelf.Text.LowerCase
import RecordShelf.Text.Quoted
import RecordShelf.Text.Ranges
import RecordShelf.Time.Date
import RecordShelf.Time.Reader
import RecordShelf.Time.Timestamp
import RecordShelf.Yaml.Basic
import RecordShelf.Yaml.Cell
import RecordShelf.Yaml.Reader
import RecordShelf.Yaml.Scalar
import RecordShelf.Yaml.Token
import RecordShelf.Yaml.Writer
import RecordShelf.Proofs.Number.Rounding
import RecordShelf.Proofs.Number.Shortest
import RecordShelf.Proofs.Number.Digits
import RecordShelf.Proofs.Json.NumberText
import RecordShelf.Proofs.Json.ValueText
import RecordShelf.Proofs.Shelf.RecordFile
import RecordShelf.Proofs.Run
import RecordShelf.Proofs.Shelf.Tables
import RecordShelf.Proofs.Shelf.Put
import RecordShelf.Proofs.Shelf.Scan
import RecordShelf.Proofs.Shelf.Remove
import RecordShelf.Proofs.Query.Delete
import RecordShelf.Proofs.Sql.Reading
import RecordShelf.Proofs.Sql.Statements
import RecordShelf.Proofs.Cache.TimedCache
import RecordShelf.Proofs.Names
import RecordShelf.Proofs.Shelf.Stored
import RecordShelf.Proofs.Query.Upsert
import RecordShelf.Proofs.Database.Lookup
import RecordShelf.Proofs.Database.Writers
import RecordShelf.Proofs.Database.ReadYourWrites
import RecordShelf.Proofs.Sql.Quiet
import RecordShelf.Proofs.Sql.Pieces
import RecordShelf.Proofs.Sql.Terms
import RecordShelf.Proofs.Sql.UpdateParts
import RecordShelf.Proofs.Sql.Counting
import RecordShelf.Proofs.Query.Binding
import RecordShelf.Proofs.Query.UpdateOrder
import RecordShelf.Proofs.Shelf.Steps
import RecordShelf.Proofs.Query.Steps
import RecordShelf.Proofs.Database.Steps
import RecordShelf.Proofs.Cache.Keys
import RecordShelf.Proofs.Database.Faithful
import RecordShelf.Proofs.Database.CachedReads
import RecordShelf.Proofs.Database.Session
import RecordShelf.Proofs.Sql.TableNames
import RecordShelf.Proofs.Sql.Joined
import RecordShelf.Proofs.Sql.Writing
import RecordShelf.Proofs.Sql.ReadBack
import RecordShelf.Proofs.Sql.SelectText
import RecordShelf.Proofs.Shelf.Content
import RecordShelf.Proofs.Query.Concurrent
import RecordShelf.Proofs.Query.LostUpdate
import RecordShelf.Proofs.Cache.LastSet
import RecordShelf.Proofs.Query.Params
import RecordShelf.Proofs.Query.Changes
import RecordShelf.Proofs.Query.Identities
import RecordShelf.Proofs.Query.Numbers
import RecordShelf.Proofs.Shelf.LockQueues
import RecordShelf.Proofs.Shelf.LockTurns
import RecordShelf.Proofs.Query.Failures
import RecordShelf.Proofs.Shelf.Rewrite
import RecordShelf.Proofs.Query.UpdateFrame
import RecordShelf.Proofs.Sql.FieldLookup
import RecordShelf.Proofs.Query.FoundByValue
import RecordShelf.Proofs.Database.VipRemoval
import RecordShelf.Proofs.Database.ChatSettings
import RecordShelf.Proofs.Sql.SelectParts
import RecordShelf.Proofs.Query.TextOrder
import RecordShelf.Proofs.Query.SelectOrder
import RecordShelf.Proofs.Query.RowOrder
import RecordShelf.Proofs.Shelf.Relisting
import RecordShelf.Proofs.Query.ListingOrder
import RecordShelf.Proofs.Sql.LeadingWords
import RecordShelf.Proofs.Query.Kinds
import RecordShelf.Proofs.Sql.ScannedPieces
import RecordShelf.Proofs.Sql.ScannedNames
import RecordShelf.Proofs.Database.Overtaking
import RecordShelf.Proofs.Sql.LetterCase
import RecordShelf.Proofs.Sql.PairedReading
import RecordShelf.Proofs.Sql.KeptLetters
import RecordShelf.Proofs.Sql.PairedTerms
import RecordShelf.Proofs.Sql.CaseFolding
import RecordShelf.Proofs.Query.SortedRows
import RecordShelf.Proofs.Query.NullOperand
import RecordShelf.Proofs.Number.Integers
import RecordShelf.Proofs.Query.IntegerOperand
import RecordShelf.Proofs.Sql.WhereClause
import RecordShelf.Proofs.Sql.Numerals
import RecordShelf.Proofs.Query.NumericFilter
import RecordShelf.Proofs.Query.LikePattern
import RecordShelf.Proofs.Query.Listings
import RecordShelf.Proofs.Shelf.CleanTree
import RecordShelf.Proofs.Query.Cleanup
import RecordShelf.Proofs.Shelf.FileAt
import RecordShelf.Proofs.Query.Accumulating
import RecordShelf.Proofs.Cache.Evictions
import RecordShelf.Proofs.Cache.Balance
import RecordShelf.Proofs.Shelf.Readers
import RecordShelf.Proofs.Shelf.PutSteps
import RecordShelf.Proofs.Database.BatchSteps
import RecordShelf.Proofs.Database.BatchLoads
import RecordShelf.Proofs.Database.Batches
import RecordShelf.Proofs.Sql.SkippedStrings
import RecordShelf.Proofs.Sql.ClauseRanges
import RecordShelf.Proofs.Sql.OnePass
import RecordShelf.Proofs.Shelf.Generated
import RecordShelf.Proofs.Json.Same
import RecordShelf.Proofs.Query.Equalities
import RecordShelf.Proofs.Database.Entities
