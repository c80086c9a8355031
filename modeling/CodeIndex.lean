import CodeIndex.Catalog
import CodeIndex.Chunk.Basic
import CodeIndex.Chunk.Fragment
import CodeIndex.Chunk.Grouping
import CodeIndex.Chunk.Merging
import CodeIndex.Chunk.Splitting
import CodeIndex.CommandLine.Arguments
import CodeIndex.CommandLine.Command
import CodeIndex.CommandLine.Execute
import CodeIndex.CommandLine.Report
import CodeIndex.Config.Basic
import CodeIndex.Config.Document
import CodeIndex.Config.Environment
import CodeIndex.Config.Loading
import CodeIndex.Digest.Blake3
import CodeIndex.Embedding.Client
import CodeIndex.Embedding.Error
import CodeIndex.Embedding.Fingerprint
import CodeIndex.Fault
import CodeIndex.Files.Glob
import CodeIndex.Files.Ignore
import CodeIndex.Files.Path
import CodeIndex.Files.Pattern
import CodeIndex.Files.Tree
import CodeIndex.Files.Walk
import CodeIndex.Index.Action
import CodeIndex.Index.Error
import CodeIndex.Index.Identifier
import CodeIndex.Index.Locks
import CodeIndex.Index.Reconcile
import CodeIndex.Index.Remote
import CodeIndex.Index.Search
import CodeIndex.Index.Task
import CodeIndex.Index.World
import CodeIndex.JavaScript.Grammar
import CodeIndex.JavaScript.Lexer
import CodeIndex.JavaScript.Lexicon
import CodeIndex.JavaScript.Parser
import CodeIndex.JavaScript.Semicolon
import CodeIndex.Json.Decoding
import CodeIndex.Json.Reader
import CodeIndex.Json.Value
import CodeIndex.Json.Writer
import CodeIndex.Main
import CodeIndex.Network.Peer
import CodeIndex.Network.Uri
import CodeIndex.Numeric.Binary64
import CodeIndex.Numeric.Fixed
import CodeIndex.Numeric.Numeral
import CodeIndex.Numeric.Power
import CodeIndex.Numeric.Reading
import CodeIndex.Numeric.Shortest
import CodeIndex.Parsing.Automaton
import CodeIndex.Parsing.Grammar
import CodeIndex.Parsing.Production
import CodeIndex.Parsing.Recovery
import CodeIndex.Parsing.Run
import CodeIndex.Parsing.Stack
import CodeIndex.Parsing.Table
import CodeIndex.Proofs.Catalog
import CodeIndex.Proofs.Chunk.Basic
import CodeIndex.Proofs.Chunk.Coalescing
import CodeIndex.Proofs.Chunk.Cutting
import CodeIndex.Proofs.Chunk.Grouping
import CodeIndex.Proofs.Chunk.Merging
import CodeIndex.Proofs.Chunk.Outline
import CodeIndex.Proofs.Chunk.Placement
import CodeIndex.Proofs.Chunk.Sizes
import CodeIndex.Proofs.Chunk.Slices
import CodeIndex.Proofs.Chunk.Spans
import CodeIndex.Proofs.Chunk.Splitting
import CodeIndex.Proofs.Chunk.Structural
import CodeIndex.Proofs.Chunk.Walks
import CodeIndex.Proofs.Chunk.Windows
import CodeIndex.Proofs.Config.Layers
import CodeIndex.Proofs.Config.Loading
import CodeIndex.Proofs.Config.Sizes
import CodeIndex.Proofs.Embedding.Attribution
import CodeIndex.Proofs.Embedding.Order
import CodeIndex.Proofs.Index.Arrival
import CodeIndex.Proofs.Index.Clients
import CodeIndex.Proofs.Index.Convergence
import CodeIndex.Proofs.Index.Creation
import CodeIndex.Proofs.Index.Ending
import CodeIndex.Proofs.Index.Exclusion
import CodeIndex.Proofs.Index.Failure
import CodeIndex.Proofs.Index.Fragments
import CodeIndex.Proofs.Index.Interleaving
import CodeIndex.Proofs.Index.Ledger
import CodeIndex.Proofs.Index.Lifecycle
import CodeIndex.Proofs.Index.Listing
import CodeIndex.Proofs.Index.Pipeline
import CodeIndex.Proofs.Index.Plan
import CodeIndex.Proofs.Index.Progress
import CodeIndex.Proofs.Index.Rejection
import CodeIndex.Proofs.Index.Replacement
import CodeIndex.Proofs.Index.Run
import CodeIndex.Proofs.Index.Serial
import CodeIndex.Proofs.Index.Track
import CodeIndex.Proofs.Index.Tracking
import CodeIndex.Proofs.Index.Tree
import CodeIndex.Proofs.Index.Upkeep
import CodeIndex.Proofs.JavaScript.Faults
import CodeIndex.Proofs.JavaScript.Gap
import CodeIndex.Proofs.Json.Decoding
import CodeIndex.Proofs.Json.Grammar
import CodeIndex.Proofs.Json.Members
import CodeIndex.Proofs.Json.Numbers
import CodeIndex.Proofs.Json.Reading
import CodeIndex.Proofs.Json.Strings
import CodeIndex.Proofs.Json.Values
import CodeIndex.Proofs.Numeric.Magnitude
import CodeIndex.Proofs.Numeric.Numeral
import CodeIndex.Proofs.Numeric.Rounding
import CodeIndex.Proofs.Numeric.Single
import CodeIndex.Proofs.Numeric.Squares
import CodeIndex.Proofs.Parsing.Flags
import CodeIndex.Proofs.Parsing.Start
import CodeIndex.Proofs.Parsing.Trees
import CodeIndex.Proofs.Qdrant.EmptyWork
import CodeIndex.Proofs.Qdrant.Exchange
import CodeIndex.Proofs.Qdrant.Filtering
import CodeIndex.Proofs.Qdrant.Payload
import CodeIndex.Proofs.Qdrant.Removal
import CodeIndex.Proofs.Qdrant.Scan
import CodeIndex.Proofs.Sorting.Insertion
import CodeIndex.Proofs.Sorting.Merging
import CodeIndex.Proofs.Sorting.Quick
import CodeIndex.Proofs.Sorting.Runs
import CodeIndex.Proofs.Sorting.Small
import CodeIndex.Proofs.Sparse.Counting
import CodeIndex.Proofs.Sparse.Joining
import CodeIndex.Proofs.Sparse.Lookup
import CodeIndex.Proofs.Store.Collection
import CodeIndex.Proofs.Store.Contents
import CodeIndex.Proofs.Store.Excerpts
import CodeIndex.Proofs.Store.Fusion
import CodeIndex.Proofs.Store.Limit
import CodeIndex.Proofs.Store.Memory
import CodeIndex.Proofs.Store.Paging
import CodeIndex.Proofs.Store.Payload
import CodeIndex.Proofs.Store.Query
import CodeIndex.Proofs.Store.Ranking
import CodeIndex.Proofs.Store.Refinement
import CodeIndex.Proofs.Store.SharedTerms
import CodeIndex.Proofs.Store.Similarity
import CodeIndex.Proofs.Syntax.Cursor
import CodeIndex.Proofs.Syntax.Tree
import CodeIndex.Proofs.Text.Bytes
import CodeIndex.Proofs.Text.Lines
import CodeIndex.Proofs.Text.Lowercase
import CodeIndex.Proofs.Text.Ranges
import CodeIndex.Proofs.Text.Words
import CodeIndex.Proofs.Watch.Advance
import CodeIndex.Proofs.Watch.Backoff
import CodeIndex.Proofs.Watch.Cancellation
import CodeIndex.Proofs.Watch.Delivery
import CodeIndex.Proofs.Watch.Event
import CodeIndex.Proofs.Watch.Loop
import CodeIndex.Proofs.Watch.Opening
import CodeIndex.Proofs.Watch.Retry
import CodeIndex.Proofs.Watch.Run
import CodeIndex.Proofs.Watch.Schedule
import CodeIndex.Proofs.Watch.State
import CodeIndex.Qdrant.Client
import CodeIndex.Qdrant.Content
import CodeIndex.Qdrant.Message
import CodeIndex.Sorting.Quick
import CodeIndex.Sorting.Runs
import CodeIndex.Sorting.Small
import CodeIndex.Sparse.Vector
import CodeIndex.Store.Call
import CodeIndex.Store.Error
import CodeIndex.Store.Filter
import CodeIndex.Store.Memory
import CodeIndex.Store.Payload
import CodeIndex.Store.Ranking
import CodeIndex.Store.Record
import CodeIndex.Syntax.Cursor
import CodeIndex.Syntax.Position
import CodeIndex.Syntax.Tree
import CodeIndex.Text.Blank
import CodeIndex.Text.CaseTable
import CodeIndex.Text.Lines
import CodeIndex.Text.Lowercase
import CodeIndex.Text.PrintTable
import CodeIndex.Text.Quoted
import CodeIndex.Text.Ranges
import CodeIndex.Text.Word
import CodeIndex.Text.WordTable
import CodeIndex.Toml.Reader
import CodeIndex.Toml.Scalar
import CodeIndex.Toml.Table
import CodeIndex.Toml.Text
import CodeIndex.Toml.Value
import CodeIndex.Watch.Backoff
import CodeIndex.Watch.Event
import CodeIndex.Watch.Socket
import CodeIndex.Watch.Watcher
