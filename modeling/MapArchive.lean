import MapArchive.Blob.Basic
import MapArchive.Blob.Content
import MapArchive.Blob.Frame
import MapArchive.Blob.Reader
import MapArchive.Block.ElementWalk
import MapArchive.Block.Group
import MapArchive.Block.StringTable
import MapArchive.Bytes.Cursor
import MapArchive.Bytes.Endian
import MapArchive.Compression.Bits
import MapArchive.Compression.Bzip2.Block
import MapArchive.Compression.Bzip2.Stream
import MapArchive.Compression.Bzip2.Text
import MapArchive.Compression.Checksum
import MapArchive.Compression.Converter
import MapArchive.Compression.Decoder
import MapArchive.Compression.Filter
import MapArchive.Compression.Filter.Branches
import MapArchive.Compression.Filter.Delta
import MapArchive.Compression.Filter.X86
import MapArchive.Compression.Filtered
import MapArchive.Compression.Inflate
import MapArchive.Compression.Lzip
import MapArchive.Compression.Lzma
import MapArchive.Compression.Lzma2
import MapArchive.Compression.LzmaAlone
import MapArchive.Compression.Metered
import MapArchive.Compression.PrefixCode
import MapArchive.Compression.Procedure
import MapArchive.Compression.RangeCoder
import MapArchive.Compression.Sha256
import MapArchive.Compression.Stored
import MapArchive.Compression.Xz
import MapArchive.Compression.Zlib
import MapArchive.Decimal.Shortest
import MapArchive.Decimal.Style
import MapArchive.Element.Basic
import MapArchive.Element.Dense
import MapArchive.Element.Info
import MapArchive.Element.Members
import MapArchive.Element.Parameters
import MapArchive.Element.Tags
import MapArchive.Error
import MapArchive.Geo.Degrees
import MapArchive.Header.Features
import MapArchive.Log
import MapArchive.Message.Block
import MapArchive.Message.Envelope
import MapArchive.Message.Header
import MapArchive.Proofs.Blob.Alike
import MapArchive.Proofs.Blob.Concatenation
import MapArchive.Proofs.Blob.Conduct
import MapArchive.Proofs.Blob.Content
import MapArchive.Proofs.Blob.Continuation
import MapArchive.Proofs.Blob.Decompression
import MapArchive.Proofs.Blob.Exhaustion
import MapArchive.Proofs.Blob.Frame
import MapArchive.Proofs.Blob.Framing
import MapArchive.Proofs.Blob.Halting
import MapArchive.Proofs.Blob.History
import MapArchive.Proofs.Blob.Offsets
import MapArchive.Proofs.Blob.Outcome
import MapArchive.Proofs.Blob.Packing
import MapArchive.Proofs.Blob.Seeking
import MapArchive.Proofs.Blob.Shortfall
import MapArchive.Proofs.Blob.Truncation
import MapArchive.Proofs.Block.ElementWalk
import MapArchive.Proofs.Block.GroupView
import MapArchive.Proofs.Block.Search
import MapArchive.Proofs.Block.StringTable
import MapArchive.Proofs.Block.Traversal
import MapArchive.Proofs.Bytes.Endian
import MapArchive.Proofs.Compression.Operations
import MapArchive.Proofs.Compression.Reading
import MapArchive.Proofs.Compression.Running
import MapArchive.Proofs.Compression.Stored
import MapArchive.Proofs.Element.Alignment
import MapArchive.Proofs.Element.Checked
import MapArchive.Proofs.Element.DenseStep
import MapArchive.Proofs.Element.Extent
import MapArchive.Proofs.Element.Locations
import MapArchive.Proofs.Element.MemberRows
import MapArchive.Proofs.Element.Members
import MapArchive.Proofs.Element.Storage
import MapArchive.Proofs.Element.TagArray
import MapArchive.Proofs.Element.TagRanges
import MapArchive.Proofs.Element.Tags
import MapArchive.Proofs.Message.Block
import MapArchive.Proofs.Message.Envelope
import MapArchive.Proofs.Message.Header
import MapArchive.Proofs.Message.Layout
import MapArchive.Proofs.Message.Recoding
import MapArchive.Proofs.Message.Schema
import MapArchive.Proofs.Reader.Accounts
import MapArchive.Proofs.Reader.Data
import MapArchive.Proofs.Reader.Exhaustion
import MapArchive.Proofs.Reader.FirstError
import MapArchive.Proofs.Reader.FirstFailure
import MapArchive.Proofs.Reader.Handover
import MapArchive.Proofs.Reader.InParallel
import MapArchive.Proofs.Reader.Iteration
import MapArchive.Proofs.Reader.Records
import MapArchive.Proofs.Reader.Reduction
import MapArchive.Proofs.Reader.Sharing
import MapArchive.Proofs.Reader.Tasks
import MapArchive.Proofs.Reader.Values
import MapArchive.Proofs.Reader.WholeFile
import MapArchive.Proofs.RunningSum
import MapArchive.Proofs.RunningSum.Differences
import MapArchive.Proofs.Stream.Exchange
import MapArchive.Proofs.Stream.Memory
import MapArchive.Proofs.Stream.Positioned
import MapArchive.Proofs.Stream.Recorder
import MapArchive.Proofs.Text.Completion
import MapArchive.Proofs.Text.Utf8
import MapArchive.Proofs.Text.Validity
import MapArchive.Proofs.Walk
import MapArchive.Proofs.Walk.InStep
import MapArchive.Proofs.Walk.Progress
import MapArchive.Proofs.Wire.Column
import MapArchive.Proofs.Wire.Field
import MapArchive.Proofs.Wire.Locality
import MapArchive.Proofs.Wire.Message
import MapArchive.Proofs.Wire.Record
import MapArchive.Proofs.Wire.Varint
import MapArchive.Proofs.Wire.Weight
import MapArchive.Reader.Data
import MapArchive.Reader.Iteration
import MapArchive.Reader.Parallel
import MapArchive.Render
import MapArchive.RunningSum
import MapArchive.Stream.Basic
import MapArchive.Stream.Faulty
import MapArchive.Stream.File
import MapArchive.Stream.Memory
import MapArchive.Text.Printable
import MapArchive.Text.Quoted
import MapArchive.Text.Utf8
import MapArchive.Version
import MapArchive.Walk
import MapArchive.Wire.Field
import MapArchive.Wire.Record
import MapArchive.Wire.Scalar
import MapArchive.Wire.Varint
import MapArchive.Wire.Zigzag
import MapArchive.Writer.Frame
import MapArchive.Writer.Sample
