import MapArchive.Text.Quoted

/-!
# What can be wrong with an archive

Each constructor of `ArchiveError` is a cause. `message` gives its words and `kind` its place among
the kinds of errors, which form a tree: every kind but the topmost has a parent.
-/

namespace MapArchive

/-- Kinds of errors. -/
inductive ErrorKind where
  /-- Any error of an archive. -/
  | archive
  /-- An error in the framing or content of a blob. -/
  | blob
  /-- The length in front of a record could not be read. -/
  | invalidHeaderSize
  /-- A header is too long. -/
  | headerTooBig
  /-- The content of a blob is too long. -/
  | messageTooBig
  /-- A blob has no content. -/
  | emptyBlob
  /-- A blob is compressed in a way that is not supported. -/
  | unsupportedCompression
  /-- Bytes are no message. -/
  | message
  /-- A string could not be looked up. -/
  | stringTable
  /-- An index lies outside of the string table. -/
  | indexOutOfBounds
  /-- An entry of the string table is no text. -/
  | notText
  /-- A header requires features that are not supported. -/
  | unsupportedFeatures
  deriving DecidableEq, Repr

/-- The kind that a kind is a case of. -/
def ErrorKind.parent? : ErrorKind → Option ErrorKind
  | .archive => none
  | .blob | .message | .stringTable | .unsupportedFeatures => some .archive
  | .invalidHeaderSize | .headerTooBig | .messageTooBig | .emptyBlob | .unsupportedCompression =>
    some .blob
  | .indexOutOfBounds | .notText => some .stringTable

/-- A kind followed by the kinds above it. -/
def ErrorKind.lineage (kind : ErrorKind) : List ErrorKind :=
  match kind.parent? with
  | none => [kind]
  | some parent =>
    match parent.parent? with
    | none => [kind, parent]
    | some top => [kind, parent, top]

/-- Something wrong with an archive. -/
inductive ArchiveError where
  /-- Something not covered by a cause of its own. -/
  | other (text : String)
  /-- Something wrong with a blob not covered by a cause of its own. -/
  | otherBlob (text : String)
  /-- The four bytes that give the length of a header could not be read. -/
  | invalidHeaderSize
  /-- A header of this length is not read. -/
  | headerTooBig (size : Int)
  /-- Content of this length, or longer, is not read. -/
  | messageTooBig (size : Int)
  /-- None of the content fields is present. -/
  | emptyBlob
  /-- The content is stored in a compression that is known by name only. -/
  | unsupportedCompression (name : String)
  /-- What was read at a place is wrong, for a reason that can be given. -/
  | malformed (location reason : String)
  /-- What was read at a place was refused by a decoder or the stream, which gives no reason. -/
  | undecodable (location : String)
  /-- A failed look-up not covered by a cause of its own. -/
  | otherLookup (text : String) (index : Int)
  /-- There is no string with this index. -/
  | indexOutOfBounds (index : Int)
  /-- The string with this index is no text. -/
  | notText (index : Int) (reason : String)
  /-- These features are required. They are sorted by their code points. -/
  | unsupportedFeatures (features : List String)
  deriving DecidableEq, Repr

namespace ArchiveError

/-- The kind of an error. -/
def kind : ArchiveError → ErrorKind
  | .other _ => .archive
  | .otherBlob _ => .blob
  | .invalidHeaderSize => .invalidHeaderSize
  | .headerTooBig _ => .headerTooBig
  | .messageTooBig _ => .messageTooBig
  | .emptyBlob => .emptyBlob
  | .unsupportedCompression _ => .unsupportedCompression
  | .malformed _ _ | .undecodable _ => .message
  | .otherLookup _ _ => .stringTable
  | .indexOutOfBounds _ => .indexOutOfBounds
  | .notText _ _ => .notText
  | .unsupportedFeatures _ => .unsupportedFeatures

/-- The words for an error. There are none where the reason is not known. -/
def message? : ArchiveError → Option String
  | .other text | .otherBlob text | .otherLookup text _ => some text
  | .invalidHeaderSize => some "blob header size could not be decoded"
  | .headerTooBig size => some s!"blob header is too big: {size} bytes"
  | .messageTooBig size => some s!"blob message is too big: {size} bytes"
  | .emptyBlob => some "blob is missing fields 'raw' and 'zlib_data'"
  | .unsupportedCompression name => some s!"blob uses unsupported compression, {name}"
  | .malformed location reason =>
    some ("protobuf error at " ++ Quoted.text location ++ ": " ++ reason)
  | .undecodable _ => none
  | .indexOutOfBounds index => some s!"stringtable index out of bounds: {index}"
  | .notText index reason => some s!"invalid UTF-8 at string table index {index}: {reason}"
  | .unsupportedFeatures features =>
    some ("HeaderBlock requests unsupported features: " ++ ", ".intercalate features)

/-- What an error says was being read, if it says so. -/
def location? : ArchiveError → Option String
  | .malformed location _ | .undecodable location => some location
  | _ => none

/-- The error for required features, in any order. -/
def ofFeatures (features : List String) : ArchiveError :=
  .unsupportedFeatures (features.mergeSort fun a b => decide (a ≤ b))

end ArchiveError

end MapArchive
