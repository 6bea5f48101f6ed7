import MapArchive.Error
import MapArchive.Message.Block
import MapArchive.Text.Utf8

/-!
# Looking up strings

Elements refer to strings by their index in the table of their block. An index outside of the
table and an entry that is no UTF-8 are errors of that look-up alone.
-/

namespace MapArchive.StringTable

/-- The string with an index, as it is stored. -/
def get? (table : StringTable) (index : Int) : Option ByteArray :=
  if index < 0 then none else table.entries[index.toNat]?

/-- The text with an index. -/
def resolve (table : StringTable) (index : Int) : Except ArchiveError String :=
  match table.get? index with
  | none => .error (.indexOutOfBounds index)
  | some entry =>
    match Utf8.decode (octets entry) with
    | .ok text => .ok (String.ofList text)
    | .error fault => .error (.notText index fault.reason)

/-- A table of texts. -/
def ofTexts (texts : List String) : StringTable :=
  ⟨(texts.map fun t => ofOctets (Utf8.encode t.toList)).toArray⟩

end MapArchive.StringTable
