import MapArchive.Decimal.Style
import MapArchive.Element.Basic
import MapArchive.Header.Features

/-!
# Values as text

Every value has a one-line text: its name followed by named parts in parentheses. Texts stand in
quotes, numbers in their shortest form, and what is absent is written as `None`.
-/

namespace MapArchive.Render

/-- A name with named parts. -/
def named (name : String) (parts : List (String × String)) : String :=
  name ++ "(" ++ ", ".intercalate (parts.map fun (part, value) => part ++ "=" ++ value) ++ ")"

/-- A truth value. -/
def bool (b : Bool) : String := if b then "True" else "False"

/-- A whole number. -/
def int (n : Int) : String := toString n

/-- A whole number that may be absent. -/
def int? : Option Int → String
  | none => "None"
  | some n => int n

/-- A list of texts. -/
def texts (list : List String) : String :=
  "[" ++ ", ".intercalate (list.map Quoted.text) ++ "]"

/-- A place. -/
def position (p : Position) : String :=
  "(" ++ Decimal.text p.lat ++ ", " ++ Decimal.text p.lon ++ ")"

/-- A header. -/
def header (h : HeaderBlock) : String :=
  named "HeaderBlock" [("required_features", texts h.requiredFeatures)]

/-- An area, which may be absent. -/
def boundingBox? : Option BoundingBox → String
  | none => "None"
  | some b =>
    named "BoundingBox"
      [("left", Decimal.text b.left), ("right", Decimal.text b.right), ("top", Decimal.text b.top),
        ("bottom", Decimal.text b.bottom)]

/-- A blob of unknown type. -/
def unknownBlob (type : String) : String := named "UnknownBlob" [("type", Quoted.text type)]

/-- A block. -/
def block (b : BlockMessage) : String :=
  named "PrimitiveBlock" [("groups", int b.groups.length)]

/-- An element. -/
def element (p : Parameters) : Element → String
  | .denseNode n =>
    named "DenseNode" [("id", int n.id), ("position", position (p.position n.lat n.lon))]
  | .node n =>
    named "Node"
      [("id", int n.id.toInt), ("position", position (p.position n.lat.toInt n.lon.toInt))]
  | .way w => named "Way" [("id", int w.id.toInt)]
  | .relation r => named "Relation" [("id", int r.id.toInt)]

/-- Data about the version of an element. -/
def metadata : Element.Metadata → String
  | .sparse info =>
    named "Info"
      [("version", int? info.version), ("timestamp", int? info.timestamp),
        ("changeset", int? info.changeset), ("uid", int? info.uid),
        ("visible", bool info.visible)]
  | .dense none => "None"
  | .dense (some info) =>
    named "DenseNodeInfo"
      [("version", int info.version), ("timestamp", int info.timestamp),
        ("changeset", int info.changeset), ("uid", int info.uid),
        ("user_sid", int info.userSid), ("visible", bool info.visible)]

/-- The name of a type of members. -/
def memberTypeName : MemberType → String
  | .node => "NODE"
  | .way => "WAY"
  | .relation => "RELATION"

/-- A type of members. -/
def memberType (t : MemberType) : String :=
  "<RelMemberType." ++ memberTypeName t ++ ": " ++ int t.code.toInt ++ ">"

/-- A member of a relation. -/
def member (m : Member) : String :=
  named "RelMember"
    [("role_sid", int m.roleSid), ("member_id", int m.memberId),
      ("member_type", memberType m.type)]

end MapArchive.Render
