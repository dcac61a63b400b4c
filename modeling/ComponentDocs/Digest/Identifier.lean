import ComponentDocs.Digest.Md5
import ComponentDocs.Digest.Sha1
import ComponentDocs.Json.Printer
import ComponentDocs.Text.Utf8

/-!
# Identifiers and content digests

* `nodeId`: the identifier of a graph node for a seed text, a name-based UUID;
* `contentDigest`: the MD5 digest of a text, or of the canonical JSON of any other value.
-/

namespace ComponentDocs

namespace Digest

/-! ## Name-based identifiers -/

/-- The bytes of the namespace for URLs. -/
def urlNamespace : List UInt8 :=
  [0x6b, 0xa7, 0xb8, 0x11, 0x9d, 0xad, 0x11, 0xd1, 0x80, 0xb4, 0x00, 0xc0, 0x4f, 0xd4, 0x30, 0xc8]

/-- The sixteen bytes with the version number five and the variant bits of a UUID. -/
def markVersion (bytes : List UInt8) : List UInt8 :=
  (bytes.modify 6 fun b => (b &&& 0x0f) ||| 0x50).modify 8 fun b => (b &&& 0x3f) ||| 0x80

/-- The identifier of a name in a namespace. -/
def nameId (space : List UInt8) (name : String) : List UInt8 :=
  markVersion ((sha1 (space ++ Text.encode name.toList)).take 16)

/-- The five groups of hexadecimal digits of an identifier. -/
def idText (bytes : List UInt8) : List Char :=
  let group start count := hex ((bytes.drop start).take count)
  group 0 4 ++ '-' :: group 4 2 ++ '-' :: group 6 2 ++ '-' :: group 8 2 ++ '-' :: group 10 6

/-- The namespace of all graph nodes. -/
def nodeNamespace : List UInt8 := nameId urlNamespace "docmeta"

end Digest

/-- The identifier of the node with a seed. -/
def nodeId (seed : String) : String := String.ofList (Digest.idText (Digest.nameId Digest.nodeNamespace seed))

/-! ## Content -/

/-- The text of a value that is hashed: a string itself, else its JSON with sorted keys. -/
def hashedText : Json → List Char
  | .str text => text.toList
  | value => value.canonical.compact

def contentDigest (value : Json) : String :=
  String.ofList (Digest.hex (Digest.md5 (Text.encode (hashedText value))))

end ComponentDocs
