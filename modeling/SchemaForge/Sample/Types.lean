import SchemaForge.Schema

/-! A sample schema with every kind of type and attribute, and as many further types as asked for. -/
namespace SchemaForge
namespace Sample

def byteType (size : Int) : Value :=
  .table [("type", "byte"), ("size", .int size), ("signedness", "unsigned"),
    ("comments", "sample value")]

def enumType (size : Int) (names : List String) : Value :=
  let value := fun i name => .table
    [("name", .text name), ("value", .int (1 <<< i : Nat)), ("comments", "sample enumerator")]
  .table [("type", "enum"), ("size", .int size), ("signedness", "unsigned"),
    ("comments", "sample enumeration"), ("values", .list (names.mapIdx value))]

def structType (layout : List Value) : Value :=
  .table [("type", "struct"), ("comments", "sample structure"), ("layout", .list layout)]

def inlined (type : String) : Value :=
  .table [("type", type), ("disposition", "inline"), ("comments", "sample part")]

def member (name type : String) (more : List (String × Value)) : Value :=
  .table (("name", name) :: ("type", type) :: ("comments", "sample member") :: more)

def plain (name type : String) : Value := member name type []

def number (name : String) (size : Int) : Value :=
  member name "byte" [("size", .int size), ("signedness", "unsigned")]

def bytes (name size : String) : Value := member name "byte" [("size", size)]

def array (name type size : String) : Value := member name type [("size", size)]

def constant (name type : String) (value : Int) : Value :=
  member name type [("disposition", "const"), ("value", .int value), ("size", .int 2)]

def dependent (name type value : String) : Value :=
  member name type [("condition", "registrationType"), ("condition_operation", "equals"),
    ("condition_value", value)]

def atoms : List (String × Value) :=
  [("Amount", 8), ("BlockDuration", 8), ("Timestamp", 8), ("MosaicId", 8), ("NamespaceId", 8),
    ("MosaicNonce", 4), ("UnresolvedMosaicId", 8), ("UnresolvedAddress", 24), ("Address", 24),
    ("Key", 32), ("Hash256", 32), ("Signature", 64)].map fun (name, size) => (name, byteType size)

def enums : List (String × Value) :=
  [("NetworkType", enumType 1 ["publicNet", "testNet"]),
    ("TransactionType", enumType 2 ["reserved"]),
    ("LinkAction", enumType 1 ["unlink", "link"]),
    ("NamespaceRegistrationType", enumType 1 ["root", "child"]),
    ("AccountRestrictionFlags", enumType 2 ["address", "mosaicId", "outgoing", "block"]),
    ("MosaicFlags", enumType 1 ["supplyMutable", "transferable", "restrictable"])]

/-- A transaction: the header that all share, its fixed numbers, and its body. -/
def transaction (header body : String) (type : Int) : Value :=
  structType [inlined header, constant "version" "byte" 1, constant "entityType" "TransactionType" type,
    inlined body]

def transferBody : Value :=
  structType [plain "recipientAddress" "UnresolvedAddress", number "messageSize" 2,
    number "mosaicsCount" 1, number "transferTransactionBody_Reserved1" 4,
    member "mosaics" "UnresolvedMosaic" [("size", "mosaicsCount"), ("sort_key", "mosaicId")],
    (bytes "message" "messageSize").put "comments" "sample message \\note the message may be plain"]

def namespaceBody : Value :=
  structType [dependent "duration" "BlockDuration" "root",
    dependent "parentId" "NamespaceId" "child", plain "id" "NamespaceId",
    plain "registrationType" "NamespaceRegistrationType", number "nameSize" 1,
    bytes "name" "nameSize"]

def cosignature : String × Value :=
  ("Cosignature", structType [plain "signerPublicKey" "Key", plain "signature" "Signature"])

def mosaic : String × Value :=
  ("UnresolvedMosaic", structType [plain "mosaicId" "UnresolvedMosaicId", plain "amount" "Amount"])

/-- The transactions, their headers and their bodies. -/
def transactions : List (String × Value) :=
  [("SizePrefixedEntity", structType [number "size" 4]),
    ("VerifiableEntity", structType [plain "signature" "Signature"]),
    ("EntityBody", structType [plain "signerPublicKey" "Key", number "version" 1,
      plain "network" "NetworkType", plain "type" "TransactionType"]),
    ("Transaction", structType [inlined "VerifiableEntity", inlined "EntityBody",
      plain "fee" "Amount", plain "deadline" "Timestamp"]),
    ("EmbeddedTransaction", structType [inlined "SizePrefixedEntity",
      number "embeddedTransactionHeader_Reserved1" 4, inlined "EntityBody"]),
    cosignature,
    ("TransferTransactionBody", transferBody),
    ("TransferTransaction", transaction "Transaction" "TransferTransactionBody" 0x4154),
    ("EmbeddedTransferTransaction",
      transaction "EmbeddedTransaction" "TransferTransactionBody" 0x4154),
    ("NamespaceRegistrationTransactionBody", namespaceBody),
    ("NamespaceRegistrationTransaction",
      transaction "Transaction" "NamespaceRegistrationTransactionBody" 0x414E),
    ("AccountAddressRestrictionTransactionBody", structType
      [plain "restrictionFlags" "AccountRestrictionFlags", number "restrictionAdditionsCount" 1,
        array "restrictionAdditions" "UnresolvedAddress" "restrictionAdditionsCount"]),
    ("AggregateTransactionBody", structType [plain "transactionsHash" "Hash256",
      number "payloadSize" 4,
      member "transactions" "EmbeddedTransaction" [("disposition", "var"), ("size", "payloadSize")],
      member "cosignatures" "Cosignature" [("disposition", "fill"), ("size", .int 0)]]),
    ("AggregateCompleteTransaction",
      transaction "Transaction" "AggregateTransactionBody" 0x4141)]

/-- One further type of each sort. -/
def extra (i : Nat) : List (String × Value) :=
  let size := [1, 2, 4, 8].getD (i % 4) 1
  [(s!"ExtraByte{i}", byteType size),
    (s!"ExtraEnum{i}", enumType 1 ["first", "second", "third", "fourth"]),
    (s!"ExtraStruct{i}", structType [plain "value" s!"ExtraByte{i}", plain "choice" s!"ExtraEnum{i}",
      number "itemsCount" 1, array "items" "UnresolvedMosaic" "itemsCount", plain "amount" "Amount"])]

def extras (n : Nat) : List (String × Value) := (List.range n).flatMap extra

/-- The sample schema with `n` further types of each sort. -/
def schema (n : Nat) : Schema := ⟨atoms ++ enums ++ [mosaic] ++ transactions ++ extras n⟩

/-- The sample schema without transactions. -/
def plainSchema (n : Nat) : Schema := ⟨atoms ++ enums ++ [mosaic] ++ extras n ++ [cosignature]⟩

/-- A schema for builders: every transaction with its body. -/
def builderSchema : Schema :=
  let bodies : List (String × Value) :=
    [("Transfer", transferBody),
      ("NamespaceRegistration", namespaceBody),
      ("MosaicDefinition", structType [plain "id" "MosaicId", plain "duration" "BlockDuration",
        plain "nonce" "MosaicNonce", plain "flags" "MosaicFlags", number "divisibility" 1]),
      ("AccountKeyLink", structType [plain "linkedPublicKey" "Key", plain "linkAction" "LinkAction"]),
      ("AccountAddressRestriction", structType [plain "restrictionFlags" "AccountRestrictionFlags",
        number "restrictionAdditionsCount" 1, number "restrictionDeletionsCount" 1,
        array "restrictionAdditions" "UnresolvedAddress" "restrictionAdditionsCount",
        array "restrictionDeletions" "UnresolvedAddress" "restrictionDeletionsCount"])]
  ⟨atoms ++ enums ++ [mosaic] ++ bodies.flatMap fun (name, body) =>
    [(name ++ "TransactionBody", body),
      (name ++ "Transaction", structType [inlined (name ++ "TransactionBody")])]⟩

/-- A notice of ten lines. -/
def notice : String := "/**\n" ++ String.join (List.replicate 8 "***\n") ++ "**/\n"

/-- An attribute of each kind. -/
def attributes : List Value :=
  let named := fun (name type : String) (more : List (String × Value)) =>
    Value.table (("name", name) :: ("type", type) :: more)
  [named "a" "byte" [("size", .int 4)],
    named "b" "byte" [("size", .int 32)],
    named "c" "byte" [("size", "xCount")],
    named "d" "UnresolvedMosaic" [("size", "xCount")],
    named "e" "UnresolvedMosaic" [("size", .int 3)],
    named "f" "MosaicFlags" [],
    named "g" "Amount" [],
    named "h" "EmbeddedTransaction" [("disposition", "var"), ("size", .int 0)],
    named "i" "Cosignature" [("disposition", "fill"), ("size", .int 0)],
    named "j" "EntityBody" [("disposition", "inline")],
    named "k_Reserved1" "byte" [("size", .int 4)],
    named "mosaicsCount" "byte" [("size", .int 1)]]

/-- The layout in which the attributes stand: an array that one of them counts. -/
def siblings : Value := .list [array "mosaics" "UnresolvedMosaic" "mosaicsCount"]

end Sample
end SchemaForge
