import SchemaForge.Path
import SchemaForge.Schema

/-! What a C++ transaction builder needs to know beyond the schema, transaction by transaction. -/
namespace SchemaForge

namespace Hint

/-- Types that belong to the namespace of the model. -/
def model (types : List String) : Value := .table (types.map fun type => (type, "model"))

/-- Headers for setters that are written by hand. -/
def includes : List (String × Value) :=
  [("MosaicDefinitionTransaction", .list ["plugins/txes/mosaic/src/model/MosaicIdGenerator.h"]),
    ("NamespaceRegistrationTransaction",
      .list ["plugins/txes/namespace/src/model/NamespaceIdGenerator.h"])]

/-- Types that are qualified by a namespace. -/
def namespaces : List (String × Value) :=
  [("VotingKeyLinkTransaction", model ["LinkAction"]),
    ("VrfKeyLinkTransaction", model ["LinkAction"]),
    ("AddressAliasTransaction", model ["AliasAction"]),
    ("MosaicAliasTransaction", model ["AliasAction"]),
    ("AccountKeyLinkTransaction", model ["LinkAction"]),
    ("NodeKeyLinkTransaction", model ["LinkAction"]),
    ("HashLockTransaction", model ["UnresolvedMosaic"]),
    ("MosaicDefinitionTransaction", model ["MosaicFlags", "MosaicProperty"]),
    ("MosaicSupplyChangeTransaction", model ["MosaicSupplyChangeAction"]),
    ("SecretLockTransaction", model ["LockHashAlgorithm", "UnresolvedMosaic"]),
    ("SecretProofTransaction", model ["LockHashAlgorithm"]),
    ("TransferTransaction", model ["Mosaic", "UnresolvedMosaic"]),
    ("NamespaceRegistrationTransaction", model ["NamespaceRegistrationType"]),
    ("AccountAddressRestrictionTransaction", model ["AccountRestrictionFlags"]),
    ("AccountMosaicRestrictionTransaction", model ["AccountRestrictionFlags"]),
    ("AccountOperationRestrictionTransaction", model ["AccountRestrictionFlags", "EntityType"]),
    ("MosaicGlobalRestrictionTransaction", model ["MosaicRestrictionType"])]

/-- The plugins that define the transactions. -/
def plugins : List (String × Value) :=
  [("VotingKeyLink", "../coresystem"), ("VrfKeyLink", "../coresystem"),
    ("AccountKeyLink", "account_link"), ("NodeKeyLink", "account_link"),
    ("AggregateComplete", "aggregate"), ("AggregateBonded", "aggregate"),
    ("HashLock", "lock_hash"), ("SecretLock", "lock_secret"), ("SecretProof", "lock_secret"),
    ("AccountMetadata", "metadata"), ("MosaicMetadata", "metadata"),
    ("NamespaceMetadata", "metadata"), ("MosaicDefinition", "mosaic"),
    ("MosaicSupplyChange", "mosaic"), ("MultisigAccountModification", "multisig"),
    ("AddressAlias", "namespace"), ("MosaicAlias", "namespace"),
    ("NamespaceRegistration", "namespace"), ("AccountAddressRestriction", "restriction_account"),
    ("AccountMosaicRestriction", "restriction_account"),
    ("AccountOperationRestriction", "restriction_account"),
    ("MosaicAddressRestriction", "restriction_mosaic"),
    ("MosaicGlobalRestriction", "restriction_mosaic"), ("Transfer", "transfer")].map
    fun (name, plugin) => (name ++ "Transaction", .text plugin)

/-- Other names for fields of transactions. No transaction needs any. -/
def memberNames : List (String × Value) := [("placeholder", .null)]

/-- Fields without a setter, and what they are set to. -/
def setters : List (String × Value) :=
  [("MosaicDefinitionTransaction",
      .table [("id", "model::GenerateMosaicId(model::GetSignerAddress(*pTransaction), m_nonce)")]),
    ("NamespaceRegistrationTransaction",
      .table [("registrationType", "m_registrationType"),
        ("id", .text ("model::GenerateNamespaceId(m_parentId, \x7b\x7b reinterpret_cast<const char*>(" ++
          "m_name.data()), m_name.size() \x7d\x7d)"))])]

def topics : List (String × List (String × Value)) :=
  [("includes", includes), ("namespaces", namespaces), ("plugin", plugins), ("rewrites", memberNames),
    ("setters", setters)]

/-- The directory with a file for each topic. -/
def directory : List String := ["generators", "cpp_builder", "hints"]

/-- The hints in the file that a name leads to. -/
def file (name : String) : Checked (List (String × Value)) := do
  let isDirectory := fun (path : List String) => path.isPrefixOf directory
  let path ← Path.follow isDirectory directory (← Path.pieces (name ++ ".yaml"))
  match topics.find? fun (topic, _) => path == directory ++ [topic ++ ".yaml"] with
  | some (_, hints) => return hints
  | none => throw .noFile

end Hint

/-- The hints for one transaction: a table of topics, or whatever stands in its place. -/
abbrev Hints := Value

namespace Hints

/-- Adds a hint to those of a transaction. -/
def add (topic : String) (all : List (String × Hints)) (entry : String × Value) :
    List (String × Hints) :=
  match all with
  | [] => [(entry.1, .table [(topic, entry.2)])]
  | (name, hints) :: rest =>
    if name = entry.1 then (name, hints.put topic entry.2) :: rest
    else (name, hints) :: add topic rest entry

/-- The hints of all transactions on some topics. -/
def collect (topics : List String) : Checked (List (String × Hints)) :=
  topics.foldlM (fun all topic => do return (← Hint.file topic).foldl (add topic) all) []

/-- The hints for a transaction on every topic. -/
def ofTransaction (name : String) : Checked Hints := do
  Checked.require name ((← collect (Hint.topics.map (·.1))).lookup name)

/-- The entry for a key in the table of a topic, or the empty text. -/
def entry (hints : Hints) (topic : String) (key : Value) : Checked Value := do
  if !(← hints.has topic) then return ""
  return (← (← hints.need topic).find key).getD ""

def plugin (hints : Hints) : Checked Value := hints.need "plugin"

/-- What a topic lists. -/
def items (hints : Hints) (topic : String) : Checked (List Value) := do
  if !(← hints.has topic) then return []
  (← hints.need topic).items

end Hints
end SchemaForge
