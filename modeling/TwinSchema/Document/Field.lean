/-!
# Fields of schema documents

The names under which a document keeps the parts of a node. Some parts may stand
under several names; the preferred one comes first and is the one written.
-/

namespace TwinSchema.Document

/-- The names for the values of an enumeration. -/
def choiceFields : List String := ["enum", "enumValues"]

def memberFields : List String := ["oneOf", "unionMembers", "unionTypes"]

def literalFields : List String := ["const", "literalValue", "literal"]

end TwinSchema.Document
