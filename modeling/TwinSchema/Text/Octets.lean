/-!
# Octets

Texts as octets in UTF-8.
-/

namespace TwinSchema.Text

/-- The text that octets stand for, unless they are no UTF-8. -/
def decoded? (octets : List UInt8) : Option String :=
  String.fromUTF8? ⟨octets.toArray⟩

end TwinSchema.Text
