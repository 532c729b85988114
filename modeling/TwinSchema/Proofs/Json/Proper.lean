import TwinSchema.Json.Token

/-!
# Values that documents can hold

A document can hold a value when its integers have few enough digits to be read
again and the names in each of its records are distinct. Not-a-number and the
infinities it can hold as well, though JSON proper cannot.
-/

namespace TwinSchema.Json

/-- How many digits an integer has. -/
def digitCount (number : Int) : Nat := (Nat.toDigits 10 number.natAbs).length

/-- Whether an integer has few enough digits to be read. -/
def Scalar.isShort : Scalar → Bool
  | .integer value => digitCount value ≤ integerDigitLimit
  | _ => true

mutual

/-- Whether a document can hold a value. -/
def Value.isProper : Value → Bool
  | .scalar value => value.isShort
  | .list items => areProper items
  | .record fields =>
      decide (fields.map Prod.fst).Nodup && areProperFields fields

/-- Whether a document can hold each of several values. -/
def areProper : List Value → Bool
  | [] => true
  | value :: rest => value.isProper && areProper rest

/-- Whether a document can hold the contents of fields. -/
def areProperFields : List (String × Value) → Bool
  | [] => true
  | (_, value) :: rest => value.isProper && areProperFields rest

end

/-- Whether a value without parts is neither infinite nor not-a-number. -/
def Scalar.isFinite : Scalar → Bool
  | .float .nan => false
  | .float (.infinite _) => false
  | _ => true

mutual

/-- Whether there is nothing infinite and no not-a-number in a value. -/
def Value.isFinite : Value → Bool
  | .scalar value => value.isFinite
  | .list items => areFinite items
  | .record fields => areFiniteFields fields

/-- Whether each of several values is finite. -/
def areFinite : List Value → Bool
  | [] => true
  | value :: rest => value.isFinite && areFinite rest

def areFiniteFields : List (String × Value) → Bool
  | [] => true
  | (_, value) :: rest => value.isFinite && areFiniteFields rest

end

end TwinSchema.Json
