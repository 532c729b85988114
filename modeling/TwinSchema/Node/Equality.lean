import TwinSchema.Node.Basic

/-!
# Interchangeable schemas

Two schemas are interchangeable when they say the same: the order of properties
does not matter, and numbers count by their value whatever their form.
-/

namespace TwinSchema

/-- A value as a number, where truth values count as zero and one: an integer,
or a float that equals none. -/
inductive Numeral where
  | integer (value : Int)
  | other (value : Number.Binary64)

/-- The number that a value is equal to, if it is one. -/
def Numeral.ofScalar? : Json.Scalar → Option Numeral
  | .bool value => some (.integer (if value then 1 else 0))
  | .integer value => some (.integer value)
  | .float value =>
      match value.toInteger? with
      | some whole => some (.integer whole)
      | none => some (.other value)
  | .null | .text _ => none

/-- Numerical equality. -/
def Numeral.same : Numeral → Numeral → Bool
  | .integer left, .integer right => left == right
  | .other left, .other right => left.same right
  | _, _ => false

/-- Equality of values in which numbers count by their value. -/
def sameScalar (left right : Json.Scalar) : Bool :=
  match Numeral.ofScalar? left, Numeral.ofScalar? right with
  | some left, some right => left.same right
  | none, none => left == right
  | _, _ => false

def sameChoices : List Choice → List Choice → Bool
  | [], [] => true
  | left :: lefts, right :: rights =>
      sameScalar left.toScalar right.toScalar && sameChoices lefts rights
  | _, _ => false

mutual

/-- Whether two schemas are interchangeable. -/
def Node.same : Node → Node → Bool
  | .leaf leftModifiers leftKind, .leaf rightModifiers rightKind =>
      leftModifiers == rightModifiers && leftKind == rightKind
  | .literal leftModifiers left, .literal rightModifiers right =>
      leftModifiers == rightModifiers && sameScalar left right
  | .enumeration leftModifiers left, .enumeration rightModifiers right =>
      leftModifiers == rightModifiers &&
        match left, right with
        | some left, some right => sameChoices left right
        | none, none => true
        | _, _ => false
  | .array leftModifiers none, .array rightModifiers none =>
      leftModifiers == rightModifiers
  | .array leftModifiers (some left), .array rightModifiers (some right) =>
      leftModifiers == rightModifiers && left.same right
  | .object leftModifiers left, .object rightModifiers right =>
      leftModifiers == rightModifiers && left.length == right.length &&
        sameProperties left right
  | .union leftModifiers none, .union rightModifiers none =>
      leftModifiers == rightModifiers
  | .union leftModifiers (some left), .union rightModifiers (some right) =>
      leftModifiers == rightModifiers && sameMembers left right
  | _, _ => false

/-- Whether each property on the left has an interchangeable one of the same
name on the right. -/
def sameProperties : List (String × Node) → List (String × Node) → Bool
  | [], _ => true
  | (name, left) :: lefts, rights =>
      (match rights.lookup name with
        | some right => left.same right
        | none => false) &&
        sameProperties lefts rights

/-- Whether members are interchangeable one by one. -/
def sameMembers : List Node → List Node → Bool
  | [], [] => true
  | left :: lefts, right :: rights => left.same right && sameMembers lefts rights
  | _, _ => false

end

end TwinSchema
