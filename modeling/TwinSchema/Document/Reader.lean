import TwinSchema.Document.Node
import TwinSchema.Relaxed.Reader

/-!
# Reading schema documents

A document is decoded, its shape is checked, and then its records become nodes.
The check comes first, so that it is the only way in which a decoded document is
refused.
-/

namespace TwinSchema.Document

open Json

/-- Checks the shape of a decoded document and turns it into a node. -/
def ofValue (document : Value) : Except Fault Node :=
  match document with
  | .record fields =>
      match told : foremost (violations (.record fields)) with
      | none =>
          .ok ((node? (.record fields)).get
            (isSome_node? _ (foremost_eq_none.mp told)))
      | some violation =>
          .error (.invalidDocument violation.problem
            (placesText violation.places))
  | _ => .error (.invalidDocument "Schema document must be a JSON object" "$")

/-- A document becomes a node where its check finds nothing. -/
theorem ofValue_eq_ok_iff {document : Value} {node : Node} :
    ofValue document = .ok node ↔
      violations document = [] ∧ node? document = some node := by
  cases document with
  | record fields =>
      rw [ofValue]
      split
      next told =>
        have shaped := foremost_eq_none.mp told
        rw [Except.ok.injEq, Option.eq_some_iff_get_eq, and_iff_right shaped,
          exists_prop_of_true (isSome_node? _ shaped)]
      next violation told =>
        refine iff_of_false (by simp) fun accepted => ?_
        rw [foremost_eq_none.mpr accepted.1] at told
        cases told
  | scalar _ | list _ => simp [ofValue, node?]

/-- Reads a schema document. -/
def read (text : List Char) : Except Failure Node :=
  match Relaxed.decode text with
  | .error refusal => .error refusal.toFailure
  | .ok document =>
      match ofValue document with
      | .ok node => .ok node
      | .error fault => .error (.fault fault)

/-- Whether a decoded value looks like a schema document: a record whose type is
a text. -/
def hasTextType (document : Value) : Bool :=
  match document.field? "type" with
  | some (.scalar (.text _)) => true
  | _ => false

/-- Whether a text looks like a schema document. A text that cannot be decoded
does not; an integer of too many digits leaves the question open. -/
def recognize (text : List Char) : Except Breakdown Bool :=
  match Relaxed.decode text with
  | .ok document => .ok (hasTextType document)
  | .error (.malformed _) => .ok false
  | .error (.longInteger digits) => .error (.longInteger digits)

end TwinSchema.Document
