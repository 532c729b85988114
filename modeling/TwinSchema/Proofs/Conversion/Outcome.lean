import TwinSchema.Conversion

/-!
# Outcomes of conversions

A conversion fails with a fault and gives nothing else, or it succeeds and gives
a node with its text. Which of the two happens, and whether there is an outcome
at all, is decided by what is read.
-/

namespace TwinSchema

namespace Outcome

/-- The outcome of a conversion that failed: a fault, no text and no node. -/
structure Failed (outcome : Outcome) (fault : Fault) : Prop where
  fault : outcome.fault? = some fault
  output : outcome.output = ""
  node : outcome.node? = none

/-- The outcome of a conversion that succeeded: a node and its text, and no
fault. -/
structure Succeeded (outcome : Outcome) (node : Node) (text : List Char) :
    Prop where
  fault : outcome.fault? = none
  output : outcome.output = String.ofList text
  node : outcome.node? = some node

end Outcome

variable {settings : Settings} {direction : Direction} {comments : Option Bool}
  {text : List Char}

theorem convert_of_node {node : Node} (read : direction.read text = .ok node) :
    ∃ outcome, convert settings direction comments text = .ok outcome ∧
      outcome.Succeeded node
        ((direction.renderer settings comments).render node) := by
  rw [convert, read]
  exact ⟨_, rfl, rfl, rfl, rfl⟩

theorem convert_of_fault {fault : Fault}
    (read : direction.read text = .error (.fault fault)) :
    ∃ outcome, convert settings direction comments text = .ok outcome ∧
      outcome.Failed fault := by
  rw [convert, read]
  exact ⟨_, rfl, rfl, rfl, rfl⟩

theorem convert_of_breakdown {breakdown : Breakdown}
    (read : direction.read text = .error (.breakdown breakdown)) :
    convert settings direction comments text = .error breakdown := by
  rw [convert, read]

end TwinSchema
