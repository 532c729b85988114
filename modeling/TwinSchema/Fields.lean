/-!
# Fields

A record or a table is a list of keys with their contents, in the order in which
the keys first appeared.
-/

namespace TwinSchema

variable {Key Content : Type} [DecidableEq Key]

/-- Sets a field: a new key goes to the end, and a key already present keeps its
place and takes the new content. -/
def setField (key : Key) (content : Content) :
    List (Key × Content) → List (Key × Content)
  | [] => [(key, content)]
  | (other, old) :: rest =>
      if other = key then (other, content) :: rest
      else (other, old) :: setField key content rest

/-- Setting a field adds its key unless it was there. -/
theorem map_fst_setField (key : Key) (content : Content)
    (fields : List (Key × Content)) :
    (setField key content fields).map Prod.fst =
      if key ∈ fields.map Prod.fst then fields.map Prod.fst
      else fields.map Prod.fst ++ [key] := by
  induction fields with
  | nil => simp [setField]
  | cons field rest ih =>
      obtain ⟨other, old⟩ := field
      by_cases same : other = key
      · simp [setField, same]
      · by_cases member : key ∈ rest.map Prod.fst
        · simp_all [setField]
        · have different : ¬key = other := fun equal => same equal.symm
          simp_all [setField]

theorem nodup_setField (key : Key) (content : Content)
    {fields : List (Key × Content)} (distinct : (fields.map Prod.fst).Nodup) :
    ((setField key content fields).map Prod.fst).Nodup := by
  rw [map_fst_setField]
  split
  next => exact distinct
  next fresh =>
    refine List.nodup_append.mpr ⟨distinct, by simp, ?_⟩
    rintro other member same single rfl
    rw [List.mem_singleton.mp single] at member
    exact fresh member

theorem mem_setField {key : Key} {content : Content} {field : Key × Content}
    {fields : List (Key × Content)} (member : field ∈ setField key content fields) :
    field = (key, content) ∨ field ∈ fields := by
  induction fields with
  | nil => exact .inl (List.mem_singleton.mp member)
  | cons first fields ih =>
      obtain ⟨other, old⟩ := first
      rw [setField] at member
      split at member
      next same =>
        rcases List.mem_cons.mp member with rfl | later
        · exact .inl (by rw [same])
        · exact .inr (List.mem_cons_of_mem _ later)
      next =>
        rcases List.mem_cons.mp member with rfl | later
        · exact .inr List.mem_cons_self
        · exact (ih later).imp id (List.mem_cons_of_mem _)

/-- A new key goes to the end. -/
theorem setField_of_notMem {key : Key} {content : Content}
    {fields : List (Key × Content)} (fresh : key ∉ fields.map Prod.fst) :
    setField key content fields = fields ++ [(key, content)] := by
  induction fields with
  | nil => rfl
  | cons field fields ih =>
      rw [List.map_cons, List.mem_cons, not_or] at fresh
      rw [setField, if_neg (Ne.symm fresh.1), ih fresh.2, List.cons_append]

end TwinSchema
