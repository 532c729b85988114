import Mathlib.Data.List.Induction
import TwinSchema.Fields

/-!
# Fields set one after the other

What a record holds once fields are set one after the other: every key stands
where it first appeared, with the content that came last.
-/

namespace TwinSchema

variable {Key Content : Type} [DecidableEq Key]

/-- A record in which fields are set one after the other. -/
def setFields (fields : List (Key × Content)) : List (Key × Content) :=
  fields.foldl (fun before field => setField field.1 field.2 before) []

theorem setFields_append (fields : List (Key × Content)) (key : Key) (content : Content) :
    setFields (fields ++ [(key, content)]) = setField key content (setFields fields) := by
  rw [setFields, List.foldl_append]
  rfl

section Lookup

variable [BEq Key] [LawfulBEq Key]

theorem lookup_field (key other : Key) (content : Content) (fields : List (Key × Content)) :
    ((key, content) :: fields).lookup other =
      if other = key then some content else fields.lookup other := by
  rw [List.lookup_cons]
  split
  next same => rw [if_pos (eq_of_beq same)]
  next apart => rw [if_neg (beq_eq_false_iff_ne.mp apart)]

omit [DecidableEq Key] in
theorem lookup_iff_mem {fields : List (Key × Content)}
    (distinct : (fields.map Prod.fst).Nodup) {key : Key} {content : Content} :
    fields.lookup key = some content ↔ (key, content) ∈ fields := by
  constructor
  · intro found
    obtain ⟨before, after, rfl, -⟩ := List.lookup_eq_some_iff.mp found
    simp
  · intro member
    induction fields with
    | nil => cases member
    | cons field fields ih =>
        rw [List.map_cons, List.nodup_cons] at distinct
        rcases List.mem_cons.mp member with rfl | later
        · simp
        · have different : (key == field.1) = false := by
            rw [beq_eq_false_iff_ne]
            rintro rfl
            exact distinct.1 (List.mem_map.mpr ⟨_, later, rfl⟩)
          rw [List.lookup_cons, different]
          exact ih distinct.2 later

/-- A field that is set has its new content, and the others have their old one. -/
theorem lookup_setField (key other : Key) (content : Content)
    (fields : List (Key × Content)) :
    (setField key content fields).lookup other =
      if other = key then some content else fields.lookup other := by
  induction fields with
  | nil => rw [setField, lookup_field]
  | cons field fields ih =>
      obtain ⟨first, old⟩ := field
      rw [setField]
      split
      next here =>
        rw [lookup_field, lookup_field, here]
        split <;> rfl
      next apart =>
        rw [lookup_field, lookup_field, ih]
        by_cases same : other = first
        · rw [if_pos same, if_pos same, if_neg (same ▸ apart)]
        · rw [if_neg same, if_neg same]

theorem lookup_setFields (fields : List (Key × Content)) (key : Key) :
    (setFields fields).lookup key = fields.reverse.lookup key := by
  induction fields using List.reverseRecOn with
  | nil => rfl
  | append_singleton fields field ih =>
      obtain ⟨other, content⟩ := field
      rw [setFields_append, lookup_setField, ih, List.reverse_append, List.reverse_singleton,
        List.singleton_append, lookup_field]

/-- Keys stand in the order in which they first appear. -/
theorem map_fst_setFields (fields : List (Key × Content)) :
    (setFields fields).map Prod.fst = (fields.map Prod.fst).eraseDups := by
  induction fields using List.reverseRecOn with
  | nil => rfl
  | append_singleton fields field ih =>
      obtain ⟨key, content⟩ := field
      have added (keys : List Key) : (keys ++ [key]).eraseDups =
          if key ∈ keys then keys.eraseDups else keys.eraseDups ++ [key] := by
        rw [List.eraseDups_append, List.removeAll]
        by_cases known : key ∈ keys <;> simp [known, List.eraseDups_cons]
      rw [setFields_append, map_fst_setField, ih, List.map_append, List.map_singleton, added]
      simp only [List.mem_eraseDups]

end Lookup

end TwinSchema
