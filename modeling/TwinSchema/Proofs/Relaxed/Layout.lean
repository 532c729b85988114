import TwinSchema.Proofs.Relaxed.Repair

/-!
# Pieces of spellings

A spelling read from left to right is a list of pieces, and these pieces stand
in an order in which the regular pass repairs them.
-/

namespace TwinSchema.Relaxed

def Gap.pieces (gap : Gap) : List Piece := gap.map .gap

@[simp] theorem Gap.pieces_nil : Gap.pieces [] = [] := rfl

@[simp] theorem Gap.pieces_cons (filler : Filler) (gap : Gap) :
    Gap.pieces (filler :: gap) = .gap filler :: Gap.pieces gap := rfl

def Key.piece : Key → Piece
  | .bare name nonempty allowed => .bare name nonempty allowed
  | .quoted literal => .literal literal

/-- A comma after the last part, where one is asked for and there is a part. -/
def trailer (asked empty : Bool) : List Piece :=
  if asked && !empty then [.dangling] else []

def Items.isEmpty : Items → Bool
  | .nil => true
  | .cons _ _ _ _ => false

def Fields.isEmpty : Fields → Bool
  | .nil => true
  | .cons _ _ _ _ _ _ _ => false

mutual

def Spelling.pieces : Spelling → List Piece
  | .word spelled => [.word spelled]
  | .literal quoted => [.literal quoted]
  | .list items trailing last =>
      .mark .openList :: (items.pieces [] ++ (trailer trailing items.isEmpty ++
        (Gap.pieces last ++ [.mark .closeList])))
  | .record fields trailing last =>
      .mark .openRecord :: (fields.pieces [] ++
        (trailer trailing fields.isEmpty ++
          (Gap.pieces last ++ [.mark .closeRecord])))

/-- The pieces of items, where `separator` stands before the first of them. -/
def Items.pieces (separator : List Piece) : Items → List Piece
  | .nil => []
  | .cons before item after rest =>
      separator ++ (Gap.pieces before ++ (item.pieces ++
        (Gap.pieces after ++ rest.pieces [.mark .comma])))

/-- The pieces of fields, where `separator` stands before the first of them. -/
def Fields.pieces (separator : List Piece) : Fields → List Piece
  | .nil => []
  | .cons before key afterKey beforeItem item after rest =>
      separator ++ (Gap.pieces before ++ (key.piece :: (Gap.pieces afterKey ++
        (.mark .colon :: (Gap.pieces beforeItem ++ (item.pieces ++
          (Gap.pieces after ++ rest.pieces [.mark .comma])))))))

end

def Spelling.text (spelling : Spelling) : List Char :=
  spelling.pieces.flatMap Piece.text

def Gap.text (gap : Gap) : List Char := gap.flatMap Filler.text

theorem Gap.text_append (gap other : Gap) :
    Gap.text (gap ++ other) = gap.text ++ other.text := List.flatMap_append

theorem Gap.text_cons (filler : Filler) (gap : Gap) :
    Gap.text (filler :: gap) = filler.text ++ gap.text := rfl

theorem Gap.flatMap_pieces (gap : Gap) :
    (Gap.pieces gap).flatMap Piece.text = gap.text := by
  rw [Gap.pieces, Gap.text, List.flatMap_map]
  rfl

@[simp] theorem follower_gapPieces (gap : Gap) (rest : List Piece) :
    follower (Gap.pieces gap ++ rest) = follower rest := by
  induction gap with
  | nil => rfl
  | cons filler gap ih => exact ih

@[simp] theorem orderly_gapPieces {slot : Bool} (gap : Gap) (rest : List Piece) :
    Orderly slot (Gap.pieces gap ++ rest) ↔ Orderly slot rest := by
  induction gap with
  | nil => rfl
  | cons filler gap ih => exact ih

theorem Spelling.closes_follower (spelling : Spelling) (rest : List Piece) :
    closes (follower (spelling.pieces ++ rest)) = false := by
  cases spelling <;> simp [pieces, follower, Piece.isGap, closes]

theorem Key.follower_piece (key : Key) (rest : List Piece) :
    follower (key.piece :: rest) = some key.piece := by
  cases key <;> rfl

/-- After the last part of a list or a record, a comma dangles, and a closing
bracket follows. -/
theorem orderly_close (sign : Mark)
    (closing : closes (some (.mark sign)) = true)
    (asked empty : Bool) (last : Gap) {rest : List Piece}
    (later : Orderly false rest) :
    endsWord (follower (trailer asked empty ++ (Gap.pieces last ++
        .mark sign :: rest))) = true ∧
      ∀ slot, Orderly slot (trailer asked empty ++ (Gap.pieces last ++
        .mark sign :: rest)) := by
  have notComma : sign ≠ .comma := by rintro rfl; cases closing
  have noSlot : sign.opensSlot = false := by
    cases sign <;> first | rfl | cases closing
  have closed : ∀ slot, Orderly slot (.mark sign :: rest) := fun slot =>
    ⟨fun same => absurd same notComma, by rwa [noSlot]⟩
  have marked : follower (.mark sign :: rest) = some (.mark sign) :=
    follower_cons rfl rest
  rw [trailer]
  split
  · refine ⟨rfl, fun slot => ⟨?_, ?_⟩⟩
    · simpa [marked] using closing
    · simpa using closed slot
  · constructor
    · simpa [marked] using endsWord_of_closes closing
    · intro slot
      simpa using closed slot

theorem orderly_key (key : Key) (afterKey beforeItem : Gap) {rest : List Piece}
    (later : Orderly false rest) :
    Orderly true (key.piece :: (Gap.pieces afterKey ++
      .mark .colon :: (Gap.pieces beforeItem ++ rest))) := by
  have afterColon : Orderly false (Gap.pieces afterKey ++
      .mark .colon :: (Gap.pieces beforeItem ++ rest)) := by
    rw [orderly_gapPieces]
    exact ⟨by simp, (orderly_gapPieces beforeItem rest).mpr later⟩
  cases key with
  | bare name nonempty allowed =>
      exact ⟨rfl, by rw [follower_gapPieces, follower_cons rfl], afterColon⟩
  | quoted literal => exact afterColon

mutual

theorem Spelling.orderly {slot : Bool} {rest : List Piece}
    (ends : endsWord (follower rest) = true) (later : Orderly false rest) :
    (spelling : Spelling) → Orderly slot (spelling.pieces ++ rest)
  | .word spelled => ⟨ends, later⟩
  | .literal quoted => later
  | .list items trailing last => by
      obtain ⟨endsItems, laterItems⟩ := orderly_close .closeList rfl
        trailing items.isEmpty last later
      simp only [Spelling.pieces, List.cons_append, List.append_assoc,
        List.nil_append]
      exact ⟨by simp, Items.orderly_first endsItems laterItems items⟩
  | .record fields trailing last => by
      obtain ⟨endsFields, laterFields⟩ := orderly_close .closeRecord rfl
        trailing fields.isEmpty last later
      simp only [Spelling.pieces, List.cons_append, List.append_assoc,
        List.nil_append]
      exact ⟨by simp, Fields.orderly_first endsFields laterFields fields⟩

theorem Items.orderly_first {rest : List Piece}
    (ends : endsWord (follower rest) = true) (later : ∀ slot, Orderly slot rest) :
    (items : Items) → Orderly false (items.pieces [] ++ rest)
  | .nil => later false
  | .cons before item after items => by
      obtain ⟨endsItems, laterItems⟩ := Items.orderly_next ends later items
      simp only [Items.pieces, List.append_assoc, List.nil_append,
        orderly_gapPieces]
      exact Spelling.orderly (by simpa using endsItems)
        (by simpa using laterItems false) item

theorem Items.orderly_next {rest : List Piece}
    (ends : endsWord (follower rest) = true) (later : ∀ slot, Orderly slot rest) :
    (items : Items) →
      endsWord (follower (items.pieces [.mark .comma] ++ rest)) = true ∧
        ∀ slot, Orderly slot (items.pieces [.mark .comma] ++ rest)
  | .nil => ⟨ends, later⟩
  | .cons before item after items => by
      obtain ⟨endsItems, laterItems⟩ := Items.orderly_next ends later items
      refine ⟨rfl, ?_⟩
      intro slot
      simp only [Items.pieces, List.append_assoc, List.cons_append,
        List.nil_append]
      constructor
      · intro _
        simpa using item.closes_follower _
      · rw [orderly_gapPieces]
        exact Spelling.orderly (by simpa using endsItems)
          (by simpa using laterItems false) item

theorem Fields.orderly_first {rest : List Piece}
    (ends : endsWord (follower rest) = true) (later : ∀ slot, Orderly slot rest) :
    (fields : Fields) → Orderly true (fields.pieces [] ++ rest)
  | .nil => later true
  | .cons before key afterKey beforeItem item after fields => by
      obtain ⟨endsFields, laterFields⟩ := Fields.orderly_next ends later fields
      simp only [Fields.pieces, List.append_assoc, List.nil_append,
        List.cons_append, orderly_gapPieces]
      exact orderly_key key afterKey beforeItem
        (Spelling.orderly (by simpa using endsFields)
          (by simpa using laterFields false) item)

theorem Fields.orderly_next {rest : List Piece}
    (ends : endsWord (follower rest) = true) (later : ∀ slot, Orderly slot rest) :
    (fields : Fields) →
      endsWord (follower (fields.pieces [.mark .comma] ++ rest)) = true ∧
        ∀ slot, Orderly slot (fields.pieces [.mark .comma] ++ rest)
  | .nil => ⟨ends, later⟩
  | .cons before key afterKey beforeItem item after fields => by
      obtain ⟨endsFields, laterFields⟩ := Fields.orderly_next ends later fields
      refine ⟨rfl, ?_⟩
      intro slot
      simp only [Fields.pieces, List.append_assoc, List.cons_append,
        List.nil_append]
      constructor
      · intro _
        rw [follower_gapPieces, key.follower_piece]
        cases key <;> rfl
      · rw [orderly_gapPieces]
        exact orderly_key key afterKey beforeItem
          (Spelling.orderly (by simpa using endsFields)
            (by simpa using laterFields false) item)

end

end TwinSchema.Relaxed
