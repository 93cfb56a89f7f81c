import SdvZone.WireBytes

/-! Regions made of blocks that say themselves how long they are. Cutting starts at the front: what
is left must have enough bytes to say how long the next block is, and that many bytes. -/

namespace SdvZone.Wire

variable {α : Type}

/-- The region is a row of blocks. The size of a block is read off what is left of the region, of
which at least `head` elements must be there. -/
inductive Tiles (head : Nat) (size : List α → Nat) : List α → List (List α) → Prop where
  | nil : Tiles head size [] []
  | cons (block : List α) {rest : List α} {blocks : List (List α)}
      (hhead : head ≤ (block ++ rest).length) (hsize : size (block ++ rest) = block.length)
      (hrest : Tiles head size rest blocks) : Tiles head size (block ++ rest) (block :: blocks)

variable {head : Nat} {size : List α → Nat} {region : List α} {blocks : List (List α)}

theorem Tiles.eq_nil (hhead : 0 < head) (h : Tiles head size [] blocks) : blocks = [] := by
  generalize hregion : ([] : List α) = region at h
  cases h with
  | nil => rfl
  | cons block hlong _ _ =>
      rw [← hregion] at hlong
      exact absurd hlong (Nat.not_le_of_lt hhead)

/-- The first cut. -/
theorem tiles_iff (h : region ≠ []) :
    Tiles head size region blocks ↔ head ≤ region.length ∧ size region ≤ region.length ∧
      ∃ later, blocks = region.take (size region) :: later ∧
        Tiles head size (region.drop (size region)) later := by
  constructor
  · intro htiles
    cases htiles with
    | nil => exact absurd rfl h
    | @cons block rest later hhead hsize hrest =>
        refine ⟨hhead, ?_, later, ?_, ?_⟩
        · rw [hsize, List.length_append]
          exact Nat.le_add_right _ _
        · rw [hsize, List.take_left]
        · rw [hsize, List.drop_left]
          exact hrest
  · rintro ⟨hhead, hfits, later, rfl, hlater⟩
    have hjoin := List.take_append_drop (size region) region
    have htiles := @Tiles.cons α head size (region.take (size region)) _ _
      (by rw [hjoin]; exact hhead) (by rw [hjoin, List.length_take, Nat.min_eq_left hfits]) hlater
    rwa [hjoin] at htiles

end SdvZone.Wire
