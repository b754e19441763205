import RegisterLink.Word

/-!
# Mask algebra

A mask selects an arbitrary subset of the bits of a word.  Users hold values
right-aligned: the `j`-th bit of a value belongs to the `j`-th selected bit of
the mask, counted from the low end.  `scatter` puts a value under its mask,
`gather` takes it back, and both are the same walk over the selected positions
with the roles of index and position exchanged.
-/

namespace RegisterLink

namespace Mask

/-- The mask of a whole word. -/
def full : Word := BitVec.allOnes 32

/-- The selected positions, from low to high. -/
def positions (mask : Word) : List Nat :=
  (List.range 32).filter mask.getLsbD

/-- How many bits are selected. -/
def size (mask : Word) : Nat := (positions mask).length

/-- Copies one bit of `source` for each route from a source position to a target position. -/
def route (routes : List (Nat × Nat)) (source : Word) : Word :=
  routes.foldl
    (fun word path =>
      if source.getLsbD path.1 then word ||| BitVec.twoPow 32 path.2 else word)
    0#32

/-- Spreads the low bits of a value over the selected positions; every other bit is clear. -/
def scatter (value mask : Word) : Word :=
  route ((positions mask).zipIdx.map Prod.swap) value

/-- Collects the selected bits of a word into a right-aligned value. -/
def gather (word mask : Word) : Word :=
  route (positions mask).zipIdx word

@[simp] theorem mem_positions {mask : Word} {i : Nat} :
    i ∈ positions mask ↔ mask.getLsbD i = true := by
  simp only [positions, List.mem_filter, List.mem_range, and_iff_right_iff_imp]
  exact BitVec.lt_of_getLsbD

/-- A routed bit is set when some route leads to it from a set bit. -/
theorem getLsbD_route (routes : List (Nat × Nat)) (source : Word) (k : Nat) :
    (route routes source).getLsbD k =
      routes.any fun path => source.getLsbD path.1 && (BitVec.twoPow 32 path.2).getLsbD k := by
  suffices h : ∀ start : Word,
      (routes.foldl (fun word path =>
          if source.getLsbD path.1 then word ||| BitVec.twoPow 32 path.2 else word)
        start).getLsbD k =
      (start.getLsbD k ||
        routes.any fun path => source.getLsbD path.1 && (BitVec.twoPow 32 path.2).getLsbD k) by
    simpa [route] using h 0#32
  induction routes with
  | nil => simp
  | cons path routes ih =>
      intro start
      rw [List.foldl_cons, ih, List.any_cons]
      cases source.getLsbD path.1 <;> simp [Bool.or_assoc]

end Mask

end RegisterLink
