import RegisterLink.Mask

/-!
# Idioms of a masked write

A masked write replaces the selected bits of a word by those of a positioned
value.  Most such writes have a cheaper form than load, modify and store; the
idiom names the cheapest one.  Bits of the value outside the mask never count.
-/

namespace RegisterLink

/-- The word after the bits of `mask` were replaced by those of `value`. -/
def maskedWrite (mask value word : Word) : Word :=
  (word &&& ~~~mask) ||| (value &&& mask)

inductive Idiom where
  /-- The mask covers the whole word. -/
  | overwrite
  | setBit (position : Nat)
  | clearBit (position : Nat)
  /-- Every selected bit becomes one. -/
  | setAll
  /-- Every selected bit becomes zero. -/
  | clearAll
  /-- The selected bits become a mixture, so the word has to be read first. -/
  | modify (mask value : Word)
  deriving DecidableEq

namespace Idiom

/--
The cheapest idiom for writing `value` under `mask`, read off the positions that
become one and those that become zero.  An empty mask asks for nothing and
counts as setting all of its bits.
-/
def cheapest (mask value : Word) : Idiom :=
  if mask = Mask.full then overwrite
  else
    match Mask.positions (mask &&& value), Mask.positions (mask &&& ~~~value) with
    | [position], [] => setBit position
    | [], [position] => clearBit position
    | _, [] => setAll
    | [], _ => clearAll
    | _, _ => modify mask (mask &&& value)

/-- What an idiom chosen for `mask` and `value` does to a word. -/
def apply (mask value : Word) : Idiom → Word → Word
  | overwrite, _ => value
  | setBit position, word => word ||| BitVec.twoPow 32 position
  | clearBit position, word => word &&& ~~~BitVec.twoPow 32 position
  | setAll, word => word ||| mask
  | clearAll, word => word &&& ~~~mask
  | modify replaced replacement, word => (word &&& ~~~replaced) ||| replacement

end Idiom

end RegisterLink
