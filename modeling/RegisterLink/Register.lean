import RegisterLink.Mask
import RegisterLink.Width

/-!
# Registers and fields

A register is a named place in the memory of the controller, owned by one of its
peripherals.  A field is a set of bits of one register, not necessarily
contiguous, whose value is held right-aligned; it never reaches beyond its
register.

A catalog lists the registers and fields of one controller.  Names are compared
part by part, never as dotted paths, and the first entry of a name wins.
-/

namespace RegisterLink

structure Register where
  peripheral : String
  name : String
  address : Word
  width : Width
  /-- The value after a hardware reset. -/
  reset : Word
  description : String := ""

namespace Register

/-- All bits of the register. -/
def mask (register : Register) : Word := register.width.mask

/-- The dotted name, as shown in labels. -/
def path (register : Register) : String :=
  register.peripheral ++ "." ++ register.name

end Register

structure Field where
  register : Register
  name : String
  mask : Word
  description : String
  within : mask &&& ~~~register.mask = 0#32

namespace Field

/-- Why bits do not make a field. -/
inductive Invalid where
  | exceedsWidth

def Invalid.message : Invalid → String
  | exceedsWidth => "field mask exceeds its register width"

def ofMask (register : Register) (name : String) (mask : Word) (description : String) :
    Except Invalid Field :=
  if within : mask &&& ~~~register.mask = 0#32 then
    .ok { register, name, mask, description, within }
  else
    .error .exceedsWidth

/-- The number of bits in the field. -/
def bits (field : Field) : Nat := Mask.size field.mask

/-- The right-aligned value after a hardware reset. -/
def reset (field : Field) : Word := Mask.gather field.register.reset field.mask

/-- The dotted name, as shown in labels. -/
def path (field : Field) : String := field.register.path ++ "." ++ field.name

end Field

structure Catalog where
  registers : List Register
  fields : List Field

namespace Catalog

def register? (catalog : Catalog) (peripheral register : String) : Option Register :=
  catalog.registers.find? fun entry =>
    entry.peripheral = peripheral ∧ entry.name = register

def field? (catalog : Catalog) (peripheral register field : String) : Option Field :=
  catalog.fields.find? fun entry =>
    entry.register.peripheral = peripheral ∧ entry.register.name = register ∧
      entry.name = field

end Catalog

end RegisterLink
