import RegisterLink.Program
import RegisterLink.Word

/-!
# Program text

A program is written as C, one text line for each of its lines.  Labels stand
behind the code as comments, and all comments start in one column, set by the
longest code that has one.  Code without a label is not padded.
-/

namespace RegisterLink

namespace Instruction

/-- The name of the shared pointer. -/
def pointer : String := "reg"

/-- A volatile access of the given width at an address. -/
def place (address : Word) (width : Width) : String :=
  "*(volatile " ++ width.ctype ++ "*)" ++ Literal.hexadecimal address 32

def text : Instruction → String
  | store address width value =>
      place address width ++ " = " ++ Literal.hexadecimal value width.bits ++ ";"
  | setBit address position =>
      place address .word ++ " |= 1u << " ++ toString position ++ ";"
  | clearBit address position =>
      place address .word ++ " &= ~(1u << " ++ toString position ++ ");"
  | setMask address mask =>
      place address .word ++ " |= " ++ Literal.hexadecimal mask 32 ++ ";"
  | clearMask address mask =>
      place address .word ++ " &= ~" ++ Literal.hexadecimal mask 32 ++ ";"
  | bind address declares =>
      (if declares then "volatile uint32_t* " else "") ++ pointer ++
        " = (volatile uint32_t*)" ++ Literal.hexadecimal address 32 ++ ";"
  | modify mask value =>
      "*" ++ pointer ++ " = (*" ++ pointer ++ " & ~" ++ Literal.hexadecimal mask 32 ++ ") | " ++
        Literal.hexadecimal value 32 ++ ";"
  | load address width => "(void) " ++ place address width ++ ";"
  | poll mask expected =>
      "while ((*" ++ pointer ++ " & " ++ Literal.hexadecimal mask 32 ++ ") != " ++
        Literal.hexadecimal expected 32 ++ ");"

end Instruction

namespace Line

/-- The statement of a line, empty on a comment line. -/
def code (line : Line) : String :=
  match line.instruction with
  | some instruction => instruction.text
  | none => ""

/-- A line with its comment, if any, behind `column` characters. -/
def text (column : Nat) (line : Line) : String :=
  match line.label with
  | some label =>
      line.code ++ String.ofList (List.replicate (column - line.code.length) ' ') ++
        " // " ++ label ++ "\n"
  | none => line.code ++ "\n"

end Line

namespace Program

/-- The length of the longest code that has a label. -/
def column (program : Program) : Nat :=
  ((program.lines.filter (·.label.isSome)).map (·.code.length)).foldl max 0

def text (program : Program) : String :=
  String.join (program.lines.map (Line.text program.column))

end Program

end RegisterLink
