import RegisterLink.Program.Text
import RegisterLink.Proofs.Literals

/-!
# Statements read back

Apart from its operands a statement is fixed text, one of a few forms.  No form
begins like another, so a statement shows its form, and with it where its
operands stand.  They are written as literals, which can be read back.
-/

namespace RegisterLink

namespace Instruction

/-- What a statement is without its operands. -/
inductive Form where
  | store (width : Width)
  | setBit
  | clearBit
  | setMask
  | clearMask
  | bind (declares : Bool)
  | modify
  | load (width : Width)
  | poll
  deriving DecidableEq

namespace Form

/-- A volatile access, up to the digits of its address. -/
def access (width : Width) : List Char :=
  "*(volatile ".toList ++ width.ctype.toList ++ "*)".toList ++ Literal.mark

/-- The text in front of the digits of the first operand. -/
def opening : Form → List Char
  | store width => access width
  | setBit | clearBit | setMask | clearMask => access .word
  | bind declares =>
      (if declares then "volatile uint32_t* " else "").toList ++ pointer.toList ++
        " = (volatile uint32_t*)".toList ++ Literal.mark
  | modify =>
      "*".toList ++ pointer.toList ++ " = (*".toList ++ pointer.toList ++ " & ~".toList ++
        Literal.mark
  | load width => "(void) ".toList ++ access width
  | poll => "while ((*".toList ++ pointer.toList ++ " & ".toList ++ Literal.mark

/-- The text between the digits of both operands, or all that follows a single one. -/
def middle : Form → List Char
  | store _ => " = ".toList ++ Literal.mark
  | setBit => " |= 1u << ".toList
  | clearBit => " &= ~(1u << ".toList
  | setMask => " |= ".toList ++ Literal.mark
  | clearMask => " &= ~".toList ++ Literal.mark
  | modify => ") | ".toList ++ Literal.mark
  | poll => ") != ".toList ++ Literal.mark
  | bind _ | load _ => ";".toList

/-- The text behind the digits of the second operand. -/
def ending : Form → List Char
  | clearBit | poll => ");".toList
  | bind _ | load _ => []
  | _ => ";".toList

def all : List Form :=
  [store .byte, store .half, store .word, setBit, clearBit, setMask, clearMask, bind false,
    bind true, modify, load .byte, load .half, load .word, poll]

theorem mem_all (form : Form) : form ∈ all := by
  cases form with
  | store width => cases width <;> decide
  | bind declares => cases declares <;> decide
  | load width => cases width <;> decide
  | _ => decide

instance (property : Form → Prop) [DecidablePred property] : Decidable (∀ form, property form) :=
  decidable_of_iff (∀ form ∈ all, property form)
    ⟨fun every form => every form form.mem_all, fun every form _ => every form⟩

/-- No form begins like another, neither at its opening nor behind the first operand. -/
theorem prefixFree : ∀ form other : Form, form.opening <+: other.opening →
    form.opening = other.opening ∧ (form.middle <+: other.middle → form = other) := by
  decide +kernel

theorem plain (form : Form) : ∀ char ∈ form.opening ++ form.middle ++ form.ending,
    char ≠ '/' ∧ char ≠ '\n' := by
  have checked : ∀ form : Form, (form.opening ++ form.middle ++ form.ending).all
      fun char => char ≠ '/' ∧ char ≠ '\n' := by decide +kernel
  exact fun char member => of_decide_eq_true (List.all_eq_true.mp (checked form) char member)

variable {form other : Form} {rest tail : List Char}

/-- Texts that are the same begin with one opening. -/
theorem opening_inj (same : form.opening ++ rest = other.opening ++ tail) :
    form.opening = other.opening := by
  have begins : form.opening <+: other.opening ++ tail := ⟨rest, same⟩
  obtain shorter | longer := List.prefix_or_prefix_of_prefix begins ⟨tail, rfl⟩
  · exact (prefixFree form other shorter).1
  · exact (prefixFree other form longer).1.symm

/-- Behind the first operand of one opening they show their form. -/
theorem middle_inj (alike : form.opening = other.opening)
    (same : form.middle ++ rest = other.middle ++ tail) : form = other := by
  have begins : form.middle <+: other.middle ++ tail := ⟨rest, same⟩
  obtain shorter | longer := List.prefix_or_prefix_of_prefix begins ⟨tail, rfl⟩
  · exact (prefixFree form other (alike ▸ List.prefix_rfl)).2 shorter
  · exact ((prefixFree other form (alike ▸ List.prefix_rfl)).2 longer).symm

/-- The statement of a form with operands of these digits. -/
def statement (first second : List Char) : Form → Instruction
  | store width => .store (Literal.word first) width (Literal.word second)
  | setBit => .setBit (Literal.word first) (Nat.ofDigitChars 10 second 0)
  | clearBit => .clearBit (Literal.word first) (Nat.ofDigitChars 10 second 0)
  | setMask => .setMask (Literal.word first) (Literal.word second)
  | clearMask => .clearMask (Literal.word first) (Literal.word second)
  | bind declares => .bind (Literal.word first) declares
  | modify => .modify (Literal.word first) (Literal.word second)
  | load width => .load (Literal.word first) width
  | poll => .poll (Literal.word first) (Literal.word second)

end Form

def form : Instruction → Form
  | store _ width _ => .store width
  | setBit _ _ => .setBit
  | clearBit _ _ => .clearBit
  | setMask _ _ => .setMask
  | clearMask _ _ => .clearMask
  | bind _ declares => .bind declares
  | modify _ _ => .modify
  | load _ width => .load width
  | poll _ _ => .poll

/-- The operand that is written first. -/
def first : Instruction → Word
  | store address _ _ => address
  | setBit address _ => address
  | clearBit address _ => address
  | setMask address _ => address
  | clearMask address _ => address
  | bind address _ => address
  | modify mask _ => mask
  | load address _ => address
  | poll mask _ => mask

/-- The digits of the operand that is written second, if there is one. -/
def second : Instruction → List Char
  | store _ width value => Literal.figures value width.bits
  | setBit _ position => Nat.toDigits 10 position
  | clearBit _ position => Nat.toDigits 10 position
  | setMask _ mask => Literal.figures mask 32
  | clearMask _ mask => Literal.figures mask 32
  | bind _ _ => []
  | modify _ value => Literal.figures value 32
  | load _ _ => []
  | poll _ expected => Literal.figures expected 32

variable (instruction : Instruction)

theorem toList_place (address : Word) (width : Width) :
    (place address width).toList = Form.access width ++ Literal.figures address 32 := by
  unfold place Form.access
  simp only [String.toList_append, Literal.toList_hexadecimal, List.append_assoc]

theorem toList_text : instruction.text.toList =
    instruction.form.opening ++ (Literal.figures instruction.first 32 ++
      (instruction.form.middle ++ (instruction.second ++ instruction.form.ending))) := by
  cases instruction <;>
    (unfold text form Form.opening Form.middle Form.ending first second
     simp only [String.toList_append, toList_place, Literal.toList_hexadecimal,
      Nat.toString_eq_repr, Nat.toList_repr, List.append_assoc, List.append_nil])

/-- A statement is what its form and its operands make up. -/
theorem statement_form : instruction.form.statement (Literal.figures instruction.first 32)
    instruction.second = instruction := by
  cases instruction <;> simp [form, first, second, Form.statement]

/-- What is written of a statement is written of no other. -/
theorem text_inj {instruction other : Instruction} (same : instruction.text = other.text) :
    instruction = other := by
  have chars := congrArg String.toList same
  rw [toList_text, toList_text] at chars
  have alike := Form.opening_inj chars
  rw [alike] at chars
  have sized : (Literal.figures instruction.first 32).length =
      (Literal.figures other.first 32).length := by
    rw [Literal.length_figures, Literal.length_figures]
  obtain ⟨first, rest⟩ := List.append_inj (List.append_cancel_left chars) sized
  have form := Form.middle_inj alike rest
  rw [form] at rest
  have second := List.append_cancel_right (List.append_cancel_left rest)
  rw [← statement_form instruction, form, first, second, statement_form]

theorem isAlphanum_of_mem_second {digit : Char} (member : digit ∈ instruction.second) :
    digit.isAlphanum = true := by
  have decimal {position : Nat} (member : digit ∈ Nat.toDigits 10 position) :
      digit.isAlphanum = true := by
    rw [Char.isAlphanum, Nat.isDigit_of_mem_toDigits (by decide) (Nat.le_refl 10) member,
      Bool.or_true]
  cases instruction with
  | setBit address position => exact decimal member
  | clearBit address position => exact decimal member
  | bind address declares => cases member
  | load address width => cases member
  | _ => exact Literal.isAlphanum_of_mem_figures member

/-- A statement holds no comment and is no more than one line. -/
theorem plain_text : ∀ char ∈ instruction.text.toList, char ≠ '/' ∧ char ≠ '\n' := by
  intro char member
  have literal (digits : char.isAlphanum = true) : char ≠ '/' ∧ char ≠ '\n' := by
    constructor <;> (rintro rfl; cases digits)
  have fixed (part : char ∈ instruction.form.opening ++ instruction.form.middle ++
      instruction.form.ending) := instruction.form.plain char part
  rw [toList_text] at member
  simp only [List.mem_append] at member fixed
  obtain opening | first | middle | second | ending := member
  · exact fixed (.inl (.inl opening))
  · exact literal (Literal.isAlphanum_of_mem_figures first)
  · exact fixed (.inl (.inr middle))
  · exact literal (instruction.isAlphanum_of_mem_second second)
  · exact fixed (.inr ending)

theorem getLast?_text : instruction.text.toList.getLast? = some ';' := by
  cases instruction <;>
    (unfold text
     rw [String.toList_append, List.getLast?_append]
     rfl)

end Instruction

end RegisterLink
