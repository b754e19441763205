import Mathlib.Data.List.DropRight
import Mathlib.Data.List.Forall2
import Mathlib.Order.Bounds.Defs
import RegisterLink.Proofs.Statements

/-!
# The text of a program read back

Each line of a program is one line of its text.  Code holds no slash, so the
first slash of a text line begins its comment, and what stands in front of it is
the code and its padding.  So the columns can be seen in the text, and the text
of a program is that of no other, whatever its labels say.
-/

namespace RegisterLink

namespace Line

/-- The blanks between the code of a line and its comment. -/
def padding (column : Nat) (line : Line) : Nat :=
  if line.label.isSome then column - line.code.length + 1 else 0

/-- What stands in front of the comment of a line, and all of a line that has none. -/
def margin (column : Nat) (line : Line) : List Char :=
  line.code.toList ++ List.replicate (line.padding column) ' '

/-- The comment that a label becomes. -/
def comment (line : Line) : List Char :=
  match line.label with
  | some label => "// ".toList ++ label.toList
  | none => []

/-- The text line for a line, without the newline that ends it. -/
def row (column : Nat) (line : Line) : List Char := line.margin column ++ line.comment

theorem toList_text (column : Nat) (line : Line) :
    (line.text column).toList = line.row column ++ ['\n'] := by
  obtain ⟨instruction, _ | label⟩ := line
  · simp [text, row, margin, padding, comment]
  · simp [text, row, margin, padding, comment, List.replicate_succ']

theorem plain_code (line : Line) : ∀ char ∈ line.code.toList, char ≠ '/' ∧ char ≠ '\n' := by
  obtain ⟨_ | instruction, label⟩ := line
  · exact fun _ member => nomatch member
  · exact instruction.plain_text

theorem getLast?_code (line : Line) : line.code.toList.getLast? ≠ some ' ' := by
  obtain ⟨_ | instruction, label⟩ := line
  · exact nofun
  · rw [code, instruction.getLast?_text]
    decide

theorem plain_margin (column : Nat) (line : Line) :
    ∀ char ∈ line.margin column, char ≠ '/' ∧ char ≠ '\n' := by
  intro char member
  obtain own | blank := List.mem_append.mp member
  · exact line.plain_code char own
  · rw [List.eq_of_mem_replicate blank]
    decide

theorem bne_slash_margin (column : Nat) (line : Line) :
    ∀ char ∈ line.margin column, (char != '/') = true :=
  fun char member => bne_iff_ne.mpr (line.plain_margin column char member).1

variable {line other : Line} {column offset : Nat}

theorem takeWhile_row : (line.row column).takeWhile (· != '/') = line.margin column := by
  rw [row, List.takeWhile_append_of_pos (line.bne_slash_margin column)]
  obtain ⟨instruction, _ | label⟩ := line <;> simp [comment]

theorem dropWhile_row : (line.row column).dropWhile (· != '/') = line.comment := by
  rw [row, List.dropWhile_append_of_pos (line.bne_slash_margin column)]
  obtain ⟨instruction, _ | label⟩ := line <;> simp [comment]

/-- Padding can be taken off, as no code ends in a blank. -/
theorem rdropWhile_margin : (line.margin column).rdropWhile (· == ' ') = line.code.toList := by
  rw [margin]
  induction line.padding column with
  | zero =>
      rw [List.replicate_zero, List.append_nil, List.rdropWhile_eq_self_iff]
      intro nonempty blank
      apply line.getLast?_code
      rw [List.getLast?_eq_some_getLast nonempty, beq_iff_eq.mp blank]
  | succ count ih =>
      rw [List.replicate_succ', ← List.append_assoc, List.rdropWhile_concat_pos _ _ _ rfl, ih]

theorem label_of_comment (same : line.comment = other.comment) : line.label = other.label := by
  obtain ⟨instruction, _ | label⟩ := line <;> obtain ⟨another, _ | second⟩ := other
  · rfl
  · cases same
  · cases same
  · exact congrArg some (String.toList_inj.mp (List.append_cancel_left same))

theorem instruction_of_code (same : line.code = other.code) :
    line.instruction = other.instruction := by
  have written (instruction : Instruction) : instruction.text ≠ "" := by
    intro empty
    have last := instruction.getLast?_text
    rw [empty] at last
    cases last
  obtain ⟨_ | instruction, label⟩ := line <;> obtain ⟨_ | another, second⟩ := other
  · rfl
  · exact (written another same.symm).elim
  · exact (written instruction same).elim
  · exact congrArg some (Instruction.text_inj same)

/-- Whatever the columns are, a text line shows the code and the label of its line. -/
theorem row_inj (same : line.row column = other.row offset) : line = other := by
  have comments : line.comment = other.comment :=
    calc
      line.comment = (line.row column).dropWhile (· != '/') := dropWhile_row.symm
      _ = (other.row offset).dropWhile (· != '/') := by rw [same]
      _ = other.comment := dropWhile_row
  have margins : line.margin column = other.margin offset := by
    rw [← takeWhile_row, same, takeWhile_row]
  have codes : line.code.toList = other.code.toList :=
    calc
      line.code.toList = (line.margin column).rdropWhile (· == ' ') := rdropWhile_margin.symm
      _ = (other.margin offset).rdropWhile (· == ' ') := by rw [margins]
      _ = other.code.toList := rdropWhile_margin
  have labels := label_of_comment comments
  have instructions := instruction_of_code (String.toList_inj.mp codes)
  cases line
  cases other
  exact congr (congrArg mk instructions) labels

/--
A text line shows a line with its comment at a column: the first slash stands
there, padded code in front of it and the label behind it.  Without a label
there is only the code, with nothing to pad it.
-/
def Shown (column : Nat) (line : Line) (row : List Char) : Prop :=
  match line.label with
  | some label =>
      row.idxOf '/' = column ∧ row.take column = line.code.toList.rightpad column ' ' ∧
        row.drop column = "// ".toList ++ label.toList
  | none => row = line.code.toList ∧ row.getLast? ≠ some ' '

theorem shown_row (fits : line.label.isSome → line.code.length ≤ column) :
    line.Shown (column + 1) (line.row column) := by
  obtain ⟨instruction, _ | label⟩ := line
  · have bare : row column ⟨instruction, none⟩ = (code ⟨instruction, none⟩).toList := by
      simp [row, margin, padding, comment]
    exact ⟨bare, bare ▸ getLast?_code _⟩
  · have blanks : padding column ⟨instruction, some label⟩ =
        column + 1 - (code ⟨instruction, some label⟩).length :=
      (if_pos rfl).trans (Nat.sub_add_comm (fits rfl)).symm
    have padded : margin column ⟨instruction, some label⟩ =
        (code ⟨instruction, some label⟩).toList.rightpad (column + 1) ' ' := by
      rw [margin, List.rightpad, String.length_toList, blanks]
    have width : (margin column ⟨instruction, some label⟩).length = column + 1 := by
      rw [padded, List.length_rightpad, String.length_toList]
      exact Nat.max_eq_left (Nat.le_succ_of_le (fits rfl))
    refine ⟨?_, ?_, ?_⟩
    · rw [row, List.idxOf_append_of_notMem fun slash => (plain_margin _ _ _ slash).1 rfl, width]
      rfl
    · rw [row, List.take_left' width, padded]
    · rw [row, List.drop_left' width]
      rfl

end Line

/-- The lines of a text, each ended by a newline, can be told apart. -/
theorem splitOn_flatMap {rows : List (List Char)} (single : ∀ row ∈ rows, '\n' ∉ row) :
    (rows.flatMap (· ++ ['\n'])).splitOn '\n' = rows ++ [[]] := by
  induction rows with
  | nil => rfl
  | cons row rows ih =>
      obtain ⟨own, others⟩ := List.forall_mem_cons.mp single
      have alone : row.splitOn '\n' = [row] := by
        rw [List.splitOn_eq_splitOnP]
        exact List.splitOnP_eq_singleton fun char member => beq_false_of_ne fun same =>
          own (same ▸ member)
      rw [List.flatMap_cons, List.append_assoc, List.singleton_append, List.splitOn_eq_splitOnP,
        List.splitOnP_append_cons (p := (· == '\n')) row _ rfl, ← List.splitOn_eq_splitOnP,
        ← List.splitOn_eq_splitOnP, alone, ih others]
      rfl

namespace Program

/-- No label runs over the end of its line. -/
def Plain (program : Program) : Prop :=
  ∀ line ∈ program.lines, ∀ label ∈ line.label, '\n' ∉ label.toList

instance (program : Program) : Decidable program.Plain :=
  inferInstanceAs (Decidable (∀ line ∈ program.lines, ∀ label ∈ line.label, '\n' ∉ label.toList))

/-- The lines of the text of a program, without the newlines that end them. -/
def rows (program : Program) : List (List Char) := program.lines.map (Line.row program.column)

variable {program : Program}

theorem toList_text (program : Program) :
    program.text.toList = program.rows.flatMap (· ++ ['\n']) := by
  rw [text, String.toList_join, rows, List.flatMap_map, List.flatMap_map]
  exact congrArg (program.lines.flatMap ·) (funext (Line.toList_text program.column))

theorem splitOn_text (plain : program.Plain) :
    program.text.toList.splitOn '\n' = program.rows ++ [[]] := by
  rw [toList_text]
  apply splitOn_flatMap
  intro row member newline
  obtain ⟨line, inside, rfl⟩ := List.mem_map.mp member
  obtain front | behind := List.mem_append.mp newline
  · exact (line.plain_margin _ _ front).2 rfl
  · rw [Line.comment] at behind
    split at behind
    case h_1 label labelled =>
      obtain mark | said := List.mem_append.mp behind
      · revert mark
        decide
      · exact plain line inside label labelled said
    case h_2 => cases behind

theorem isGreatest_column (labelled : ∃ line ∈ program.lines, line.label.isSome) :
    IsGreatest {length | ∃ line ∈ program.lines, line.label.isSome ∧ line.code.length = length}
      program.column := by
  let lengths := (program.lines.filter (·.label.isSome)).map (·.code.length)
  have member {length : Nat} : length ∈ lengths ↔
      ∃ line ∈ program.lines, line.label.isSome ∧ line.code.length = length := by
    simp only [lengths, List.mem_map, List.mem_filter, and_assoc]
  obtain ⟨line, inside, commented⟩ := labelled
  have some_length := member.mpr ⟨line, inside, commented, rfl⟩
  obtain ⟨longest, found⟩ := Option.isSome_iff_exists.mp (List.isSome_max?_of_mem some_length)
  have same : program.column = longest := by
    change lengths.foldl max 0 = longest
    rw [List.foldl_max, found]
    exact Nat.max_eq_right (Nat.zero_le longest)
  obtain ⟨attained, bound⟩ := List.max?_eq_some_iff.mp found
  rw [same]
  exact ⟨member.mp attained, fun length other => bound length (member.mpr other)⟩

theorem length_code_le {line : Line} (member : line ∈ program.lines)
    (labelled : line.label.isSome) : line.code.length ≤ program.column :=
  (isGreatest_column ⟨line, member, labelled⟩).2 ⟨line, member, labelled, rfl⟩

theorem lines_inj {first second : List Line} {column offset : Nat}
    (same : first.map (Line.row column) = second.map (Line.row offset)) : first = second := by
  induction first generalizing second with
  | nil => exact (List.map_eq_nil_iff.mp same.symm).symm
  | cons line lines ih =>
      obtain _ | ⟨other, others⟩ := second
      · cases same
      · obtain ⟨row, rows⟩ := List.cons.inj same
        rw [Line.row_inj row, ih rows]

/--
The text of a program whose labels are single lines has a text line for each of
its lines, in order.  All comments begin in one column, right of the longest code
that has one, and a line without a comment ends with its code.  No other such
program has the same text, as no two instructions do.
-/
theorem text_faithful (plain : program.Plain) :
    (∃ rows, program.text.toList.splitOn '\n' = rows ++ [[]] ∧
      List.Forall₂ (Line.Shown (program.column + 1)) program.lines rows) ∧
    ((∃ line ∈ program.lines, line.label.isSome) →
      IsGreatest {length | ∃ line ∈ program.lines, line.label.isSome ∧ line.code.length = length}
        program.column) ∧
    (∀ other : Program, other.Plain → program.text = other.text → program = other) ∧
    Function.Injective Instruction.text := by
  refine ⟨⟨program.rows, splitOn_text plain, ?_⟩, isGreatest_column, ?_, ?_⟩
  · rw [rows, List.forall₂_map_right_iff, List.forall₂_same]
    exact fun line member => Line.shown_row (length_code_le member)
  · intro other single same
    have split := (splitOn_text plain).symm.trans
      ((congrArg (·.toList.splitOn '\n') same).trans (splitOn_text single))
    have lines := lines_inj (List.append_cancel_right split)
    cases program
    cases other
    exact congrArg mk lines
  · exact fun _ _ same => Instruction.text_inj same

/-- Code with a label and without, and a label alone that looks like a comment itself. -/
def motley (remark : String) : Program where
  lines := [
    ⟨some (.setBit 0x40021000#32 13), none⟩,
    ⟨some (.load 0x40021000#32 .byte), some "ready // now"⟩,
    ⟨none, some remark⟩,
    ⟨none, none⟩]

theorem text_faithful_motley :
    (motley "// ").Plain ∧
    (motley "// ").text =
      "*(volatile uint32_t*)0x40021000 |= 1u << 13;\n" ++
      "(void) *(volatile uint8_t*)0x40021000; // ready // now\n" ++
      "                                       // // \n\n" ∧
    (∃ rows, (motley "// ").text.toList.splitOn '\n' = rows ++ [[]] ∧
      List.Forall₂ (Line.Shown 39) (motley "// ").lines rows) ∧
    IsGreatest {length | ∃ line ∈ (motley "// ").lines,
      line.label.isSome ∧ line.code.length = length} 38 ∧
    (motley "// ").text ≠ (motley "//").text := by
  have plain : (motley "// ").Plain := by decide
  have labelled : ∃ line ∈ (motley "// ").lines, line.label.isSome := by decide
  have sized : (motley "// ").column = 38 := by decide +kernel
  obtain ⟨shown, greatest, alone, -⟩ := text_faithful plain
  rw [sized] at shown
  refine ⟨plain, by decide +kernel, shown, sized ▸ greatest labelled, ?_⟩
  intro same
  exact absurd (alone (motley "//") (by decide) same) (by decide)

end Program

end RegisterLink
