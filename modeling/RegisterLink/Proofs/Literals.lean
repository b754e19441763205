import RegisterLink.Word

/-!
# Reading literals back

The digits of a number, with whatever zeros stand in front of them, give the
number back.  So a literal stands for one number only, whatever its least count
of digits is.
-/

namespace RegisterLink

namespace Literal

/-- What a digit stands for; the digits above nine are upper-case letters. -/
def digitValue (digit : Char) : Nat :=
  if digit.isDigit then digit.toNat - '0'.toNat else digit.toNat - 'A'.toNat + 10

/-- The number that some digits stand for, the highest first. -/
def number (base : Nat) (digits : List Char) : Nat :=
  digits.foldl (fun higher digit => base * higher + digitValue digit) 0

section Digits

variable {base : Nat}

theorem digitValue_toUpper : ∀ n < 16, digitValue (Nat.digitChar n).toUpper = n := by decide

theorem isAlphanum_toUpper : ∀ n < 16, (Nat.digitChar n).toUpper.isAlphanum = true := by decide

theorem number_append_singleton (digits : List Char) (digit : Char) :
    number base (digits ++ [digit]) = base * number base digits + digitValue digit :=
  List.foldl_append

/-- Zeros in front stand for nothing. -/
theorem number_leading_zeros (count : Nat) (digits : List Char) :
    number base (List.replicate count '0' ++ digits) = number base digits := by
  induction count with
  | zero => rfl
  | succ count ih =>
      rw [List.replicate_succ, List.cons_append, ← ih, number, List.foldl_cons]
      rfl

theorem number_toDigits (positional : 1 < base) (known : base ≤ 16) (n : Nat) :
    number base ((Nat.toDigits base n).map Char.toUpper) = n := by
  induction n using Nat.base_induction base positional with
  | single n low =>
      rw [Nat.toDigits_of_lt_base low]
      exact (Nat.zero_add _).trans (digitValue_toUpper n (Nat.lt_of_lt_of_le low known))
  | digit high low bound positive ih =>
      rw [← Nat.toDigits_append_toDigits positional positive bound,
        Nat.toDigits_of_lt_base bound, List.map_append, List.map_singleton,
        number_append_singleton, ih, digitValue_toUpper low (Nat.lt_of_lt_of_le bound known)]

/-- Every digit is that of a number below the base. -/
theorem exists_of_mem_toDigits (positional : 1 < base) {n : Nat} {digit : Char}
    (member : digit ∈ Nat.toDigits base n) : ∃ low < base, digit = Nat.digitChar low := by
  induction n using Nat.base_induction base positional with
  | single n low =>
      rw [Nat.toDigits_of_lt_base low] at member
      exact ⟨n, low, List.mem_singleton.mp member⟩
  | digit high low bound positive ih =>
      rw [← Nat.toDigits_append_toDigits positional positive bound,
        Nat.toDigits_of_lt_base bound] at member
      obtain higher | last := List.mem_append.mp member
      · exact ih higher
      · exact ⟨low, bound, List.mem_singleton.mp last⟩

end Digits

/-- What marks a literal as hexadecimal. -/
def mark : List Char := "0x".toList

/-- The digits of a hexadecimal literal, without the mark in front of them. -/
def figures (value : Word) (bits : Nat) : List Char :=
  (digits 16 ((bits + 3) / 4) value.toNat).map Char.toUpper

theorem toList_hexadecimal (value : Word) (bits : Nat) :
    (hexadecimal value bits).toList = mark ++ figures value bits := by
  rw [hexadecimal, String.toList_append, ← mark, String.toList_ofList, figures]

theorem figures_eq (value : Word) (bits : Nat) :
    figures value bits =
      List.replicate ((bits + 3) / 4 - (Nat.toDigits 16 value.toNat).length) '0' ++
        (Nat.toDigits 16 value.toNat).map Char.toUpper := by
  rw [figures, digits, List.leftpad, List.map_append, List.map_replicate]
  rfl

theorem number_figures (value : Word) (bits : Nat) :
    number 16 (figures value bits) = value.toNat := by
  rw [figures_eq, number_leading_zeros, number_toDigits (by decide) (Nat.le_refl 16)]

/-- The word that some digits stand for. -/
def word (digits : List Char) : Word := BitVec.ofNat 32 (number 16 digits)

@[simp] theorem word_figures (value : Word) (bits : Nat) : word (figures value bits) = value := by
  rw [word, number_figures, BitVec.ofNat_toNat, BitVec.setWidth_eq]

/-- A word has eight digits. -/
theorem length_figures (value : Word) : (figures value 32).length = 8 := by
  have short : (Nat.toDigits 16 value.toNat).length ≤ 8 :=
    (Nat.length_toDigits_le_iff (by decide) (by decide)).mpr value.isLt
  rw [figures, List.length_map, digits, List.length_leftpad]
  exact Nat.max_eq_left short

theorem isAlphanum_of_mem_figures {value : Word} {bits : Nat} {digit : Char}
    (member : digit ∈ figures value bits) : digit.isAlphanum = true := by
  rw [figures_eq] at member
  obtain zero | own := List.mem_append.mp member
  · rw [List.eq_of_mem_replicate zero]
    decide
  · obtain ⟨lower, inside, rfl⟩ := List.mem_map.mp own
    obtain ⟨n, bound, rfl⟩ := exists_of_mem_toDigits (by decide) inside
    exact isAlphanum_toUpper n bound

end Literal

end RegisterLink
