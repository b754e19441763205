import RegisterLink.Proofs.Bounds
import RegisterLink.Proofs.Wire

/-!
# What opens, and why the rest does not

An envelope opens exactly when it was made around a content of the expected
size.  Everything else fails for one cause that can be read off the bytes:
there are none, they are not framed for the expected size, or they are and their
checksum is not that of their content.
-/

namespace RegisterLink

namespace Envelope

/-- The size that the bytes declare for their content. -/
def declared (received : List Byte) : Nat := ofLittleEndian (received.take 2)

/-- The bytes are as many as a frame of this content size has, and declare it. -/
structure Framed (expected : Nat) (received : List Byte) : Prop where
  size : received.length = expected + overhead
  declared : declared received = expected

/-- The checksum at the end is that of the bytes in between. -/
def Intact (expected : Nat) (received : List Byte) : Prop :=
  (checksum ((received.drop 2).take expected)).toNat =
    ofLittleEndian ((received.drop 2).drop expected)

variable {expected : Nat} {received content : List Byte}

theorem framed_iff :
    Framed expected received ↔
      received.length = expected + overhead ∧ Envelope.declared received = expected :=
  ⟨fun framed => ⟨framed.size, framed.declared⟩, fun ⟨size, declared⟩ => ⟨size, declared⟩⟩

theorem declared_le (received : List Byte) : declared received ≤ maxContent := by
  have digits := ofLittleEndian_lt (received.take 2)
  have few : 256 ^ (received.take 2).length ≤ 256 ^ 2 :=
    Nat.pow_le_pow_right (by decide) (List.length_take_le 2 received)
  exact Nat.le_of_lt_succ (Nat.lt_of_lt_of_le digits few)

/-- The declared size is read from the first two bytes, whatever follows. -/
theorem declared_header {size : Nat} (small : size ≤ maxContent) (rest : List Byte) :
    declared (littleEndian 2 size ++ rest) = size := by
  have bound : size < 256 ^ 2 := Nat.lt_succ_of_le small
  rw [declared, List.take_left' (length_littleEndian _ _), ofLittleEndian_littleEndian,
    Nat.mod_eq_of_lt bound]

theorem declared_append {first : List Byte} (long : 2 ≤ first.length) (rest : List Byte) :
    declared (first ++ rest) = declared first := by
  rw [declared, declared, List.take_append_of_le_length long]

/-- A size in front of as many bytes and two more makes a frame, whatever the bytes are. -/
theorem framed_header {size : Nat} {body : List Byte} (small : size ≤ maxContent)
    (whole : body.length = size + 2) : Framed size (littleEndian 2 size ++ body) where
  size := by
    rw [List.length_append, length_littleEndian, whole, overhead]
    omega
  declared := declared_header small body

theorem Framed.ne_nil (framed : Framed expected received) : received ≠ [] := by
  rintro rfl
  exact Nat.succ_ne_zero _ framed.size.symm

theorem contents_unframed (nonempty : received ≠ []) (unframed : ¬ Framed expected received) :
    contents expected received = .error (.framing (expected + overhead) received.length) := by
  have some : received.length ≠ 0 := mt List.eq_nil_of_length_eq_zero nonempty
  by_cases size : received.length = expected + overhead
  · have other : ofLittleEndian (received.take 2) ≠ expected := fun same => unframed ⟨size, same⟩
    simp only [contents, if_neg some, if_neg (not_not_intro size), if_pos other]
  · simp only [contents, if_neg some, if_pos size]

theorem contents_framed (framed : Framed expected received) :
    contents expected received =
      if (checksum ((received.drop 2).take expected)).toNat =
          ofLittleEndian ((received.drop 2).drop expected) then
        .ok ((received.drop 2).take expected)
      else .error .integrity := by
  have some : received.length ≠ 0 := mt List.eq_nil_of_length_eq_zero framed.ne_nil
  have same : ofLittleEndian (received.take 2) = expected := framed.declared
  simp only [contents, if_neg some, if_neg (not_not_intro framed.size),
    if_neg (not_not_intro same)]

theorem contents_intact (framed : Framed expected received) (intact : Intact expected received) :
    contents expected received = .ok ((received.drop 2).take expected) := by
  rw [contents_framed framed]
  exact if_pos intact

theorem contents_spoiled (framed : Framed expected received)
    (spoiled : ¬ Intact expected received) :
    contents expected received = .error .integrity := by
  rw [contents_framed framed]
  exact if_neg spoiled

/-- Nothing else happens to bytes than one of these four things. -/
theorem contents_cases (expected : Nat) (received : List Byte) :
    (received = [] ∧ contents expected received = .error .timeout) ∨
    ((received ≠ [] ∧ ¬ Framed expected received) ∧
      contents expected received = .error (.framing (expected + overhead) received.length)) ∨
    ((Framed expected received ∧ ¬ Intact expected received) ∧
      contents expected received = .error .integrity) ∨
    ((Framed expected received ∧ Intact expected received) ∧
      contents expected received = .ok ((received.drop 2).take expected)) := by
  by_cases empty : received = []
  · exact .inl ⟨empty, by rw [empty]; rfl⟩
  by_cases framed : Framed expected received
  · by_cases intact : Intact expected received
    · exact .inr (.inr (.inr ⟨⟨framed, intact⟩, contents_intact framed intact⟩))
    · exact .inr (.inr (.inl ⟨⟨framed, intact⟩, contents_spoiled framed intact⟩))
  · exact .inr (.inl ⟨⟨empty, framed⟩, contents_unframed empty framed⟩)

/-- Whatever opens is framed, so its content is small enough for its size to be declared. -/
theorem framed_of_contents (opened : contents expected received = .ok content) :
    Framed expected received := by
  rcases contents_cases expected received with
    ⟨_, other⟩ | ⟨_, other⟩ | ⟨_, other⟩ | ⟨⟨framed, _⟩, _⟩
  · cases opened.symm.trans other
  · cases opened.symm.trans other
  · cases opened.symm.trans other
  · exact framed

theorem wrap_eq_ok_iff {frame : List Byte} :
    wrap content = .ok frame ↔ content.length ≤ maxContent ∧ Envelope.frame content = frame := by
  rw [wrap]
  split
  case isTrue small => simp [small]
  case isFalse large => simp [large]

theorem contents_eq_ok_iff :
    contents expected received = .ok content ↔
      content.length = expected ∧ wrap content = .ok received := by
  rw [wrap_eq_ok_iff]
  constructor
  · intro opened
    obtain ⟨size, made⟩ := frame_of_contents opened
    refine ⟨size, ?_, made.symm⟩
    rw [size, ← (framed_of_contents opened).declared]
    exact declared_le received
  · rintro ⟨rfl, small, rfl⟩
    exact contents_frame small

theorem contents_eq_timeout_iff :
    contents expected received = .error .timeout ↔ received = [] := by
  rcases contents_cases expected received with
    ⟨empty, opened⟩ | ⟨⟨nonempty, _⟩, opened⟩ | ⟨⟨framed, _⟩, opened⟩ | ⟨⟨framed, _⟩, opened⟩
  · rw [opened]
    simp [empty]
  · simp [opened, nonempty]
  · simp [opened, framed.ne_nil]
  · simp [opened, framed.ne_nil]

theorem contents_eq_framing_iff {size found : Nat} :
    contents expected received = .error (.framing size found) ↔
      (size = expected + overhead ∧ found = received.length) ∧
        received ≠ [] ∧ ¬ Framed expected received := by
  rcases contents_cases expected received with
    ⟨empty, opened⟩ | ⟨⟨nonempty, unframed⟩, opened⟩ | ⟨⟨framed, _⟩, opened⟩ | ⟨⟨framed, _⟩, opened⟩
  · rw [opened]
    simp [empty]
  · simp [opened, nonempty, unframed, eq_comm]
  · simp [opened, framed]
  · simp [opened, framed]

theorem contents_eq_integrity_iff :
    contents expected received = .error .integrity ↔
      Framed expected received ∧ ¬ Intact expected received := by
  rcases contents_cases expected received with
    ⟨empty, opened⟩ | ⟨⟨_, unframed⟩, opened⟩ | ⟨⟨framed, spoiled⟩, opened⟩ |
      ⟨⟨framed, intact⟩, opened⟩
  · have unframed : ¬ Framed expected received := fun framed => framed.ne_nil empty
    simp [opened, unframed]
  · simp [opened, unframed]
  · simp [opened, framed, spoiled]
  · simp [opened, intact]

/--
Opening accepts exactly what wrapping a content of the expected size makes, and
tells all other bytes apart by what is wrong with them first.
-/
theorem contents_exact (expected : Nat) (received : List Byte) :
    (∀ content, contents expected received = .ok content ↔
      content.length = expected ∧ wrap content = .ok received) ∧
    (maxContent < expected → ∀ content, contents expected received ≠ .ok content) ∧
    (contents expected received = .error .timeout ↔ received = []) ∧
    (∀ size found, contents expected received = .error (.framing size found) ↔
      (size = expected + overhead ∧ found = received.length) ∧ received ≠ [] ∧
        (received.length ≠ expected + overhead ∨ declared received ≠ expected)) ∧
    (contents expected received = .error .integrity ↔
      received.length = expected + overhead ∧ declared received = expected ∧
        (checksum ((received.drop 2).take expected)).toNat ≠
          ofLittleEndian ((received.drop 2).drop expected)) ∧
    (∀ error, contents expected received = .error error →
      error = .timeout ∨ error = .framing (expected + overhead) received.length ∨
        error = .integrity) ∧
    (∀ limit, expected + overhead ≤ limit →
      Checked.contents limit expected received = .ok (contents expected received)) ∧
    ∀ content, (∃ frame, wrap content = .ok frame) ↔ content.length ≤ maxContent := by
  refine ⟨fun content => contents_eq_ok_iff, ?large, contents_eq_timeout_iff, fun size found => ?_,
    ?integrity, ?causes, fun limit within => Checked.contents_eq within received, fun content => ?_⟩
  case large =>
    intro large content opened
    obtain ⟨rfl, made⟩ := contents_eq_ok_iff.mp opened
    exact Nat.not_le_of_lt large (wrap_eq_ok_iff.mp made).1
  case integrity =>
    rw [contents_eq_integrity_iff, framed_iff, and_assoc]
    rfl
  case causes =>
    intro error failed
    rcases contents_cases expected received with
      ⟨_, opened⟩ | ⟨_, opened⟩ | ⟨_, opened⟩ | ⟨_, opened⟩
    · exact .inl (Except.error.inj (failed.symm.trans opened))
    · exact .inr (.inl (Except.error.inj (failed.symm.trans opened)))
    · exact .inr (.inr (Except.error.inj (failed.symm.trans opened)))
    · cases failed.symm.trans opened
  · rw [contents_eq_framing_iff, framed_iff, Decidable.not_and_iff_not_or_not]
  · constructor
    · rintro ⟨frame, made⟩
      exact (wrap_eq_ok_iff.mp made).1
    · exact fun small => ⟨_, wrap_eq_ok_iff.mpr ⟨small, rfl⟩⟩

/-- No frame declares a content of 65536 bytes, so asking for one only ever fails. -/
theorem contents_exact_oversized :
    maxContent < 65536 ∧ 65536 + overhead ≤ 2 ^ 64 - 1 ∧
      (∀ content, contents 65536 [0x4#8] ≠ .ok content) ∧
      Checked.contents (2 ^ 64 - 1) 65536 [0x4#8] = .ok (.error (.framing 65540 1)) := by
  have large : maxContent < 65536 := by decide
  have within : 65536 + overhead ≤ 2 ^ 64 - 1 := by decide
  obtain ⟨_, never, _, framing, _, _, checked, _⟩ := contents_exact 65536 [0x4#8]
  have failed : contents 65536 [0x4#8] = .error (.framing 65540 1) :=
    (framing 65540 1).mpr ⟨⟨rfl, rfl⟩, List.cons_ne_nil _ _, .inl (by decide)⟩
  refine ⟨large, within, never large, ?_⟩
  rw [checked _ within, failed]

end Envelope

end RegisterLink
