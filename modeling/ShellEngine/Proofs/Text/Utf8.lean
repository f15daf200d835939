import ShellEngine.Text.Utf8

/-!
# NULs in decoded text

A NUL in a text comes from a NUL byte: no longer form of a character stands for it, and no byte of a
longer form is one. So NULs that follow each other in a text follow each other in its bytes, however
the rest was encoded.
-/

namespace ShellEngine.Text

/-! ## Bytes behind the first -/

theorem continuation?_eq_some_iff {b : UInt8} {n : Nat} :
    continuation? b = some n ↔ b.toNat = n + 128 ∧ n < 64 := by
  have hlow : (0x80 : UInt8).toNat = 128 := rfl
  have hhigh : (0xBF : UInt8).toNat = 191 := rfl
  unfold continuation?
  rw [Option.ite_none_right_eq_some, Option.some.injEq, Bool.and_eq_true, decide_eq_true_iff,
    decide_eq_true_iff, UInt8.le_iff_toNat_le, UInt8.le_iff_toNat_le, hlow, hhigh]
  omega

/-- Which second bytes may follow the first one of three: the number takes three bytes to write and
is no surrogate. -/
theorem secondOf3_iff {n m : Nat} (hlow : 0xE0 ≤ n) (hhigh : n ≤ 0xEF) :
    scalarAt.secondOf3 n m = true ↔ 0x80 ≤ m ∧ m ≤ 0xBF ∧
      0x7FF < (n - 0xE0) * 4096 + (m - 0x80) * 64 + 63 ∧
      ((n - 0xE0) * 4096 + (m - 0x80) * 64 < 0xD800 ∨
        0xDFFF < (n - 0xE0) * 4096 + (m - 0x80) * 64) := by
  simp only [scalarAt.secondOf3, beq_iff_eq]
  split
  · rw [Bool.and_eq_true, decide_eq_true_iff, decide_eq_true_iff]
    omega
  · split <;> (rw [Bool.and_eq_true, decide_eq_true_iff, decide_eq_true_iff]; omega)

/-- Which second bytes may follow the first one of four: the number takes four bytes to write and
is not too large. -/
theorem secondOf4_iff {n m : Nat} (hlow : 0xF0 ≤ n) (hhigh : n ≤ 0xF4) :
    scalarAt.secondOf4 n m = true ↔ 0x80 ≤ m ∧ m ≤ 0xBF ∧
      0xFFFF < (n - 0xF0) * 262144 + (m - 0x80) * 4096 + 4095 ∧
      (n - 0xF0) * 262144 + (m - 0x80) * 4096 < 0x110000 := by
  simp only [scalarAt.secondOf4, beq_iff_eq]
  split
  · rw [Bool.and_eq_true, decide_eq_true_iff, decide_eq_true_iff]
    omega
  · split <;> (rw [Bool.and_eq_true, decide_eq_true_iff, decide_eq_true_iff]; omega)

/-! ## Single characters -/

theorem ofNat_ne_nul {n : Nat} (hpos : 0 < n) (hvalid : n.isValidChar) :
    Char.ofNat n ≠ '\x00' := by
  intro h
  rw [Char.ofNat, dif_pos hvalid] at h
  exact Nat.ne_of_gt hpos (congrArg Char.toNat h)

theorem ofNat_toNat_eq_nul {b : UInt8} (h : Char.ofNat b.toNat = '\x00') : b = 0 := by
  have hlt := b.toNat_lt
  rcases Nat.eq_zero_or_pos b.toNat with hzero | hpos
  · exact UInt8.toNat_inj.mp hzero
  · exact absurd h (ofNat_ne_nul hpos (Or.inl (by omega)))

theorem ofNat_ne_nul_of_two {n c : Nat} (hn : 0xC2 ≤ n ∧ n ≤ 0xDF) (hc : c < 64) :
    Char.ofNat ((n - 0xC0) * 64 + c) ≠ '\x00' :=
  ofNat_ne_nul (by omega) (Or.inl (by omega))

/-- The second byte of three makes the character neither a NUL nor a surrogate. -/
theorem ofNat_ne_nul_of_three {n m c : Nat} (hn : 0xE0 ≤ n ∧ n ≤ 0xEF)
    (hm : scalarAt.secondOf3 n m = true) (hc : c < 64) :
    Char.ofNat ((n - 0xE0) * 4096 + (m - 0x80) * 64 + c) ≠ '\x00' := by
  obtain ⟨hlow, hhigh, hbounds⟩ := (secondOf3_iff hn.1 hn.2).mp hm
  refine ofNat_ne_nul (by omega) ?_
  unfold Nat.isValidChar
  omega

/-- The second byte of four makes the character neither a NUL nor too large. -/
theorem ofNat_ne_nul_of_four {n m c d : Nat} (hn : 0xF0 ≤ n ∧ n ≤ 0xF4)
    (hm : scalarAt.secondOf4 n m = true) (hc : c < 64) (hd : d < 64) :
    Char.ofNat ((n - 0xF0) * 262144 + (m - 0x80) * 4096 + c * 64 + d) ≠ '\x00' := by
  obtain ⟨hlow, hhigh, hbounds⟩ := (secondOf4_iff hn.1 hn.2).mp hm
  refine ofNat_ne_nul (by omega) ?_
  unfold Nat.isValidChar
  omega

theorem scalarAt_nul {b : UInt8} {rest : Bytes} {width : Nat}
    (h : scalarAt b rest = (some '\x00', width)) : b = 0 ∧ width = 1 := by
  simp only [scalarAt] at h
  split at h
  case isTrue =>
    obtain ⟨hc, rfl⟩ := Prod.mk.inj h
    exact ⟨ofNat_toNat_eq_nul (Option.some.inj hc), rfl⟩
  case isFalse =>
    exfalso
    repeat' split at h
    -- of the other forms those are left that make a character
    all_goals first
      | exact Option.some_ne_none _ (Prod.mk.inj h).1.symm
      | simp only [Bool.and_eq_true, decide_eq_true_eq] at *
    · exact ofNat_ne_nul_of_two ‹_› (continuation?_eq_some_iff.mp ‹_›).2 (Option.some.inj (Prod.mk.inj h).1)
    · exact ofNat_ne_nul_of_three ‹_› ‹_› (continuation?_eq_some_iff.mp ‹_›).2
        (Option.some.inj (Prod.mk.inj h).1)
    · exact ofNat_ne_nul_of_four ‹_› ‹_› (continuation?_eq_some_iff.mp ‹_›).2 (continuation?_eq_some_iff.mp ‹_›).2
        (Option.some.inj (Prod.mk.inj h).1)

/-! ## Whole texts -/

/-- The text of some bytes, character by character. -/
inductive Decodes : Bytes → List Char → Prop
  | nil : Decodes [] []
  | cons {b : UInt8} {rest : Bytes} {c : Char} {cs : List Char} {width : Nat}
      (hscalar : scalarAt b rest = (some c, width)) (hrest : Decodes (rest.drop (width - 1)) cs) :
      Decodes (b :: rest) (c :: cs)

theorem decode?_go_eq_some {acc text : List Char} {bs : Bytes} (h : decode?.go acc bs = some text) :
    ∃ cs, text = acc.reverse ++ cs ∧ Decodes bs cs := by
  fun_induction decode?.go acc bs with
  | case1 acc => exact ⟨[], by simpa using h.symm, .nil⟩
  | case2 acc b rest c width hscalar ih =>
    obtain ⟨cs, rfl, hcs⟩ := ih h
    exact ⟨c :: cs, by simp, .cons hscalar hcs⟩
  | case3 => cases h

theorem decodes_of_decode? {bs : Bytes} {cs : List Char} (h : decode? bs = some cs) :
    Decodes bs cs := by
  obtain ⟨cs', rfl, hcs⟩ := decode?_go_eq_some h
  exact hcs

theorem Decodes.exists_cons_nul {bs : Bytes} {cs : List Char} (h : Decodes bs ('\x00' :: cs)) :
    ∃ rest, bs = 0 :: rest ∧ Decodes rest cs := by
  cases h with
  | cons hscalar hrest =>
    obtain ⟨rfl, rfl⟩ := scalarAt_nul hscalar
    exact ⟨_, rfl, hrest⟩

/-- Two NULs in a row in a text are two NULs in a row in its bytes. -/
theorem Decodes.isInfix_nuls {bs : Bytes} {cs : List Char} (h : Decodes bs cs)
    (hcs : ['\x00', '\x00'] <:+: cs) : [0, 0] <:+: bs := by
  induction h with
  | nil => simp at hcs
  | @cons b rest c cs width hscalar hrest ih =>
    rcases List.infix_cons_iff.mp hcs with ⟨tail, htail⟩ | hcs
    · obtain ⟨rfl, rfl⟩ := List.cons.inj htail
      obtain ⟨rfl, rfl⟩ := scalarAt_nul hscalar
      obtain ⟨rest', hrest', -⟩ := hrest.exists_cons_nul
      exact ⟨[], rest', by simpa using hrest'.symm⟩
    · exact ((ih hcs).trans (List.drop_suffix _ _).isInfix).trans (List.suffix_cons _ _).isInfix

theorem isInfix_nuls_of_decodeLatin1 {bs : Bytes} (h : ['\x00', '\x00'] <:+: decodeLatin1 bs) :
    [0, 0] <:+: bs := by
  obtain ⟨before, after, h⟩ := h
  obtain ⟨bs₁, bs₂, rfl, hbs₁, -⟩ := List.map_eq_append_iff.mp h.symm
  obtain ⟨bs₃, bs₄, rfl, -, hbs₄⟩ := List.map_eq_append_iff.mp hbs₁
  obtain ⟨b, bs₅, rfl, hb, hbs₅⟩ := List.map_eq_cons_iff.mp hbs₄
  obtain ⟨b', bs₆, rfl, hb', hbs₆⟩ := List.map_eq_cons_iff.mp hbs₅
  rw [ofNat_toNat_eq_nul hb, ofNat_toNat_eq_nul hb', List.map_eq_nil_iff.mp hbs₆]
  exact ⟨bs₃, bs₂, rfl⟩

end ShellEngine.Text
