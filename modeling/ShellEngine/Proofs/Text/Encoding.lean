import Mathlib.Data.List.Basic
import ShellEngine.Proofs.Text.Utf8

/-!
# Writing and reading UTF-8

Bytes are read as a text exactly if they are what the text is written as
(`decode?_eq_some_iff`). Both directions go character by character: the four forms of a character
are told apart by the first byte alone, and each form writes the digits of its number in base 64, so
that reading puts the same number together again.
-/

namespace ShellEngine.Text

/-! ## Numbers of characters -/

theorem toNat_ofNat {n : Nat} (hvalid : n.isValidChar) : (Char.ofNat n).toNat = n := by
  rw [Char.ofNat, dif_pos hvalid]
  rfl

theorem isValidChar_toNat (c : Char) : c.toNat.isValidChar := c.valid

theorem toNat_ofNat_of_lt {n : Nat} (hn : n < 256) : (UInt8.ofNat n).toNat = n :=
  UInt8.toNat_ofNat_of_lt' hn

theorem ofNat_eq {b : UInt8} {n : Nat} (h : b.toNat = n) : UInt8.ofNat n = b := by
  rw [← h, UInt8.ofNat_toNat]

/-! ## The four forms of a character -/

section Writing

variable {c : Char}

theorem utf8EncodeChar_one (h : c.toNat ≤ 0x7F) :
    String.utf8EncodeChar c = [UInt8.ofNat c.toNat] :=
  if_pos h

theorem utf8EncodeChar_two (hlow : 0x7F < c.toNat) (hhigh : c.toNat ≤ 0x7FF) :
    String.utf8EncodeChar c
      = [UInt8.ofNat (c.toNat / 64 + 0xC0), UInt8.ofNat (c.toNat % 64 + 0x80)] := by
  have hfirst : c.toNat / 64 % 32 = c.toNat / 64 := Nat.mod_eq_of_lt (by omega)
  rw [← hfirst]
  exact (if_neg (Nat.not_le.mpr hlow)).trans (if_pos hhigh)

theorem utf8EncodeChar_three (hlow : 0x7FF < c.toNat) (hhigh : c.toNat ≤ 0xFFFF) :
    String.utf8EncodeChar c
      = [UInt8.ofNat (c.toNat / 4096 + 0xE0), UInt8.ofNat (c.toNat / 64 % 64 + 0x80),
          UInt8.ofNat (c.toNat % 64 + 0x80)] := by
  have hfirst : c.toNat / 4096 % 16 = c.toNat / 4096 := Nat.mod_eq_of_lt (by omega)
  have hone : ¬c.toNat ≤ 0x7F := by omega
  rw [← hfirst]
  exact (if_neg hone).trans ((if_neg (Nat.not_le.mpr hlow)).trans (if_pos hhigh))

theorem utf8EncodeChar_four (hlow : 0xFFFF < c.toNat) :
    String.utf8EncodeChar c
      = [UInt8.ofNat (c.toNat / 262144 + 0xF0), UInt8.ofNat (c.toNat / 4096 % 64 + 0x80),
          UInt8.ofNat (c.toNat / 64 % 64 + 0x80), UInt8.ofNat (c.toNat % 64 + 0x80)] := by
  have hvalid : c.toNat < 0xD800 ∨ 0xDFFF < c.toNat ∧ c.toNat < 0x110000 := c.valid
  have hfirst : c.toNat / 262144 % 8 = c.toNat / 262144 := Nat.mod_eq_of_lt (by omega)
  have hone : ¬c.toNat ≤ 0x7F := by omega
  have htwo : ¬c.toNat ≤ 0x7FF := by omega
  rw [← hfirst]
  exact (if_neg hone).trans ((if_neg htwo).trans (if_neg (Nat.not_le.mpr hlow)))

end Writing

section Reading

variable {b b₁ b₂ b₃ : UInt8} {n₂ n₃ : Nat}

theorem scalarAt_one (hb : b.toNat < 0x80) (rest : Bytes) :
    scalarAt b rest = (some (Char.ofNat b.toNat), 1) := by
  simp [scalarAt, hb]

theorem scalarAt_two {n₁ : Nat} (hlow : 0xC2 ≤ b.toNat) (hhigh : b.toNat ≤ 0xDF)
    (h₁ : continuation? b₁ = some n₁) (rest : Bytes) :
    scalarAt b (b₁ :: rest) = (some (Char.ofNat ((b.toNat - 0xC0) * 64 + n₁)), 2) := by
  have hone : ¬b.toNat < 0x80 := by omega
  simp [scalarAt, hone, hlow, hhigh, h₁]

theorem scalarAt_three (hlow : 0xE0 ≤ b.toNat) (hhigh : b.toNat ≤ 0xEF)
    (hsecond : scalarAt.secondOf3 b.toNat b₁.toNat = true) (h₂ : continuation? b₂ = some n₂)
    (rest : Bytes) : scalarAt b (b₁ :: b₂ :: rest)
      = (some (Char.ofNat ((b.toNat - 0xE0) * 4096 + (b₁.toNat - 0x80) * 64 + n₂)), 3) := by
  have hone : ¬b.toNat < 0x80 := by omega
  have htwo : ¬b.toNat ≤ 0xDF := by omega
  simp [scalarAt, hone, htwo, hlow, hhigh, hsecond, h₂]

theorem scalarAt_four (hlow : 0xF0 ≤ b.toNat) (hhigh : b.toNat ≤ 0xF4)
    (hsecond : scalarAt.secondOf4 b.toNat b₁.toNat = true) (h₂ : continuation? b₂ = some n₂)
    (h₃ : continuation? b₃ = some n₃) (rest : Bytes) : scalarAt b (b₁ :: b₂ :: b₃ :: rest)
      = (some (Char.ofNat
          ((b.toNat - 0xF0) * 262144 + (b₁.toNat - 0x80) * 4096 + n₂ * 64 + n₃)), 4) := by
  have hone : ¬b.toNat < 0x80 := by omega
  have htwo : ¬b.toNat ≤ 0xDF := by omega
  have hthree : ¬b.toNat ≤ 0xEF := by omega
  simp [scalarAt, hone, htwo, hthree, hlow, hhigh, hsecond, h₂, h₃]

end Reading

/-! ## Single characters -/

/-- A character that was written is read, and what is behind it is left. -/
theorem scalarAt_of_utf8EncodeChar {c : Char} {b : UInt8} {bs : Bytes}
    (h : String.utf8EncodeChar c = b :: bs) (rest : Bytes) :
    scalarAt b (bs ++ rest) = (some c, bs.length + 1) := by
  have hvalid : c.toNat < 0xD800 ∨ 0xDFFF < c.toNat ∧ c.toNat < 0x110000 := c.valid
  have hc (n : Nat) (hn : n = c.toNat) : Char.ofNat n = c := by rw [hn, Char.ofNat_toNat]
  have hdigit (n : Nat) : continuation? (UInt8.ofNat (n % 64 + 0x80)) = some (n % 64) :=
    continuation?_eq_some_iff.mpr ⟨toNat_ofNat_of_lt (by omega), Nat.mod_lt _ (by omega)⟩
  -- By the form of the character: the first byte tells it, and the others give its digits back.
  by_cases hone : c.toNat ≤ 0x7F
  · obtain ⟨rfl, rfl⟩ := List.cons.inj ((utf8EncodeChar_one hone).symm.trans h)
    have hfirst : (UInt8.ofNat c.toNat).toNat = c.toNat := toNat_ofNat_of_lt (by omega)
    rw [List.nil_append, scalarAt_one (by omega), hc _ hfirst]
    rfl
  by_cases htwo : c.toNat ≤ 0x7FF
  · obtain ⟨rfl, rfl⟩ := List.cons.inj ((utf8EncodeChar_two (by omega) htwo).symm.trans h)
    have hfirst : (UInt8.ofNat (c.toNat / 64 + 0xC0)).toNat = c.toNat / 64 + 0xC0 :=
      toNat_ofNat_of_lt (by omega)
    rw [List.singleton_append, scalarAt_two (by omega) (by omega) (hdigit _), hc _ (by omega)]
    rfl
  by_cases hthree : c.toNat ≤ 0xFFFF
  · obtain ⟨rfl, rfl⟩ := List.cons.inj ((utf8EncodeChar_three (by omega) hthree).symm.trans h)
    have hfirst : (UInt8.ofNat (c.toNat / 4096 + 0xE0)).toNat = c.toNat / 4096 + 0xE0 :=
      toNat_ofNat_of_lt (by omega)
    have hnext : (UInt8.ofNat (c.toNat / 64 % 64 + 0x80)).toNat = c.toNat / 64 % 64 + 0x80 :=
      toNat_ofNat_of_lt (by omega)
    have hsecond := (@secondOf3_iff (c.toNat / 4096 + 0xE0) (c.toNat / 64 % 64 + 0x80)
      (by omega) (by omega)).mpr (by omega)
    rw [← hfirst, ← hnext] at hsecond
    rw [List.cons_append, List.singleton_append,
      scalarAt_three (by omega) (by omega) hsecond (hdigit _), hc _ (by omega)]
    rfl
  · obtain ⟨rfl, rfl⟩ := List.cons.inj ((utf8EncodeChar_four (by omega)).symm.trans h)
    have hfirst : (UInt8.ofNat (c.toNat / 262144 + 0xF0)).toNat = c.toNat / 262144 + 0xF0 :=
      toNat_ofNat_of_lt (by omega)
    have hnext : (UInt8.ofNat (c.toNat / 4096 % 64 + 0x80)).toNat = c.toNat / 4096 % 64 + 0x80 :=
      toNat_ofNat_of_lt (by omega)
    have hsecond := (@secondOf4_iff (c.toNat / 262144 + 0xF0) (c.toNat / 4096 % 64 + 0x80)
      (by omega) (by omega)).mpr (by omega)
    rw [← hfirst, ← hnext] at hsecond
    rw [List.cons_append, List.cons_append, List.singleton_append,
      scalarAt_four (by omega) (by omega) hsecond (hdigit _) (hdigit _), hc _ (by omega)]
    rfl

section Inverse

variable {b b₁ b₂ b₃ : UInt8} {n₂ n₃ : Nat}

theorem utf8EncodeChar_ofNat_one (hb : b.toNat < 0x80) :
    String.utf8EncodeChar (Char.ofNat b.toNat) = [b] := by
  have hn := toNat_ofNat (n := b.toNat) (Or.inl (by omega))
  rw [utf8EncodeChar_one (by omega), hn, UInt8.ofNat_toNat]

theorem utf8EncodeChar_ofNat_two {n₁ : Nat} (hb : 0xC2 ≤ b.toNat ∧ b.toNat ≤ 0xDF)
    (h₁ : continuation? b₁ = some n₁) :
    String.utf8EncodeChar (Char.ofNat ((b.toNat - 0xC0) * 64 + n₁)) = [b, b₁] := by
  obtain ⟨h₁, hlt₁⟩ := continuation?_eq_some_iff.mp h₁
  have hn := toNat_ofNat (n := (b.toNat - 0xC0) * 64 + n₁) (Or.inl (by omega))
  rw [utf8EncodeChar_two (by omega) (by omega), hn, @ofNat_eq b _ (by omega),
    @ofNat_eq b₁ _ (by omega)]

theorem utf8EncodeChar_ofNat_three (hb : 0xE0 ≤ b.toNat ∧ b.toNat ≤ 0xEF)
    (hsecond : scalarAt.secondOf3 b.toNat b₁.toNat = true) (h₂ : continuation? b₂ = some n₂) :
    String.utf8EncodeChar
        (Char.ofNat ((b.toNat - 0xE0) * 4096 + (b₁.toNat - 0x80) * 64 + n₂)) = [b, b₁, b₂] := by
  obtain ⟨h₂, hlt₂⟩ := continuation?_eq_some_iff.mp h₂
  have hbounds := (secondOf3_iff hb.1 hb.2).mp hsecond
  have hvalid : Nat.isValidChar ((b.toNat - 0xE0) * 4096 + (b₁.toNat - 0x80) * 64 + n₂) := by
    unfold Nat.isValidChar
    omega
  have hn := toNat_ofNat hvalid
  rw [utf8EncodeChar_three (by omega) (by omega), hn, @ofNat_eq b _ (by omega),
    @ofNat_eq b₁ _ (by omega), @ofNat_eq b₂ _ (by omega)]

theorem utf8EncodeChar_ofNat_four (hb : 0xF0 ≤ b.toNat ∧ b.toNat ≤ 0xF4)
    (hsecond : scalarAt.secondOf4 b.toNat b₁.toNat = true) (h₂ : continuation? b₂ = some n₂)
    (h₃ : continuation? b₃ = some n₃) :
    String.utf8EncodeChar
        (Char.ofNat ((b.toNat - 0xF0) * 262144 + (b₁.toNat - 0x80) * 4096 + n₂ * 64 + n₃))
      = [b, b₁, b₂, b₃] := by
  obtain ⟨h₂, hlt₂⟩ := continuation?_eq_some_iff.mp h₂
  obtain ⟨h₃, hlt₃⟩ := continuation?_eq_some_iff.mp h₃
  have hbounds := (secondOf4_iff hb.1 hb.2).mp hsecond
  have hvalid : Nat.isValidChar
      ((b.toNat - 0xF0) * 262144 + (b₁.toNat - 0x80) * 4096 + n₂ * 64 + n₃) := by
    unfold Nat.isValidChar
    omega
  have hn := toNat_ofNat hvalid
  rw [utf8EncodeChar_four (by omega), hn, @ofNat_eq b _ (by omega), @ofNat_eq b₁ _ (by omega),
    @ofNat_eq b₂ _ (by omega), @ofNat_eq b₃ _ (by omega)]

end Inverse

theorem utf8EncodeChar_of_scalarAt {b : UInt8} {rest : Bytes} {c : Char} {width : Nat}
    (h : scalarAt b rest = (some c, width)) :
    ∃ bs, String.utf8EncodeChar c = b :: bs ∧ rest = bs ++ rest.drop (width - 1) := by
  simp only [scalarAt] at h
  repeat' split at h
  -- the forms that make no character
  all_goals try exact absurd (Prod.mk.inj h).1.symm (Option.some_ne_none _)
  all_goals
    obtain ⟨hc, rfl⟩ := Prod.mk.inj h
    obtain rfl := Option.some.inj hc
    simp only [Bool.and_eq_true, decide_eq_true_eq] at *
  · exact ⟨[], utf8EncodeChar_ofNat_one ‹_›, rfl⟩
  · exact ⟨[_], utf8EncodeChar_ofNat_two ‹_› ‹_›, rfl⟩
  · exact ⟨[_, _], utf8EncodeChar_ofNat_three ‹_› ‹_› ‹_›, rfl⟩
  · exact ⟨[_, _, _], utf8EncodeChar_ofNat_four ‹_› ‹_› ‹_› ‹_›, rfl⟩

/-! ## Whole texts -/

theorem encode_eq_flatMap (cs : List Char) : encode cs = cs.flatMap String.utf8EncodeChar := by
  suffices h : ∀ acc : Bytes, (cs.foldl (fun acc c ↦
      (String.utf8EncodeChar c).foldl (fun acc b ↦ b :: acc) acc) acc).reverse
      = acc.reverse ++ cs.flatMap String.utf8EncodeChar from h []
  induction cs with
  | nil => simp
  | cons c cs ih =>
    intro acc
    have hinner (bs acc : Bytes) : bs.foldl (fun acc b ↦ b :: acc) acc = bs.reverse ++ acc := by
      induction bs generalizing acc with
      | nil => rfl
      | cons b bs ih => simp [ih]
    rw [List.foldl_cons, ih, hinner, List.flatMap_cons]
    simp

theorem encode_append (cs ds : List Char) : encode (cs ++ ds) = encode cs ++ encode ds := by
  rw [encode_eq_flatMap, encode_eq_flatMap, encode_eq_flatMap, List.flatMap_append]

theorem encode_cons (c : Char) (cs : List Char) :
    encode (c :: cs) = String.utf8EncodeChar c ++ encode cs := by
  rw [encode_eq_flatMap, encode_eq_flatMap, List.flatMap_cons]

theorem width_eq_length_encode (cs : List Char) : width cs = (encode cs).length := by
  suffices h : ∀ n, cs.foldl (fun n c ↦ n + c.utf8Size) n = n + (encode cs).length by
    rw [width, h, Nat.zero_add]
  induction cs with
  | nil => intro n; rfl
  | cons c cs ih =>
    intro n
    rw [List.foldl_cons, ih, encode_cons, List.length_append, String.length_utf8EncodeChar,
      Nat.add_assoc]

theorem width_append (cs ds : List Char) : width (cs ++ ds) = width cs + width ds := by
  rw [width_eq_length_encode, encode_append, List.length_append, ← width_eq_length_encode,
    ← width_eq_length_encode]

theorem width_pos {cs : List Char} (h : cs ≠ []) : 0 < width cs := by
  obtain ⟨c, cs, rfl⟩ := List.exists_cons_of_ne_nil h
  rw [width_eq_length_encode, encode_cons, List.length_append, String.length_utf8EncodeChar]
  exact Nat.add_pos_left c.utf8Size_pos _

theorem decode?_go_encode (acc cs : List Char) :
    decode?.go acc (encode cs) = some (acc.reverse ++ cs) := by
  induction cs generalizing acc with
  | nil => simp [encode, decode?.go]
  | cons c cs ih =>
    obtain ⟨b, bs, hbs⟩ := List.exists_cons_of_ne_nil (String.utf8EncodeChar_ne_nil (c := c))
    rw [encode_cons, hbs, List.cons_append, decode?.go, scalarAt_of_utf8EncodeChar hbs]
    simp only [Nat.add_sub_cancel, List.drop_left]
    rw [ih]
    simp

theorem eq_encode_of_decodes {bs : Bytes} {cs : List Char} (h : Decodes bs cs) :
    bs = encode cs := by
  induction h with
  | nil => rfl
  | cons hscalar _ ih =>
    obtain ⟨bs, hbs, hrest⟩ := utf8EncodeChar_of_scalarAt hscalar
    rw [encode_cons, hbs, ← ih, List.cons_append, ← hrest]

/-- **Reading undoes writing**, and nothing else is read. -/
theorem decode?_eq_some_iff {bs : Bytes} {cs : List Char} :
    decode? bs = some cs ↔ bs = encode cs := by
  constructor
  · intro h
    exact eq_encode_of_decodes (decodes_of_decode? h)
  · rintro rfl
    rw [decode?, decode?_go_encode]
    rfl

end ShellEngine.Text
