import ShellEngine.Proofs.Text.Encoding
import ShellEngine.Text.Octets

/-!
# Octets without NULs

Neither way between texts and octets brings in a NUL. The octets of a text have one only where the
text has one (`nulFree_ofString`), and the text of octets has one only where there is a NUL byte,
whether the octets are UTF-8 or not (`not_mem_toText`).
-/

namespace ShellEngine

namespace Text

/-! ## From texts to bytes -/

theorem toList_loop_eq (bs : ByteArray) (i : Nat) (acc : Bytes) :
    ByteArray.toList.loop bs i acc = acc.reverse ++ bs.data.toList.drop i := by
  fun_induction ByteArray.toList.loop bs i acc with
  | case1 i acc hlt ih =>
    have hi : i < bs.data.toList.length := hlt
    have hget : bs.get! i = bs.data.toList[i] := getElem!_pos bs.data i hlt
    rw [ih, hget, List.reverse_cons, List.append_assoc, List.drop_eq_getElem_cons hi]
    rfl
  | case2 i acc hge =>
    have hi : bs.data.toList.length ≤ i := Nat.le_of_not_lt hge
    rw [List.drop_eq_nil_of_le hi, List.append_nil]

theorem bytes_eq_encode (s : String) : bytes s = encode s.toList := by
  have hbytes : s.toUTF8.data.toList = s.toList.flatMap String.utf8EncodeChar := by
    rw [String.toUTF8_eq_toByteArray, ← String.utf8Encode_toList, List.utf8Encode,
      List.toList_data_toByteArray]
  rw [bytes, ByteArray.toList, toList_loop_eq, encode_eq_flatMap, ← hbytes]
  rfl

theorem ofNat_ne_zero {n : Nat} (hpos : 0 < n) (hlt : n < 256) : (0 : UInt8) ≠ UInt8.ofNat n := by
  intro h
  have hzero : 0 = n := (congrArg UInt8.toNat h).trans (toNat_ofNat_of_lt hlt)
  exact Nat.ne_of_lt hpos hzero

/-- Only a NUL is written with a NUL: each byte of a longer form has its highest bit set. -/
theorem eq_nul_of_zero_mem {c : Char} (h : 0 ∈ String.utf8EncodeChar c) : c = '\x00' := by
  have hvalid : c.toNat < 0xD800 ∨ 0xDFFF < c.toNat ∧ c.toNat < 0x110000 := c.valid
  have hhigh {n : Nat} (hle : 0x80 ≤ n) (hlt : n < 256) : (0 : UInt8) ≠ UInt8.ofNat n :=
    ofNat_ne_zero (Nat.lt_of_lt_of_le (by decide) hle) hlt
  by_cases hone : c.toNat ≤ 0x7F
  · rw [utf8EncodeChar_one hone, List.mem_singleton] at h
    by_contra hne
    have hpos : 0 < c.toNat := Nat.pos_of_ne_zero fun hzero ↦ hne (Char.toNat_inj.mp hzero)
    exact ofNat_ne_zero hpos (by omega) h
  exfalso
  by_cases htwo : c.toNat ≤ 0x7FF
  · rw [utf8EncodeChar_two (by omega) htwo] at h
    rcases List.mem_pair.mp h with h | h
    · exact hhigh (by omega) (by omega) h
    · exact hhigh (by omega) (by omega) h
  by_cases hthree : c.toNat ≤ 0xFFFF
  · rw [utf8EncodeChar_three (by omega) hthree, List.mem_cons, List.mem_pair] at h
    rcases h with h | h | h
    · exact hhigh (by omega) (by omega) h
    · exact hhigh (by omega) (by omega) h
    · exact hhigh (by omega) (by omega) h
  · rw [utf8EncodeChar_four (by omega), List.mem_cons, List.mem_cons, List.mem_pair] at h
    rcases h with h | h | h | h
    · exact hhigh (by omega) (by omega) h
    · exact hhigh (by omega) (by omega) h
    · exact hhigh (by omega) (by omega) h
    · exact hhigh (by omega) (by omega) h

theorem nul_mem_of_zero_mem_encode {cs : List Char} (h : 0 ∈ encode cs) : '\x00' ∈ cs := by
  rw [encode_eq_flatMap] at h
  obtain ⟨c, hc, hzero⟩ := List.mem_flatMap.mp h
  rwa [← eq_nul_of_zero_mem hzero]

/-! ## From bytes to texts -/

theorem replacement_ne_nul : replacement ≠ '\x00' := by decide

theorem nul_mem_decodeLossy_go {acc : List Char} {bs : Bytes} (h : '\x00' ∈ decodeLossy.go acc bs) :
    '\x00' ∈ acc ∨ 0 ∈ bs := by
  fun_induction decodeLossy.go acc bs with
  | case1 acc => exact Or.inl (List.mem_reverse.mp h)
  | case2 acc b rest found width hscalar ih =>
    rcases ih h with hacc | hrest
    · rcases List.mem_cons.mp hacc with hfound | hacc
      · cases found with
        | none => exact absurd hfound.symm replacement_ne_nul
        | some c =>
          obtain rfl : '\x00' = c := hfound
          obtain ⟨rfl, -⟩ := scalarAt_nul hscalar
          exact Or.inr List.mem_cons_self
      · exact Or.inl hacc
    · exact Or.inr (List.mem_cons_of_mem b (List.mem_of_mem_drop hrest))

theorem zero_mem_of_nul_mem_decodeLossy {bs : Bytes} (h : '\x00' ∈ decodeLossy bs) : 0 ∈ bs :=
  (nul_mem_decodeLossy_go h).resolve_left List.not_mem_nil

end Text

namespace Octets

/-- None of the bytes is a NUL. -/
def NulFree (os : Octets) : Prop := 0 ∉ os.toBytes

instance (os : Octets) : Decidable os.NulFree := inferInstanceAs (Decidable (0 ∉ os.toBytes))

theorem NulFree.of_subset {os os' : Octets} (h : os'.NulFree) (hsubset : os ⊆ os') : os.NulFree :=
  fun hzero ↦ h (List.map_subset _ hsubset hzero)

theorem nulFree_nil : NulFree [] := List.not_mem_nil

theorem NulFree.append {os os' : Octets} (h : os.NulFree) (h' : os'.NulFree) :
    NulFree (os ++ os') := by
  unfold NulFree toBytes at *
  rw [List.map_append, List.mem_append, not_or]
  exact ⟨h, h'⟩

theorem toBytes_ofBytes (bs : Bytes) : toBytes (ofBytes bs) = bs := by
  have hbyte (b : UInt8) : UInt8.ofNat (Char.ofNat b.toNat).toNat = b := by
    have hlt := b.toNat_lt
    rw [Text.toNat_ofNat (Or.inl (by omega)), UInt8.ofNat_toNat]
  rw [toBytes, ofBytes, Text.decodeLatin1, List.map_map]
  exact (List.map_congr_left fun b _ ↦ hbyte b).trans (List.map_id bs)

theorem nulFree_ofString {s : String} (h : '\x00' ∉ s.toList) : (ofString s).NulFree := by
  rw [NulFree, ofString, toBytes_ofBytes, Text.bytes_eq_encode]
  exact fun hzero ↦ h (Text.nul_mem_of_zero_mem_encode hzero)

theorem not_mem_toText {os : Octets} (h : os.NulFree) : '\x00' ∉ os.toText.toList := by
  rw [toText, String.toList_ofList]
  exact fun hnul ↦ h (Text.zero_mem_of_nul_mem_decodeLossy hnul)

theorem mem_splitOn_go {sep : Char} {found : List Octets} {part os cut : Octets}
    (h : cut ∈ splitOn.go sep found part os) : cut ∈ found ∨ cut ⊆ part ++ os := by
  fun_induction splitOn.go sep found part os with
  | case1 found part =>
    rw [List.mem_reverse, List.mem_cons] at h
    rcases h with rfl | hfound
    · exact Or.inr fun c hc ↦ List.mem_append_left _ (List.mem_reverse.mp hc)
    · exact Or.inl hfound
  | case2 found part rest ih =>
    rcases ih h with hcut | hrest
    · rcases List.mem_cons.mp hcut with rfl | hfound
      · exact Or.inr fun c hc ↦ List.mem_append_left _ (List.mem_reverse.mp hc)
      · exact Or.inl hfound
    · exact Or.inr fun c hc ↦ List.mem_append_right _ (List.mem_cons_of_mem _ (hrest hc))
  | case3 found part c rest _ ih =>
    exact (ih h).imp_right fun hrest d hd ↦ List.perm_middle.mem_iff.mpr (hrest hd)

theorem subset_of_mem_splitOn {sep : Char} {os part : Octets} (h : part ∈ splitOn sep os) :
    part ⊆ os :=
  (mem_splitOn_go h).resolve_left List.not_mem_nil

end Octets

end ShellEngine
