import ShellEngine.Console.Event

/-!
# Gestures among bytes

A gesture is one byte, the detach chord, or three, a focus mark. Decoding shows a chord exactly if
there is a chord byte.
-/

namespace ShellEngine.Console

variable {bs rest : Bytes} {gained : Bool}

def focusMark (gained : Bool) : Bytes := [escByte, 0x5b, if gained then 0x49 else 0x4f]

/-- The detach chord and the focus marks, as bytes. -/
def IsGesture (bs : Bytes) : Prop := bs = [chordByte] ∨ ∃ gained, bs = focusMark gained

theorem eq_of_focusMark? (h : focusMark? bs = some gained) :
    ∃ rest, bs = focusMark gained ++ rest := by
  unfold focusMark? at h
  split at h
  · rename_i a b c rest
    split at h
    · rename_i hopen
      rw [Bool.and_eq_true, beq_iff_eq, beq_iff_eq] at hopen
      obtain ⟨rfl, rfl⟩ := hopen
      refine ⟨rest, ?_⟩
      split at h
      · rename_i hgained
        obtain rfl := Option.some.inj h
        rw [beq_iff_eq.mp hgained]
        rfl
      · split at h
        · rename_i hlost
          obtain rfl := Option.some.inj h
          rw [beq_iff_eq.mp hlost]
          rfl
        · cases h
    · cases h
  · cases h

theorem eq_of_altKey? {key : Char} (h : altKey? bs = some key) :
    ∃ b rest, bs = escByte :: b :: rest ∧ b ≠ chordByte := by
  unfold altKey? at h
  split at h
  · rename_i a b rest
    split at h
    · rename_i hkey
      simp only [Bool.and_eq_true, beq_iff_eq, decide_eq_true_eq] at hkey
      obtain ⟨⟨rfl, hvisible⟩, -⟩ := hkey
      refine ⟨b, rest, rfl, ?_⟩
      rintro rfl
      exact absurd hvisible (by decide)
    · cases h
  · cases h

theorem isDetachChord_singleKey (b : UInt8) :
    (singleKey b).isDetachChord = true ↔ b = chordByte := by
  have hall : ∀ n : Fin 256, (singleKey (UInt8.ofFin n)).isDetachChord = true ↔
      UInt8.ofFin n = chordByte := by decide +kernel
  simpa using hall b.toFin

theorem any_isDetachChord_decode (bs : Bytes) :
    (decode bs).any InputEvent.isDetachChord = true ↔ chordByte ∈ bs := by
  have hesc : chordByte ≠ escByte := by decide
  fun_induction decode bs with
  | case1 => simp
  | case2 b rest gained hmark ih =>
    -- A focus mark: its three bytes are none.
    obtain ⟨after, heq⟩ := eq_of_focusMark? hmark
    obtain ⟨rfl, rfl⟩ := List.cons.inj heq
    have hlast : chordByte ≠ if gained then 0x49 else 0x4f := by cases gained <;> decide
    have hopen : chordByte ≠ 0x5b := by decide
    rw [List.any_cons, Bool.or_eq_true]
    refine (or_congr_right ih).trans ?_
    simp [InputEvent.isDetachChord, hesc, hopen, hlast]
  | case3 b rest key hkey _ ih =>
    obtain ⟨second, after, heq, hne⟩ := eq_of_altKey? hkey
    obtain ⟨rfl, rfl⟩ := List.cons.inj heq
    rw [List.any_cons, Bool.or_eq_true]
    refine (or_congr_right ih).trans ?_
    simp [InputEvent.isDetachChord, hesc, hne.symm]
  | case4 b rest _ _ ih =>
    rw [List.any_cons, Bool.or_eq_true, List.mem_cons, isDetachChord_singleKey, eq_comm]
    exact or_congr_right ih

end ShellEngine.Console
