import ShellEngine.Environment.Block
import ShellEngine.Proofs.Text.Utf8

/-!
# Blocks that are read

A block is read only if it holds two NULs in a row, and these are found in its bytes whichever way
the bytes are made a text. When a NUL is put behind bytes that were cut somewhere, as the engine
does, they are read only if the cut was made behind an entry, or behind the end of all entries.
-/

namespace ShellEngine.Environment

theorem exists_of_beforeDoubleNul {acc cs text : List Char}
    (h : beforeDoubleNul acc cs = some text) :
    ∃ before rest, cs = before ++ '\x00' :: '\x00' :: rest ∧ text = acc.reverse ++ before := by
  fun_induction beforeDoubleNul acc cs with
  | case1 acc rest => exact ⟨[], rest, rfl, by simpa using h.symm⟩
  | case2 acc c rest _ ih =>
    obtain ⟨before, rest', rfl, rfl⟩ := ih h
    exact ⟨c :: before, rest', rfl, by simp⟩
  | case3 => cases h

theorem isInfix_nuls_of_parse {block : List Char} {env : Dict} (h : parse block = .ok env) :
    ['\x00', '\x00'] <:+: block := by
  unfold parse at h
  split at h
  · cases h
  · split at h
    · cases h
    · rename_i text htext
      obtain ⟨before, rest, rfl, -⟩ := exists_of_beforeDoubleNul htext
      exact ⟨before, rest, by simp⟩

theorem isInfix_nuls_of_blockText {bs : Bytes} (h : ['\x00', '\x00'] <:+: blockText bs) :
    [0, 0] <:+: bs := by
  unfold blockText at h
  cases hdecode : Text.decode? bs with
  | some cs =>
    rw [hdecode, Option.getD_some] at h
    exact (Text.decodes_of_decode? hdecode).isInfix_nuls h
  | none =>
    rw [hdecode, Option.getD_none] at h
    exact Text.isInfix_nuls_of_decodeLatin1 h

/-- Whether bytes end where an entry does: behind the NUL of the last one, or behind two NULs. -/
def EndsEntry (bs : Bytes) : Prop := bs.getLast? = some 0 ∨ [0, 0] <:+: bs

/-- Bytes that are read with a NUL behind them end where an entry does. -/
theorem endsEntry_of_decode {bs : Bytes} {env : Dict} (h : decode (bs ++ [0]) = .ok env) :
    EndsEntry bs := by
  have hnuls : [0, 0] <:+: bs ++ [0] := isInfix_nuls_of_blockText (isInfix_nuls_of_parse h)
  -- The NUL that was put behind the bytes is one of the two, or both lie before it.
  rcases List.infix_concat_iff.mp hnuls with ⟨before, hsuffix⟩ | hinfix
  · have hbs : before ++ [0] = bs := by
      rw [← List.append_cancel_right_eq _ [0], List.append_assoc]
      exact hsuffix
    rw [← hbs]
    exact Or.inl (List.getLast?_concat)
  · exact Or.inr hinfix

end ShellEngine.Environment
