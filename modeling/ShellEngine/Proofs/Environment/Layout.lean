import Mathlib.Data.List.Induction
import ShellEngine.Proofs.Environment.Definitions
import ShellEngine.Proofs.Text.Encoding

/-!
# Blocks as a process holds them

A block is laid out as its entries, each closed by a NUL, and one more NUL (`layout`). Reading it
gives back what its entries define, the last one of a name winning, and nothing of what lies behind
it (`decode_layout`). No entry is empty or holds a NUL, so the first two NULs in a row are those at
the end, and cutting at NULs gives the entries again.
-/

namespace ShellEngine

namespace Environment

/-- The text of a block: every entry closed by a NUL, and one NUL more. -/
def layout (entries : List (List Char)) : List Char :=
  entries.flatMap (· ++ ['\x00']) ++ ['\x00']

theorem layout_cons (entry : List Char) (entries : List (List Char)) :
    layout (entry :: entries) = entry ++ '\x00' :: layout entries := by
  simp [layout]

/-! ## Finding the end -/

theorem beforeDoubleNul_append {entry : List Char} (h : '\x00' ∉ entry) (acc cs : List Char) :
    beforeDoubleNul acc (entry ++ cs) = beforeDoubleNul (entry.reverse ++ acc) cs := by
  induction entry generalizing acc with
  | nil => rfl
  | cons c entry ih =>
    obtain ⟨hc, hentry⟩ := not_or.mp (mt List.mem_cons.mpr h)
    rw [List.cons_append, beforeDoubleNul, ih hentry]
    · simp
    · -- two NULs in a row do not begin here
      rintro rest rfl
      exact absurd rfl hc

theorem beforeDoubleNul_nul {c : Char} (hc : c ≠ '\x00') (acc cs : List Char) :
    beforeDoubleNul acc ('\x00' :: c :: cs) = beforeDoubleNul ('\x00' :: acc) (c :: cs) := by
  rw [beforeDoubleNul]
  rintro rest - hcs
  exact hc (List.cons.inj hcs).1

section Laid

variable {entries : List (List Char)}
  (hne : entries ≠ []) (hentries : ∀ entry ∈ entries, entry ≠ [] ∧ '\x00' ∉ entry)

include hne hentries

theorem beforeDoubleNul_layout (acc rest : List Char) :
    beforeDoubleNul acc (layout entries ++ rest)
      = some (acc.reverse ++ ['\x00'].intercalate entries) := by
  induction entries generalizing acc with
  | nil => exact absurd rfl hne
  | cons entry entries ih =>
    obtain ⟨⟨-, hentry⟩, hentries⟩ := List.forall_mem_cons.mp hentries
    rw [layout_cons, List.append_assoc, beforeDoubleNul_append hentry]
    match entries with
    | [] => simp [layout, beforeDoubleNul]
    | next :: entries =>
      -- the next entry begins with something, so that one NUL is no end
      obtain ⟨hnext, hnul⟩ := hentries next List.mem_cons_self
      obtain ⟨c, cs, rfl⟩ := List.exists_cons_of_ne_nil hnext
      have hc : c ≠ '\x00' := fun h ↦ hnul (h ▸ List.mem_cons_self)
      have hfound := ih (List.cons_ne_nil _ _) hentries ('\x00' :: (entry.reverse ++ acc))
      rw [layout_cons, List.cons_append, List.cons_append] at hfound ⊢
      rw [List.cons_append, beforeDoubleNul_nul hc, hfound]
      simp [List.intercalate_cons_cons]

theorem two_lt_length_layout (rest : List Char) : 2 < (layout entries ++ rest).length := by
  obtain ⟨entry, tail, rfl⟩ := List.exists_cons_of_ne_nil hne
  have hpos : 0 < entry.length :=
    List.length_pos_of_ne_nil (hentries entry List.mem_cons_self).1
  rw [layout_cons, layout]
  simp only [List.length_append, List.length_cons, List.length_nil]
  omega

end Laid

/-! ## Cutting at NULs -/

theorem entriesOf_go_eq (found : List (List Char)) (current cs : List Char) :
    entriesOf.go found current cs
      = found.reverse ++ (cs.splitOn '\x00').modifyHead (current.reverse ++ ·) := by
  induction cs generalizing found current with
  | nil => simp [entriesOf.go, List.splitOn]
  | cons c cs ih =>
    by_cases hc : c = '\x00'
    · subst hc
      have hhead : (cs.splitOn '\x00').modifyHead (fun l ↦ l) = cs.splitOn '\x00' :=
        congrFun List.modifyHead_id _
      rw [List.splitOn] at hhead
      rw [entriesOf.go, ih]
      simp [List.splitOn, List.splitOnP_cons_eq_if_modifyHead, hhead]
    · rw [entriesOf.go, ih]
      · simp [List.splitOn, List.splitOnP_cons_eq_if_modifyHead, hc, Function.comp_def]
      · simpa using hc

theorem entriesOf_eq_splitOn (cs : List Char) : entriesOf cs = cs.splitOn '\x00' := by
  rw [entriesOf, entriesOf_go_eq]
  exact congrFun List.modifyHead_id _

/-! ## What entries define -/

/-- What the last entry for a name defines it as. -/
def LastDefines (entries : List (List Char)) (name value : String) : Prop :=
  ∃ before entry after, entries = before ++ entry :: after ∧ Defines entry name value ∧
    ∀ later ∈ after, ∀ other, ¬Defines later name other

theorem lastDefines_concat {entries : List (List Char)} {entry : List Char} {name value : String} :
    LastDefines (entries ++ [entry]) name value ↔
      Defines entry name value ∨
        (∀ other, ¬Defines entry name other) ∧ LastDefines entries name value := by
  constructor
  · rintro ⟨before, found, after, hsplit, hfound, hafter⟩
    rcases List.eq_nil_or_concat' after with rfl | ⟨after, last, rfl⟩
    · obtain ⟨-, rfl⟩ := List.append_singleton_inj.mp hsplit
      exact Or.inl hfound
    · rw [← List.cons_append, ← List.append_assoc] at hsplit
      obtain ⟨rfl, rfl⟩ := List.append_singleton_inj.mp hsplit
      exact Or.inr ⟨hafter _ (by simp), before, found, after, rfl, hfound,
        fun later hlater ↦ hafter later (by simp [hlater])⟩
  · rintro (hdefines | ⟨hnot, before, found, after, rfl, hfound, hafter⟩)
    · exact ⟨entries, entry, [], rfl, hdefines, by simp⟩
    · refine ⟨before, found, after ++ [entry], by simp, hfound, ?_⟩
      intro later hlater
      rcases List.mem_append.mp hlater with hlater | hlater
      · exact hafter later hlater
      · rwa [List.mem_singleton.mp hlater]

end Environment

namespace Dict

theorem isEmpty_ofList_iff {es : List (String × String)} :
    (ofList es).entries.isEmpty = true ↔ es = [] := by
  rw [List.isEmpty_iff]
  constructor
  · intro hempty
    rcases List.eq_nil_or_concat' es with rfl | ⟨es, e, rfl⟩
    · rfl
    · have hlast := get?_ofList_concat es e e.1
      rw [if_pos rfl, ← mem_entries_iff, hempty] at hlast
      cases hlast
  · rintro rfl
    rfl

end Dict

namespace Environment

theorem get?_ofList_filterMap_define {entries : List (List Char)} {name value : String} :
    (Dict.ofList (entries.filterMap define)).get? name = some value ↔
      LastDefines entries name value := by
  induction entries using List.reverseRecOn with
  | nil => simp [LastDefines, Dict.ofList, Dict.get?, Dict.empty, Dict.lookup]
  | append_singleton entries entry ih =>
    rw [lastDefines_concat, ← ih, ← define_eq_some_iff, List.filterMap_append]
    simp only [← define_eq_some_iff]
    cases hdefine : define entry with
    | none => simp [hdefine]
    | some found =>
      obtain ⟨n, v⟩ := found
      rw [show [entry].filterMap define = [(n, v)] by simp [hdefine], Dict.get?_ofList_concat]
      by_cases hname : name = n
      · subst hname
        simp
      · simp [hname, Ne.symm hname]

theorem forall_not_defines_iff {entries : List (List Char)} :
    entries.filterMap define = [] ↔ ∀ entry ∈ entries, ∀ name value, ¬Defines entry name value := by
  rw [List.filterMap_eq_nil_iff]
  refine forall₂_congr fun entry _ ↦ ?_
  rw [Option.eq_none_iff_forall_ne_some, Prod.forall]
  exact forall₂_congr fun name value ↦ not_congr define_eq_some_iff

/-! ## Reading a block -/

/-- What reading a block of some entries finds: the variables that they define, the last entry of a
name winning. Only a block that defines none is empty. -/
structure ReadAs (entries : List (List Char)) (found : Except HarvestError Dict) : Prop where
  empty_iff : found = .error .empty ↔
    ∀ entry ∈ entries, ∀ name value, ¬Defines entry name value
  defined : found ≠ .error .empty → ∃ env, found = .ok env ∧
    ∀ name value, env.get? name = some value ↔ LastDefines entries name value

section Reading

variable {entries : List (List Char)}
  (hne : entries ≠ []) (hentries : ∀ entry ∈ entries, entry ≠ [] ∧ '\x00' ∉ entry)

include hne hentries

theorem parse_layout (rest : List Char) :
    parse (layout entries ++ rest)
      = if entries.filterMap define = [] then .error .empty
        else .ok (Dict.ofList (entries.filterMap define)) := by
  have hlong := two_lt_length_layout hne hentries rest
  have hcut : entriesOf (['\x00'].intercalate entries) = entries := by
    rw [entriesOf_eq_splitOn]
    exact List.splitOn_intercalate '\x00' (fun entry hentry ↦ (hentries entry hentry).2) hne
  rw [parse, if_neg (Nat.not_le.mpr hlong), beforeDoubleNul_layout hne hentries]
  simp only [List.reverse_nil, List.nil_append, hcut, Dict.isEmpty_ofList_iff]

theorem readAs_parse_layout (rest : List Char) :
    ReadAs entries (parse (layout entries ++ rest)) := by
  rw [parse_layout hne hentries]
  split
  · rename_i hnone
    exact ⟨iff_of_true rfl (forall_not_defines_iff.mp hnone), fun h ↦ absurd rfl h⟩
  · rename_i hsome
    refine ⟨iff_of_false (by simp) (mt forall_not_defines_iff.mpr hsome), fun _ ↦ ?_⟩
    exact ⟨_, rfl, fun name value ↦ get?_ofList_filterMap_define⟩

/-- **A block gives back what its entries define**, whatever lies behind it, and also if its bytes
are no UTF-8 and are read one by one. -/
theorem decode_layout (rest : List Char) :
    ReadAs entries (decode (Text.encode (layout entries) ++ Text.encode rest)) ∧
      ∀ bs : Bytes, (∀ text, bs ≠ Text.encode text) →
        Text.decodeLatin1 bs = layout entries ++ rest → ReadAs entries (decode bs) := by
  constructor
  · have htext : Text.decode? (Text.encode (layout entries ++ rest))
        = some (layout entries ++ rest) :=
      Text.decode?_eq_some_iff.mpr rfl
    rw [← Text.encode_append, decode, blockText, htext]
    exact readAs_parse_layout hne hentries rest
  · intro bs hbs hlatin
    have htext : Text.decode? bs = none := by
      rw [Option.eq_none_iff_forall_ne_some]
      intro text htext
      exact hbs text (Text.decode?_eq_some_iff.mp htext)
    rw [decode, blockText, htext, Option.getD_none, hlatin]
    exact readAs_parse_layout hne hentries rest

end Reading

/-- Entries of which two define the same name, one a name with an equals sign, and one nothing. -/
def mixedEntries : List (List Char) :=
  ["A=1".toList, "=C:=x".toList, "A=\xe9".toList, "junk".toList]

/-- The same block written in both ways, with more behind it. -/
theorem decode_layout_mixedEntries :
    ReadAs mixedEntries
        (decode (Text.encode (layout mixedEntries) ++ Text.encode "B=3".toList)) ∧
      ReadAs mixedEntries
        (decode ((layout mixedEntries ++ "B=3".toList).map (UInt8.ofNat ·.toNat))) := by
  have hread := @decode_layout mixedEntries (by decide) (by decide) "B=3".toList
  refine ⟨hread.1, hread.2 _ ?_ (by decide +kernel)⟩
  have hnone : Text.decode? ((layout mixedEntries ++ "B=3".toList).map (UInt8.ofNat ·.toNat))
      = none := by
    decide +kernel
  intro text htext
  rw [Text.decode?_eq_some_iff.mpr htext] at hnone
  cases hnone

end Environment

end ShellEngine
