import ShellEngine.Environment.Block
import ShellEngine.Environment.Variables
import Mathlib.Data.List.Basic
import Mathlib.Data.List.TakeWhile

/-!
# The variables that a block defines

Reading a block and setting a variable do not agree on what a name is. An entry of a block is cut at
its first equals sign, but one at the start of the entry belongs to the name. No variable of a
process may be given such a name, nor an empty one or one with a NUL in it. Entries hold no NUL and
define no empty name, so the equals sign at the start is the whole difference
(`Definable.validName_iff`).
-/

namespace ShellEngine

namespace Environment

/-! ## Entries of a block -/

theorem nul_not_mem_of_mem_entriesOf {cs entry : List Char} (h : entry ∈ entriesOf cs) :
    '\x00' ∉ entry := by
  suffices hgo : ∀ (found : List (List Char)) (current : List Char),
      (∀ e ∈ found, '\x00' ∉ e) → '\x00' ∉ current →
      ∀ e ∈ entriesOf.go found current cs, '\x00' ∉ e from
    hgo [] [] (by simp) (by simp) entry h
  clear h
  induction cs with
  | nil =>
    intro found current hfound hcurrent e he
    simp only [entriesOf.go, List.reverse_cons, List.mem_append, List.mem_reverse,
      List.mem_singleton] at he
    rcases he with he | rfl
    · exact hfound e he
    · simpa using hcurrent
  | cons c cs ih =>
    intro found current hfound hcurrent
    by_cases hc : c = '\x00'
    · subst hc
      exact ih _ [] (List.forall_mem_cons.mpr ⟨by simpa using hcurrent, hfound⟩) (by simp)
    · have hgo : entriesOf.go found current (c :: cs) = entriesOf.go found (c :: current) cs := by
        rw [entriesOf.go]
        simpa using hc
      rw [hgo]
      exact ih found _ hfound (by simp [hcurrent, Ne.symm hc])

theorem eq_append_of_splitEquals {cs name value : List Char}
    (h : splitEquals cs = some (name, value)) : cs = name ++ '=' :: value ∧ '=' ∉ name := by
  unfold splitEquals at h
  split at h
  · rename_i c rest hdrop
    obtain ⟨rfl, rfl⟩ := Prod.mk.inj (Option.some.inj h)
    have hc : c = '=' := by
      have hnot := List.head?_dropWhile_not (· != '=') cs
      simpa [hdrop] using hnot
    subst hc
    refine ⟨?_, fun hmem ↦ ?_⟩
    · rw [← hdrop, List.takeWhile_append_dropWhile]
    · simpa using List.mem_takeWhile_imp hmem
  · cases h

/-- What an entry defines. It is cut at its first equals sign, but one at its start belongs to the
name. -/
inductive Defines : List Char → String → String → Prop
  | plain {name value : List Char} (hname : name ≠ []) (hequals : '=' ∉ name) :
      Defines (name ++ '=' :: value) (String.ofList name) (String.ofList value)
  | leading {name value : List Char} (hequals : '=' ∉ name) :
      Defines ('=' :: name ++ '=' :: value) (String.ofList ('=' :: name)) (String.ofList value)

theorem splitEquals_append {name : List Char} (h : '=' ∉ name) (value : List Char) :
    splitEquals (name ++ '=' :: value) = some (name, value) := by
  have hname : ∀ c ∈ name, (c != '=') = true := fun c hc ↦
    bne_iff_ne.mpr fun heq ↦ h (heq ▸ hc)
  rw [splitEquals, List.dropWhile_append_of_pos hname, List.takeWhile_append_of_pos hname]
  simp

theorem define_eq_some_iff {entry : List Char} {name value : String} :
    define entry = some (name, value) ↔ Defines entry name value := by
  constructor
  · intro h
    unfold define at h
    split at h
    · rename_i rest hsplit
      obtain ⟨⟨n, v⟩, hrest, hpair⟩ := Option.map_eq_some_iff.mp h
      obtain ⟨rfl, rfl⟩ := Prod.mk.inj hpair
      obtain ⟨rfl, -⟩ := eq_append_of_splitEquals hsplit
      obtain ⟨rfl, hn⟩ := eq_append_of_splitEquals hrest
      exact .leading hn
    · rename_i n v hn hsplit
      obtain ⟨rfl, rfl⟩ := Prod.mk.inj (Option.some.inj h)
      obtain ⟨rfl, hequals⟩ := eq_append_of_splitEquals hsplit
      exact .plain hn hequals
    · cases h
  · rintro (⟨hname, hequals⟩ | hequals)
    · rename_i name value
      rw [define, splitEquals_append hequals]
      obtain ⟨c, cs, rfl⟩ := List.exists_cons_of_ne_nil hname
      rfl
    · rename_i name value
      have hsplit : splitEquals ('=' :: name ++ '=' :: value) = some ([], name ++ '=' :: value) :=
        @splitEquals_append [] List.not_mem_nil (name ++ '=' :: value)
      rw [define, hsplit]
      simp [splitEquals_append hequals]

/-- What an entry can define: the name is not empty and holds an equals sign at most at its start,
and no NUL is in it or in the value. -/
structure Definable (name value : String) : Prop where
  name_ne_nil : name.toList ≠ []
  equals : '=' ∉ name.toList.tail
  nul_name : '\x00' ∉ name.toList
  nul_value : '\x00' ∉ value.toList

theorem definable_of_define {entry : List Char} {name value : String}
    (hentry : '\x00' ∉ entry) (h : define entry = some (name, value)) : Definable name value := by
  cases define_eq_some_iff.mp h with
  | @plain name value hname hequals =>
    simp only [List.mem_append, List.mem_cons, not_or] at hentry
    refine ⟨?_, ?_, by simpa using hentry.1, by simpa using hentry.2.2⟩
    · rintro hnil
      rw [String.toList_ofList] at hnil
      exact hname hnil
    · rw [String.toList_ofList]
      exact fun hmem ↦ hequals (List.mem_of_mem_tail hmem)
  | leading hequals =>
    simp only [List.mem_cons, List.cons_append, List.mem_append, not_or] at hentry
    refine ⟨by simp, by simpa using hequals, ?_, by simpa using hentry.2.2.2⟩
    simpa using hentry.2.1

/-- A block that was read holds nothing but what an entry can define. -/
theorem definable_of_parse {text : List Char} {block : Dict} (h : parse text = .ok block)
    {name value : String} (hvalue : block.get? name = some value) : Definable name value := by
  unfold parse at h
  split at h
  · cases h
  · split at h
    · cases h
    · dsimp only at h
      split at h
      · cases h
      · rw [← Except.ok.inj h, ← Dict.mem_entries_iff] at hvalue
        obtain ⟨entry, hentry, hdefine⟩ := List.mem_filterMap.mp (Dict.mem_of_mem_ofList hvalue)
        exact definable_of_define (nul_not_mem_of_mem_entriesOf hentry) hdefine

theorem Definable.isEmpty_name {name value : String} (h : Definable name value) :
    name.isEmpty = false := by
  rw [← Bool.not_eq_true, String.isEmpty_iff]
  rintro rfl
  exact h.name_ne_nil rfl

/-- Of the names that an entry can define, a process can have all but those that begin with an
equals sign. -/
theorem Definable.validName_iff {name value : String} (h : Definable name value) :
    Variables.validName name = true ↔ name.toList.head? ≠ some '=' := by
  obtain ⟨c, cs, hname⟩ := List.exists_cons_of_ne_nil h.name_ne_nil
  have hequals := h.equals
  have hnul := h.nul_name
  simp only [hname, List.tail_cons] at hequals hnul
  have hvalid : Variables.validName name = !(c :: cs).contains '=' := by
    simp [Variables.validName, h.isEmpty_name, hname, hnul]
  rw [hvalid, hname, List.head?_cons, ne_eq, Option.some.injEq]
  by_cases hc : c = '='
  · simp [hc]
  · simp [hc, Ne.symm hc, hequals]

end Environment

end ShellEngine
