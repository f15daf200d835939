import ShellEngine.Environment.Aliases

/-!
# What a merge does to a table of aliases

A merge goes through the definitions of one snapshot and then through the names of the other, and
changes the table at each of them. What comes of it is said name by name (`get?_merge`): a name that
the snapshots agree on is what it was in the table, and any other is what it is in the later
snapshot. A table is settled by its look-ups, so everything else about merges is a matter of
comparing the three texts that a name has.
-/

namespace ShellEngine

namespace Dict

theorem get?_foldl_erase (names : List String) (d : Dict) (name : String) :
    (names.foldl erase d).get? name = if name ∈ names then none else d.get? name := by
  induction names generalizing d with
  | nil => simp
  | cons first names ih =>
    rw [List.foldl_cons, ih, get?_erase]
    by_cases hmem : name ∈ names
    · simp [hmem]
    · by_cases hfirst : name = first <;> simp [hmem, hfirst]

theorem mem_names_iff {d : Dict} {name : String} : name ∈ d.names ↔ (d.get? name).isSome := by
  rw [Option.isSome_iff_exists, names, List.mem_map]
  constructor
  · rintro ⟨⟨n, value⟩, hmem, rfl⟩
    exact ⟨value, mem_entries_iff.mp hmem⟩
  · rintro ⟨value, hvalue⟩
    exact ⟨(name, value), mem_entries_iff.mpr hvalue, rfl⟩

end Dict

namespace Aliases

/-! ## The two passes -/

/-- What becomes of a table when a definition is new or different. -/
def takeOver (before table : Aliases) (definition : String × String) : Aliases :=
  if before.get? definition.1 = some definition.2 then table
  else table.insert definition.1 definition.2

theorem get?_takeOver (before table : Aliases) (definition : String × String) (name : String) :
    (takeOver before table definition).get? name
      = if name = definition.1 ∧ before.get? name ≠ some definition.2 then some definition.2
        else table.get? name := by
  unfold takeOver
  by_cases hname : name = definition.1
  · subst hname
    by_cases hsame : before.get? definition.1 = some definition.2 <;> simp [hsame]
  · by_cases hsame : before.get? definition.1 = some definition.2 <;> simp [hsame, hname]

/-- The definitions are of different names, so each name is taken over once at most. -/
theorem get?_foldl_takeOver (before : Aliases) {definitions : List (String × String)}
    (h : Ascending definitions) (table : Aliases) (name : String) :
    (definitions.foldl (takeOver before) table).get? name
      = match Dict.lookup name definitions with
        | some value => if before.get? name = some value then table.get? name else some value
        | none => table.get? name := by
  induction definitions generalizing table with
  | nil => rfl
  | cons definition definitions ih =>
    obtain ⟨hlt, h⟩ := List.pairwise_cons.mp h
    rw [List.foldl_cons, ih h, get?_takeOver, Dict.lookup]
    by_cases hname : definition.1 = name
    · subst hname
      rw [Dict.lookup_eq_none_of_lt hlt]
      simp
    · simp [hname, Ne.symm hname]

/-- The law of a merge: what the snapshots agree on is left alone. -/
theorem get?_merge (table before after : Aliases) (name : String) :
    (merge table before after).get? name
      = if before.get? name = after.get? name then table.get? name else after.get? name := by
  have hlookup : Dict.lookup name after.entries = after.get? name := rfl
  have hupdated := get?_foldl_takeOver before after.ascending table name
  have hgone : name ∈ before.names.filter (fun name ↦ !after.contains name) ↔
      (before.get? name).isSome ∧ after.get? name = none := by
    simp [Dict.mem_names_iff, Dict.contains]
  calc (merge table before after).get? name
      = if name ∈ before.names.filter (fun name ↦ !after.contains name) then none
        else (after.entries.foldl (takeOver before) table).get? name :=
        Dict.get?_foldl_erase _ _ name
    _ = if before.get? name = after.get? name then table.get? name else after.get? name := by
        simp only [hgone, hupdated, hlookup]
        -- one pass sees the name if it is in the later snapshot, the other if it is in no other
        cases after.get? name <;> cases before.get? name <;> simp

/-! ## Merges as operations on tables -/

theorem merge_from_before (before after : Aliases) : merge before before after = after := by
  refine Dict.ext_get? fun name ↦ ?_
  rw [get?_merge]
  split
  · assumption
  · rfl

theorem merge_unchanged (table snapshot : Aliases) : merge table snapshot snapshot = table :=
  Dict.ext_get? fun name ↦ by rw [get?_merge, if_pos rfl]

theorem merge_merge_same (table before after : Aliases) :
    merge (merge table before after) before after = merge table before after := by
  refine Dict.ext_get? fun name ↦ ?_
  simp only [get?_merge]
  split <;> rfl

theorem merge_comm_of_disjoint {before after before' after' : Aliases}
    (h : ∀ name, before.get? name = after.get? name ∨ before'.get? name = after'.get? name)
    (table : Aliases) :
    merge (merge table before after) before' after'
      = merge (merge table before' after') before after := by
  refine Dict.ext_get? fun name ↦ ?_
  simp only [get?_merge]
  obtain hname | hname := h name
  · simp only [if_pos hname]
  · simp only [if_pos hname]

/-- **Three-way merges.** A name that differs between the snapshots comes out as it is in the later
one, and any other as it was in the table. So a merge leads from the one snapshot to the other, does
nothing if they are equal, does nothing more when it is made again, and may be made before or after
a merge of other names. -/
theorem merge_three_way :
    (∀ (table before after : Aliases) name, (merge table before after).get? name
      = if before.get? name ≠ after.get? name then after.get? name else table.get? name) ∧
    (∀ before after : Aliases, merge before before after = after) ∧
    (∀ table snapshot : Aliases, merge table snapshot snapshot = table) ∧
    (∀ table before after : Aliases,
      merge (merge table before after) before after = merge table before after) ∧
    (∀ table before after before' after' : Aliases,
      (∀ name, ¬ (before.get? name ≠ after.get? name ∧ before'.get? name ≠ after'.get? name)) →
      merge (merge table before after) before' after'
        = merge (merge table before' after') before after) := by
  refine ⟨fun table before after name ↦ ?_, merge_from_before, merge_unchanged, merge_merge_same,
    fun table before after before' after' hdisjoint ↦ merge_comm_of_disjoint (fun name ↦ ?_) table⟩
  · rw [get?_merge, ite_not]
  · by_cases hname : before.get? name = after.get? name
    · exact .inl hname
    · exact .inr (Decidable.not_not.mp fun hname' ↦ hdisjoint name ⟨hname, hname'⟩)

/-- One script redefines a name and another one drops a name. -/
theorem merge_three_way_of_two_scripts :
    let redefine (table : Aliases) := merge table (Dict.insert ∅ "l" "ls") (Dict.insert ∅ "l" "ls -l")
    let drop (table : Aliases) := merge table (Dict.insert ∅ "g" "grep") ∅
    let table : Aliases := ((Dict.insert ∅ "g" "grep -n").insert "l" "ls").insert "v" "vi"
    drop (redefine table) = redefine (drop table) := by
  refine merge_three_way.2.2.2.2 _ _ _ _ _ fun name ⟨hl, hg⟩ ↦ ?_
  simp only [Dict.get?_insert, Dict.get?_empty] at hl hg
  obtain rfl : name = "l" := Decidable.not_not.mp fun hne ↦ hl (by rw [if_neg hne, if_neg hne])
  exact absurd hg (by decide)

end Aliases

end ShellEngine
