import ShellEngine.Environment.Variables
import ShellEngine.Proofs.Environment.Definitions
import Mathlib.Data.List.Induction

/-!
# Making a block the environment

The environment of a process is read through one view, the values of a name in the order in which
they stand (`Variables.values`): the first of them is the one that is looked up, the last one shows
in a capture. Setting a name replaces the first value, and removing a name leaves none.

Applying a block crashes where it meets a name that no process may set or remove. Blocks that were
read hold such names, those that begin with an equals sign. Without a crash every name of the block
gets its value in the first place (`values_apply`). What is left in a later place, of a name that
the process was started with more than once, is not touched.
-/

namespace ShellEngine

namespace Variables

/-! ## The values of a name -/

def values (v : Variables) (name : String) : List String :=
  (v.entries.filter (·.1 == name)).map (·.2)

theorem get?_eq_head? (v : Variables) (name : String) : v.get? name = (v.values name).head? := by
  obtain ⟨entries⟩ := v
  unfold get? values
  induction entries with
  | nil => rfl
  | cons e entries ih =>
    rw [List.lookup_cons, List.filter_cons, BEq.comm]
    split
    · rename_i h
      simp [h]
    · rename_i h
      simp [h, ih]

theorem get?_capture (v : Variables) (name : String) :
    v.capture.get? name = (v.values name).getLast? := by
  obtain ⟨entries⟩ := v
  unfold capture values
  induction entries using List.reverseRecOn with
  | nil => rfl
  | append_singleton entries e ih =>
    rw [Dict.get?_ofList_concat, ih, List.filter_append, List.map_append]
    by_cases h : name = e.1
    · subst h
      simp
    · simp [h, Ne.symm h]

theorem values_put (v : Variables) (name value key : String) :
    (v.put name value).values key
      = if key = name then value :: (v.values name).tail else v.values key := by
  obtain ⟨entries⟩ := v
  unfold put values
  induction entries with
  | nil =>
    by_cases h : key = name
    · simp [put.place, h]
    · simp [put.place, h, Ne.symm h]
  | cons e entries ih =>
    by_cases he : e.1 = name
    · by_cases h : key = name
      · simp [put.place, he, h]
      · simp [put.place, he, h, Ne.symm h]
    · by_cases h : key = name
      · subst h
        simpa [put.place, he] using ih
      · by_cases hkey : e.1 = key
        · simpa [put.place, he, hkey, h] using ih
        · simpa [put.place, he, hkey, h] using ih

theorem values_drop (v : Variables) (name key : String) :
    (v.drop name).values key = if key = name then [] else v.values key := by
  unfold drop values
  rw [List.filter_filter]
  by_cases h : key = name
  · subst h
    simp
  · rw [if_neg h]
    congr 1
    refine List.filter_congr fun e _ ↦ ?_
    by_cases he : e.1 = key
    · simp [he, h]
    · simp [he]

/-! ## One change after the other -/

theorem change_cons_of_ok {f : Variables → Except Crash Variables} {v w : Variables}
    (h : f v = .ok w) (fs : List (Variables → Except Crash Variables)) :
    v.change (f :: fs) = w.change fs := by
  rw [change, h]

theorem change_cons_of_error {f : Variables → Except Crash Variables} {v : Variables} {e : Crash}
    (h : f v = .error e) (fs : List (Variables → Except Crash Variables)) :
    v.change (f :: fs) = (some e, v) := by
  rw [change, h]

theorem change_append (v : Variables) (fs gs : List (Variables → Except Crash Variables)) :
    v.change (fs ++ gs)
      = match v.change fs with
        | (none, w) => w.change gs
        | (some e, w) => (some e, w) := by
  induction fs generalizing v with
  | nil => rfl
  | cons f fs ih =>
    cases hf : f v with
    | ok w => rw [List.cons_append, change_cons_of_ok hf, change_cons_of_ok hf, ih]
    | error e => rw [List.cons_append, change_cons_of_error hf, change_cons_of_error hf]

/-! ## Removing -/

/-- A removal takes all values of a name that the block lacks, and crashes if no process may have
the name. -/
theorem removal_cases (block : Dict) (e : String × String) (v : Variables) :
    (∃ w, removal block e v = .ok w ∧ (block.get? e.1 = none → validName e.1 = true) ∧
        ∀ name, w.values name
          = if name = e.1 ∧ block.get? name = none then [] else v.values name) ∨
      block.get? e.1 = none ∧ validName e.1 = false ∧ ∃ c, removal block e v = .error c := by
  unfold removal remove Dict.contains
  cases hblock : block.get? e.1 with
  | some value =>
    refine Or.inl ⟨v, by simp, by simp, fun name ↦ (if_neg ?_).symm⟩
    rintro ⟨rfl, hname⟩
    rw [hblock] at hname
    cases hname
  | none =>
    cases hvalid : validName e.1 with
    | true =>
      refine Or.inl ⟨v.drop e.1, by simp, by simp, fun name ↦ ?_⟩
      rw [values_drop]
      by_cases hname : name = e.1
      · simp [hname, hblock]
      · simp [hname]
    | false => exact Or.inr ⟨rfl, rfl, .variableName e.1, by simp⟩

theorem change_removal_eq_none_iff (block : Dict) (es : List (String × String)) (v : Variables) :
    (v.change (es.map (removal block))).1 = none ↔
      ∀ e ∈ es, block.get? e.1 = none → validName e.1 = true := by
  induction es generalizing v with
  | nil => simp [change]
  | cons e es ih =>
    rw [List.map_cons, List.forall_mem_cons]
    rcases removal_cases block e v with ⟨w, hw, hvalid, -⟩ | ⟨hblock, hvalid, c, hc⟩
    · rw [change_cons_of_ok hw, ih]
      exact (and_iff_right hvalid).symm
    · rw [change_cons_of_error hc]
      simp [hblock, hvalid]

theorem values_change_removal {block : Dict} {es : List (String × String)} {v w : Variables}
    (h : v.change (es.map (removal block)) = (none, w)) (name : String) :
    w.values name
      = if name ∈ es.map (·.1) ∧ block.get? name = none then [] else v.values name := by
  induction es generalizing v with
  | nil =>
    obtain ⟨-, rfl⟩ := Prod.mk.inj h
    simp
  | cons e es ih =>
    rw [List.map_cons] at h
    rcases removal_cases block e v with ⟨u, hu, -, hvalues⟩ | ⟨-, -, c, hc⟩
    · rw [change_cons_of_ok hu] at h
      rw [ih h, hvalues]
      simp only [List.map_cons, List.mem_cons]
      by_cases hblock : block.get? name = none
      · grind
      · simp only [hblock, and_false, if_false]
    · rw [change_cons_of_error hc] at h
      cases h

/-! ## Setting -/

open Environment (Definable)

/-- A variable that an entry can define is set, unless it has the value already, in the place of
the first value; that crashes if no process may have the name. -/
theorem setting_cases {e : String × String} (he : Definable e.1 e.2) (v : Variables) :
    (∃ w, setting e v = .ok w ∧ (validName e.1 = true ∨ v.get? e.1 = some e.2) ∧
        ∀ name, w.values name
          = if name = e.1 then e.2 :: (v.values e.1).tail else v.values name) ∨
      (validName e.1 = false ∧ v.get? e.1 ≠ some e.2) ∧ ∃ c, setting e v = .error c := by
  have hvalue : validValue e.2 = true := by simp [validValue, he.nul_value]
  have hskip : (e.1.isEmpty || e.1.toList.contains '\x00' || !validValue e.2) = false := by
    simp [hvalue, he.isEmpty_name, he.nul_name]
  unfold setting set
  rw [hskip]
  by_cases hget : v.get? e.1 = some e.2
  · refine Or.inl ⟨v, by simp [hget], Or.inr hget, fun name ↦ ?_⟩
    split
    · rename_i hname
      rw [get?_eq_head?] at hget
      rw [hname, ← List.eq_cons_of_mem_head? hget]
    · rfl
  · cases hvalid : validName e.1 with
    | true => exact Or.inl ⟨v.put e.1 e.2, by simp [hget, hvalue], by simp, values_put v e.1 e.2⟩
    | false => exact Or.inr ⟨⟨rfl, hget⟩, .variableName e.1, by simp [hget]⟩

theorem get?_of_values {v w : Variables} {name : String} (h : w.values name = v.values name) :
    w.get? name = v.get? name := by
  rw [get?_eq_head?, get?_eq_head?, h]

/-- Settings of different names end without a crash when each of them may be made or needs not be
made. -/
theorem change_setting_eq_none_iff {es : List (String × String)}
    (hdistinct : es.Pairwise fun a b ↦ a.1 ≠ b.1) (hes : ∀ e ∈ es, Definable e.1 e.2)
    (v : Variables) :
    (v.change (es.map setting)).1 = none ↔
      ∀ e ∈ es, validName e.1 = true ∨ v.get? e.1 = some e.2 := by
  induction es generalizing v with
  | nil => simp [change]
  | cons e es ih =>
    obtain ⟨hne, hdistinct⟩ := List.pairwise_cons.mp hdistinct
    obtain ⟨he, hes⟩ := List.forall_mem_cons.mp hes
    rw [List.map_cons, List.forall_mem_cons]
    rcases setting_cases he v with ⟨w, hw, hvalid, hvalues⟩ | ⟨⟨hvalid, hget⟩, c, hc⟩
    · rw [change_cons_of_ok hw, ih hdistinct hes, and_iff_right hvalid]
      refine forall₂_congr fun d hd ↦ ?_
      rw [get?_of_values ((hvalues d.1).trans (if_neg (Ne.symm (hne d hd))))]
    · rw [change_cons_of_error hc]
      simp [hvalid, hget]

theorem values_change_setting {es : List (String × String)}
    (hdistinct : es.Pairwise fun a b ↦ a.1 ≠ b.1) (hes : ∀ e ∈ es, Definable e.1 e.2)
    {v w : Variables} (h : v.change (es.map setting) = (none, w)) :
    (∀ e ∈ es, w.values e.1 = e.2 :: (v.values e.1).tail) ∧
      ∀ name ∉ es.map (·.1), w.values name = v.values name := by
  induction es generalizing v with
  | nil =>
    obtain ⟨-, rfl⟩ := Prod.mk.inj h
    simp
  | cons e es ih =>
    obtain ⟨hne, hdistinct⟩ := List.pairwise_cons.mp hdistinct
    obtain ⟨he, hes⟩ := List.forall_mem_cons.mp hes
    rw [List.map_cons] at h
    rcases setting_cases he v with ⟨u, hu, -, hvalues⟩ | ⟨-, c, hc⟩
    · rw [change_cons_of_ok hu] at h
      obtain ⟨hset, hkept⟩ := ih hdistinct hes h
      refine ⟨List.forall_mem_cons.mpr ⟨?_, fun d hd ↦ ?_⟩, fun name hname ↦ ?_⟩
      · have hlater : e.1 ∉ es.map (·.1) := by
          rw [List.mem_map]
          rintro ⟨d, hd, hsame⟩
          exact hne d hd hsame.symm
        rw [hkept e.1 hlater, hvalues, if_pos rfl]
      · rw [hset d hd, hvalues, if_neg (Ne.symm (hne d hd))]
      · rw [List.map_cons, List.mem_cons, not_or] at hname
        rw [hkept name hname.2, hvalues, if_neg hname.1]
    · rw [change_cons_of_error hc] at h
      cases h

/-! ## Applying a block -/

section apply

variable {text : List Char} {block : Dict} {v w : Variables}

theorem pairwise_entries (block : Dict) : block.entries.Pairwise fun a b ↦ a.1 ≠ b.1 :=
  block.ascending.imp fun hlt ↦ Std.ne_of_lt hlt

theorem definable_of_mem_entries (h : Environment.parse text = .ok block) :
    ∀ e ∈ block.entries, Definable e.1 e.2 :=
  fun _ he ↦ Environment.definable_of_parse h (Dict.mem_entries_iff.mp he)

theorem values_eq_nil {name : String} (h : name ∉ v.entries.map (·.1)) : v.values name = [] := by
  rw [values, List.map_eq_nil_iff, List.filter_eq_nil_iff]
  intro e he hname
  exact h (List.mem_map.mpr ⟨e, he, eq_of_beq hname⟩)

/-- What is left once the names that the block lacks are removed. -/
theorem values_of_removed (h : v.change (v.entries.map (removal block)) = (none, w))
    (name : String) : w.values name = if block.get? name = none then [] else v.values name := by
  rw [values_change_removal h]
  by_cases hname : name ∈ v.entries.map (·.1)
  · simp [hname]
  · simp [values_eq_nil hname]

/-- A block ends without a crash when no removal and no setting crashes. -/
theorem apply_eq_none_iff (h : Environment.parse text = .ok block) :
    (v.apply block).1 = none ↔
      (∀ e ∈ v.entries, block.get? e.1 = none → validName e.1 = true) ∧
      ∀ e ∈ block.entries, validName e.1 = true ∨ v.get? e.1 = some e.2 := by
  rw [apply, change_append, ← change_removal_eq_none_iff]
  -- whether a setting crashes is told by the values before the removals, which keep those it needs
  rcases hremoved : v.change (v.entries.map (removal block)) with ⟨_ | c, u⟩
  · dsimp only
    rw [change_setting_eq_none_iff (pairwise_entries block) (definable_of_mem_entries h),
      and_iff_right rfl]
    refine forall₂_congr fun e he ↦ ?_
    have hkept : u.values e.1 = v.values e.1 := by
      rw [values_of_removed hremoved, if_neg]
      rw [Dict.mem_entries_iff.mp he]
      exact Option.some_ne_none _
    rw [get?_of_values hkept]
  · simp

/-- **What applying a block leaves behind**: of a name that the block lacks nothing, and of the
others the value in the first place. -/
theorem values_apply (h : Environment.parse text = .ok block) (happly : v.apply block = (none, w))
    (name : String) :
    w.values name = match block.get? name with
      | some value => value :: (v.values name).tail
      | none => [] := by
  rw [apply, change_append] at happly
  rcases hremoved : v.change (v.entries.map (removal block)) with ⟨_ | c, u⟩
  · rw [hremoved] at happly
    obtain ⟨hset, hkept⟩ := values_change_setting (pairwise_entries block)
      (definable_of_mem_entries h) happly
    cases hname : block.get? name with
    | some value =>
      rw [hset (name, value) (Dict.mem_entries_iff.mpr hname), values_of_removed hremoved,
        if_neg (by simp [hname])]
    | none =>
      have hlacks : name ∉ block.entries.map (·.1) := by
        rw [List.mem_map]
        rintro ⟨⟨n, value⟩, he, rfl⟩
        rw [Dict.mem_entries_iff.mp he] at hname
        cases hname
      rw [hkept name hlacks, values_of_removed hremoved, if_pos hname]
  · rw [hremoved] at happly
    cases happly

/-- Where a block is applied without a crash, the environment is the block but for what stands in
later places. -/
theorem capture_apply_iff (h : Environment.parse text = .ok block)
    (hnone : (v.apply block).1 = none) :
    (v.apply block).2.capture = block ↔ ∀ name value, block.get? name = some value →
      ∀ last ∈ (v.values name).tail.getLast?, last = value := by
  have hvalues := values_apply h (Prod.ext hnone rfl)
  have hname (name value : String) (hvalue : block.get? name = some value) :
      (v.apply block).2.capture.get? name = some value ↔
        ∀ last ∈ (v.values name).tail.getLast?, last = value := by
    rw [get?_capture, hvalues, hvalue]
    dsimp only
    rw [List.getLast?_cons]
    cases (v.values name).tail.getLast? <;> simp
  constructor
  · intro hsame name value hvalue
    rw [← hname name value hvalue, hsame, hvalue]
  · intro hlast
    refine Dict.ext_get? fun name ↦ ?_
    cases hvalue : block.get? name with
    | some value => exact (hname name value hvalue).mpr (hlast name value hvalue)
    | none =>
      rw [get?_capture, hvalues, hvalue]
      rfl

/-- What a block asks of the environment that is to become it. -/
structure Yields (v : Variables) (block : Dict) : Prop where
  /-- What the block lacks may be removed. -/
  removable : ∀ e ∈ v.entries, block.get? e.1 = none → validName e.1 = true
  /-- A name of the block that begins with an equals sign has its value already. -/
  settable : ∀ name value, block.get? name = some value → name.toList.head? = some '=' →
    v.get? name = some value
  /-- Of a name of the block that stands more than once, the last value is that of the block. -/
  single : ∀ name value, block.get? name = some value →
    ∀ last ∈ (v.values name).tail.getLast?, last = value

/-- **A block that was read becomes the environment**, without a crash and exactly, if and only if
the environment yields to it. -/
theorem apply_installs_iff (h : Environment.parse text = .ok block) (v : Variables) :
    (v.apply block).1 = none ∧ (v.apply block).2.capture = block ↔ v.Yields block := by
  have hsettable : (∀ e ∈ block.entries, validName e.1 = true ∨ v.get? e.1 = some e.2) ↔
      ∀ name value, block.get? name = some value → name.toList.head? = some '=' →
        v.get? name = some value := by
    constructor
    · intro hset name value hvalue hequals
      have hdefinable := Environment.definable_of_parse h hvalue
      refine (hset (name, value) (Dict.mem_entries_iff.mpr hvalue)).resolve_left fun hvalid ↦ ?_
      exact hdefinable.validName_iff.mp hvalid hequals
    · intro hset e he
      rw [or_iff_not_imp_left, (definable_of_mem_entries h e he).validName_iff, not_not]
      exact hset e.1 e.2 (Dict.mem_entries_iff.mp he)
  constructor
  · rintro ⟨hnone, hsame⟩
    obtain ⟨hremovable, hset⟩ := (apply_eq_none_iff h).mp hnone
    exact ⟨hremovable, hsettable.mp hset, (capture_apply_iff h hnone).mp hsame⟩
  · intro hyields
    have hnone := (apply_eq_none_iff h).mpr ⟨hyields.removable, hsettable.mpr hyields.settable⟩
    exact ⟨hnone, (capture_apply_iff h hnone).mpr hyields.single⟩

/-- An environment that holds the name with the equals sign already, and one name twice. -/
def startedTwice : Variables := ⟨[("=C:", "x"), ("A", "0"), ("B", "2"), ("A", "1")]⟩

/-- A name that could not be set is kept, one is removed, and the second value of one happens to be
right. -/
theorem apply_installs_of_startedTwice :
    Environment.parse "A=1\x00=C:=x\x00\x00".toList = .ok (Dict.ofList [("A", "1"), ("=C:", "x")]) ∧
      (startedTwice.apply (Dict.ofList [("A", "1"), ("=C:", "x")])).1 = none ∧
      (startedTwice.apply (Dict.ofList [("A", "1"), ("=C:", "x")])).2.capture
        = Dict.ofList [("A", "1"), ("=C:", "x")] := by
  have hparse : Environment.parse "A=1\x00=C:=x\x00\x00".toList
      = .ok (Dict.ofList [("A", "1"), ("=C:", "x")]) := by
    decide +kernel
  have hcases {name value : String}
      (h : (Dict.ofList [("A", "1"), ("=C:", "x")]).get? name = some value) :
      name = "=C:" ∧ value = "x" ∨ name = "A" ∧ value = "1" := by
    have hentries : (Dict.ofList [("A", "1"), ("=C:", "x")]).entries
        = [("=C:", "x"), ("A", "1")] := by
      decide +kernel
    rw [← Dict.mem_entries_iff, hentries] at h
    simpa using h
  refine ⟨hparse, (apply_installs_iff hparse startedTwice).mpr ⟨by decide +kernel, ?_, ?_⟩⟩
  · intro name value hvalue hequals
    rcases hcases hvalue with ⟨rfl, rfl⟩ | ⟨rfl, rfl⟩
    · rfl
    · simp at hequals
  · intro name value hvalue
    rcases hcases hvalue with ⟨rfl, rfl⟩ | ⟨rfl, rfl⟩ <;> decide +kernel

/-- A name that begins with an equals sign is read, and no process can be given it. -/
theorem apply_crashes_of_leading_equals :
    Environment.parse "=C:=C:\\dir\x00A=1\x00\x00".toList
        = .ok (Dict.ofList [("=C:", "C:\\dir"), ("A", "1")]) ∧
      (apply ⟨[("PATH", "/bin")]⟩ (Dict.ofList [("=C:", "C:\\dir"), ("A", "1")])).1
        = some (.variableName "=C:") := by
  constructor <;> decide +kernel

end apply

end Variables

end ShellEngine
