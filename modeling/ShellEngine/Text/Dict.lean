/-!
# Dictionaries

Finite maps from names to texts, held as a list in strictly increasing order of names. The order is
part of the type, so two dictionaries with the same look-ups are equal (`Dict.ext_get?`), and a
listing needs no sorting.
-/

namespace ShellEngine

/-- Entries in strictly increasing order of their names. -/
def Ascending (entries : List (String × String)) : Prop :=
  entries.Pairwise fun a b ↦ a.1 < b.1

/-- A finite map from names to texts. -/
structure Dict where
  entries : List (String × String)
  ascending : Ascending entries

namespace Dict

/-! ## Operations on entries -/

/-- The text of a name. -/
def lookup (name : String) : List (String × String) → Option String
  | [] => none
  | (n, v) :: rest => if n = name then some v else lookup name rest

/-- Puts an entry in its place, over the entry of the same name if there is one. -/
def place (name value : String) : List (String × String) → List (String × String)
  | [] => [(name, value)]
  | (n, v) :: rest =>
    if name = n then (name, value) :: rest
    else if name < n then (name, value) :: (n, v) :: rest
    else (n, v) :: place name value rest

theorem mem_place {name value : String} {e : String × String} {es : List (String × String)}
    (h : e ∈ place name value es) : e = (name, value) ∨ e ∈ es := by
  induction es with
  | nil => simpa [place] using h
  | cons x rest ih =>
    obtain ⟨n, v⟩ := x
    simp only [place] at h
    split at h
    · grind
    · split at h
      · grind
      · grind

theorem ascending_place (name value : String) {es : List (String × String)} (h : Ascending es) :
    Ascending (place name value es) := by
  induction es with
  | nil => simp [place, Ascending]
  | cons x rest ih =>
    obtain ⟨n, v⟩ := x
    simp only [Ascending, List.pairwise_cons] at h
    obtain ⟨hx, hr⟩ := h
    simp only [place]
    split
    · next heq =>
      subst heq
      exact List.pairwise_cons.2 ⟨hx, hr⟩
    · next hne =>
      split
      · next hlt =>
        refine List.pairwise_cons.2 ⟨fun e he ↦ ?_, List.pairwise_cons.2 ⟨hx, hr⟩⟩
        rcases List.mem_cons.1 he with rfl | he
        · exact hlt
        · exact String.lt_trans hlt (hx e he)
      · next hge =>
        refine List.pairwise_cons.2 ⟨fun e he ↦ ?_, ih hr⟩
        rcases mem_place he with rfl | he
        · exact Std.lt_of_le_of_ne (Std.not_lt.1 hge) (Ne.symm hne)
        · exact hx e he

theorem ascending_filter (p : String × String → Bool) {es : List (String × String)}
    (h : Ascending es) : Ascending (es.filter p) :=
  List.Pairwise.filter p h

theorem lookup_place (name value key : String) (es : List (String × String)) :
    lookup key (place name value es) = if key = name then some value else lookup key es := by
  induction es with
  | nil => simp [place, lookup, eq_comm]
  | cons x rest ih =>
    obtain ⟨n, v⟩ := x
    simp only [place]
    split
    · next heq => subst heq; by_cases hk : key = name <;> grind [lookup]
    · split
      · by_cases hk : key = name <;> grind [lookup]
      · simp only [lookup, ih]
        by_cases hk : key = name
        · subst hk
          simp [Ne.symm (by assumption : ¬ key = n)]
        · simp [hk]

/-! ## Operations on dictionaries -/

def empty : Dict := ⟨[], List.Pairwise.nil⟩

/-- The text of a name. -/
def get? (d : Dict) (name : String) : Option String := lookup name d.entries

/-- Gives a name its text. -/
def insert (d : Dict) (name value : String) : Dict :=
  ⟨place name value d.entries, ascending_place name value d.ascending⟩

/-- Forgets a name. -/
def erase (d : Dict) (name : String) : Dict :=
  ⟨d.entries.filter (·.1 ≠ name), ascending_filter _ d.ascending⟩

/-- The dictionary of some entries, the last one of a name winning. -/
def ofList (entries : List (String × String)) : Dict :=
  entries.foldl (fun d e ↦ d.insert e.1 e.2) empty

def names (d : Dict) : List String := d.entries.map (·.1)

def size (d : Dict) : Nat := d.entries.length

def contains (d : Dict) (name : String) : Bool := (d.get? name).isSome

instance : EmptyCollection Dict := ⟨empty⟩
instance : Inhabited Dict := ⟨empty⟩
instance : DecidableEq Dict := fun a b ↦
  decidable_of_iff (a.entries = b.entries)
    ⟨fun h ↦ by cases a; cases b; simp_all, fun h ↦ h ▸ rfl⟩

@[simp] theorem get?_empty (name : String) : (∅ : Dict).get? name = none := rfl

@[simp] theorem get?_insert (d : Dict) (name value key : String) :
    (d.insert name value).get? key = if key = name then some value else d.get? key :=
  lookup_place name value key d.entries

@[simp] theorem get?_erase (d : Dict) (name key : String) :
    (d.erase name).get? key = if key = name then none else d.get? key := by
  simp only [get?, erase]
  induction d.entries with
  | nil => simp [lookup]
  | cons x rest ih =>
    obtain ⟨n, v⟩ := x
    by_cases hn : n = name <;> by_cases hk : key = name <;> by_cases hnk : n = key <;>
      simp_all [lookup]

theorem lookup_eq_none_of_lt {name : String} {es : List (String × String)}
    (h : ∀ e ∈ es, name < e.1) : lookup name es = none := by
  induction es with
  | nil => rfl
  | cons x rest ih =>
    obtain ⟨n, v⟩ := x
    have hn : n ≠ name := fun e ↦ String.lt_irrefl name (e ▸ h (n, v) List.mem_cons_self)
    simp [lookup, hn, ih fun e he ↦ h e (List.mem_cons_of_mem _ he)]

/-- Entries in order are settled by their look-ups. -/
theorem entries_ext {as bs : List (String × String)} (ha : Ascending as) (hb : Ascending bs)
    (h : ∀ name, lookup name as = lookup name bs) : as = bs := by
  induction as generalizing bs with
  | nil =>
    cases bs with
    | nil => rfl
    | cons y _ => exact absurd (h y.1) (by simp [lookup])
  | cons x rest ih =>
    obtain ⟨n, v⟩ := x
    have hx := List.pairwise_cons.1 ha
    cases bs with
    | nil => exact absurd (h n) (by simp [lookup])
    | cons y tail =>
      obtain ⟨m, w⟩ := y
      have hy := List.pairwise_cons.1 hb
      have hnm : n = m := by
        rcases Std.lt_trichotomy n m with hlt | heq | hlt
        · have hn := h n
          rw [@lookup_eq_none_of_lt n ((m, w) :: tail) fun e he ↦ by
            rcases List.mem_cons.1 he with rfl | he
            · exact hlt
            · exact String.lt_trans hlt (hy.1 e he)] at hn
          simp [lookup] at hn
        · exact heq
        · have hm := h m
          rw [@lookup_eq_none_of_lt m ((n, v) :: rest) fun e he ↦ by
            rcases List.mem_cons.1 he with rfl | he
            · exact hlt
            · exact String.lt_trans hlt (hx.1 e he)] at hm
          simp [lookup] at hm
      subst hnm
      have hvw : v = w := by simpa [lookup] using h n
      subst hvw
      refine congrArg _ (ih hx.2 hy.2 fun name ↦ ?_)
      by_cases hname : n = name
      · subst hname
        rw [lookup_eq_none_of_lt hx.1, lookup_eq_none_of_lt hy.1]
      · simpa [lookup, hname] using h name

theorem lookup_eq_some_iff {es : List (String × String)} (h : Ascending es)
    {name value : String} : lookup name es = some value ↔ (name, value) ∈ es := by
  induction es with
  | nil => simp [lookup]
  | cons e es ih =>
    obtain ⟨n, v⟩ := e
    obtain ⟨hlt, hes⟩ := List.pairwise_cons.mp h
    rw [lookup, List.mem_cons, Prod.mk.injEq]
    split
    · rename_i hn
      subst hn
      have hnot : (n, value) ∉ es := fun hmem ↦ String.lt_irrefl n (hlt _ hmem)
      simp [hnot, eq_comm]
    · rename_i hn
      rw [ih hes]
      simp [Ne.symm hn]

theorem mem_entries_iff {d : Dict} {name value : String} :
    (name, value) ∈ d.entries ↔ d.get? name = some value :=
  (lookup_eq_some_iff d.ascending).symm

theorem get?_ofList_concat (entries : List (String × String)) (e : String × String)
    (name : String) :
    (ofList (entries ++ [e])).get? name
      = if name = e.1 then some e.2 else (ofList entries).get? name := by
  rw [ofList, List.foldl_append]
  exact get?_insert _ e.1 e.2 name

theorem mem_of_mem_ofList {es : List (String × String)} {e : String × String}
    (h : e ∈ (ofList es).entries) : e ∈ es := by
  suffices hfold : ∀ d : Dict, e ∈ (es.foldl (fun d e ↦ d.insert e.1 e.2) d).entries →
      e ∈ d.entries ∨ e ∈ es from
    (hfold empty h).resolve_left (by simp [empty])
  clear h
  induction es with
  | nil => exact fun d hd ↦ Or.inl hd
  | cons x es ih =>
    intro d hd
    rcases ih _ hd with hinsert | hes
    · rcases mem_place hinsert with rfl | hmem
      · exact Or.inr List.mem_cons_self
      · exact Or.inl hmem
    · exact Or.inr (List.mem_cons_of_mem _ hes)

/-- Dictionaries with the same look-ups are equal. -/
theorem ext_get? {a b : Dict} (h : ∀ name, a.get? name = b.get? name) : a = b := by
  obtain ⟨as, ha⟩ := a
  obtain ⟨bs, hb⟩ := b
  have : as = bs := entries_ext ha hb h
  subst this
  rfl

end Dict

end ShellEngine
