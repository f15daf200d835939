import Mathlib.Data.List.Basic
import ShellEngine.Process.Probe
import ShellEngine.Proofs.Environment.Block

/-!
# What harvesting an environment yields

The environment of a child is read with the largest of some sizes that can be read in full. Is that
size at least that of the environment, then the environment is read as a whole. Is it smaller, then
the bytes are cut, a NUL is put behind them all the same, and what comes of it depends on where the
cut falls: within an entry it is refused, and behind one it is taken for the environment
(`readEnvironment_eq_ok_iff`). So no entry is ever torn, but the entries behind the cut are lost
without an error.

Of reading memory only this is supposed (`ReadsFrom`): it gives the bytes from an address on, perhaps
fewer than were asked for.
-/

namespace ShellEngine.Probe

/-! ## Sizes -/

theorem le_of_mem_pageSteps {page size m : Nat} (h : m ∈ pageSteps page size (size / page)) :
    page ≤ m := by
  obtain ⟨i, hi, rfl⟩ := List.mem_map.mp h
  have hle : (i + 1) * page ≤ size / page * page :=
    Nat.mul_le_mul_right _ (List.mem_range.mp hi)
  have hsize := Nat.div_mul_le_self size page
  rw [Nat.succ_mul] at hle
  omega

theorem pairwise_pageSteps {page : Nat} (hpage : 0 < page) (size : Nat) :
    (pageSteps page size (size / page)).Pairwise (· > ·) := by
  refine List.pairwise_map.mpr (List.pairwise_lt_range.imp_of_mem fun {i j} hi hj hlt ↦ ?_)
  have hj : page ≤ size - j * page := le_of_mem_pageSteps (List.mem_map_of_mem hj)
  have hij : i * page < j * page := Nat.mul_lt_mul_of_pos_right hlt hpage
  omega

/-- The sizes decrease. -/
theorem pairwise_sizes {page : Nat} (hpage : 0 < page) (start window : Nat) :
    (sizes start window page).Pairwise (· > ·) := by
  refine List.pairwise_append.mpr ⟨pairwise_pageSteps hpage _, ?_, fun m hm n hn ↦ ?_⟩
  · unfold lastSize
    split <;> simp
  · have hm := le_of_mem_pageSteps hm
    unfold lastSize at hn
    split at hn
    · cases hn
    · obtain rfl := List.mem_singleton.mp hn
      omega

/-! ## The size that is read -/

def bytesAt (contents : Nat → UInt8) (start count : Nat) : Bytes :=
  (List.range count).map fun i ↦ contents (start + i)

/-- Reading memory gives the bytes from the address on, however many these are. -/
def ReadsFrom (contents : Nat → UInt8) (memory : Nat → Nat → MemoryRead) : Prop :=
  ∀ address size bs, memory address size = .read bs → bs = bytesAt contents address bs.length

def IsFull (size : Nat) (found : MemoryRead) : Prop := ∃ bs, found = .read bs ∧ bs.length = size

/-- Whether a smaller read is tried after this one. -/
def IsShort (size : Nat) (found : MemoryRead) : Prop :=
  found = .fault ∨ ∃ bs, found = .read bs ∧ bs.length ≠ size

/-- The size that is read: a read of this size succeeds, and one of a larger size falls short. -/
structure Reaches (memory : Nat → Nat → MemoryRead) (start : Nat) (tried : List Nat) (n : Nat) :
    Prop where
  mem : n ∈ tried
  isFull : IsFull n (memory start n)
  isShort : ∀ m ∈ tried, n < m → IsShort m (memory start m)

theorem not_isFull_of_isShort {size : Nat} {found : MemoryRead} (h : IsShort size found) :
    ¬ IsFull size found := by
  rintro ⟨bs, rfl, hbs⟩
  rcases h with h | ⟨bs', h, hbs'⟩
  · cases h
  · cases h
    exact hbs' hbs

section Probing

variable {memory : Nat → Nat → MemoryRead} {start size n : Nat} {rest : List Nat} {bs : Bytes}

theorem probe_cons_of_isShort (h : IsShort size (memory start size)) :
    probe memory start (size :: rest) = probe memory start rest := by
  rcases h with h | ⟨bs', h, hbs'⟩ <;> simp [probe, *]

theorem reaches_cons_of_isShort (h : IsShort size (memory start size)) :
    Reaches memory start (size :: rest) n ↔ Reaches memory start rest n := by
  refine ⟨fun hn ↦ ⟨?_, hn.isFull, fun m hm ↦ hn.isShort m (List.mem_cons_of_mem _ hm)⟩,
    fun hn ↦ ⟨List.mem_cons_of_mem _ hn.mem, hn.isFull, fun m hm hlt ↦ ?_⟩⟩
  · rcases List.mem_cons.mp hn.mem with rfl | hmem
    · exact absurd hn.isFull (not_isFull_of_isShort h)
    · exact hmem
  · rcases List.mem_cons.mp hm with rfl | hmem
    · exact h
    · exact hn.isShort m hmem hlt

theorem reaches_cons_of_not_isShort (hrest : ∀ m ∈ rest, m < size)
    (h : ¬ IsShort size (memory start size)) :
    Reaches memory start (size :: rest) n ↔ n = size ∧ IsFull size (memory start size) := by
  refine ⟨fun hn ↦ ?_, ?_⟩
  · rcases List.mem_cons.mp hn.mem with rfl | hmem
    · exact ⟨rfl, hn.isFull⟩
    · exact absurd (hn.isShort size List.mem_cons_self (hrest n hmem)) h
  · rintro ⟨rfl, hfull⟩
    refine ⟨List.mem_cons_self, hfull, fun m hm hlt ↦ ?_⟩
    rcases List.mem_cons.mp hm with rfl | hmem
    · exact absurd hlt (Nat.lt_irrefl _)
    · exact absurd hlt (Nat.lt_asymm (hrest m hmem))

theorem probe_eq_ok_iff {tried : List Nat} (htried : tried.Pairwise (· > ·)) :
    probe memory start tried = .ok bs ↔
      Reaches memory start tried bs.length ∧ memory start bs.length = .read bs := by
  induction tried with
  | nil => exact ⟨fun h ↦ (nomatch h), fun h ↦ absurd h.1.mem List.not_mem_nil⟩
  | cons size rest ih =>
    obtain ⟨hsize, hrest⟩ := List.pairwise_cons.mp htried
    -- A read that falls short is passed on both sides; any other one decides.
    by_cases hshort : IsShort size (memory start size)
    · rw [probe_cons_of_isShort hshort, reaches_cons_of_isShort hshort, ih hrest]
    · rw [reaches_cons_of_not_isShort hsize hshort]
      cases hread : memory start size with
      | fault => exact absurd (Or.inl hread) hshort
      | failed e => simp [probe, hread, IsFull]
      | read bs' =>
        have hfull : bs'.length = size := by
          by_contra hne
          exact hshort (Or.inr ⟨bs', hread, hne⟩)
        rw [probe, hread]
        simp only [if_pos hfull, Except.ok.injEq]
        constructor
        · rintro rfl
          exact ⟨⟨hfull, bs', rfl, hfull⟩, hfull ▸ hread⟩
        · rintro ⟨⟨hlength, -⟩, hbs⟩
          rw [hlength, hread] at hbs
          exact MemoryRead.read.inj hbs

end Probing

/-! ## The environment that is read -/

theorem take_bytesAt (contents : Nat → UInt8) (start count limit : Nat) :
    (bytesAt contents start count).take limit = bytesAt contents start (min limit count) := by
  rw [bytesAt, ← List.map_take, List.take_range]
  rfl

/-- An environment that is read is that of the bytes up to its end or up to that of the probe. -/
theorem readEnvironment_eq_ok_iff_reaches {contents : Nat → UInt8}
    {memory : Nat → Nat → MemoryRead} (hmem : ReadsFrom contents memory)
    {start stop window page : Nat} (hpage : 0 < page) {env : Dict} :
    readEnvironment memory start stop window page = .ok env ↔
      ∃ n, Reaches memory start (sizes start window page) n ∧
        Environment.decode (bytesAt contents start (min (stop - start) n) ++ [0]) = .ok env := by
  have hsizes := pairwise_sizes hpage start window
  constructor
  · intro h
    cases hprobe : probe memory start (sizes start window page) with
    | error e => simp [readEnvironment, hprobe, bind, Except.bind] at h
    | ok bs =>
      obtain ⟨hreaches, hread⟩ := (probe_eq_ok_iff hsizes).mp hprobe
      refine ⟨bs.length, hreaches, ?_⟩
      rw [← take_bytesAt, ← hmem _ _ _ hread]
      simpa [readEnvironment, hprobe, bind, Except.bind] using h
  · rintro ⟨n, hreaches, hdecode⟩
    obtain ⟨bs, hread, rfl⟩ := hreaches.isFull
    have hprobe := (probe_eq_ok_iff hsizes).mpr ⟨hreaches, hread⟩
    rw [← take_bytesAt, ← hmem _ _ _ hread] at hdecode
    simpa [readEnvironment, hprobe, bind, Except.bind] using hdecode

/-- Memory that holds some bytes from an address on, and nothing else. -/
def region (first : Nat) (bs : Bytes) (address size : Nat) : MemoryRead :=
  if first ≤ address ∧ address + size ≤ first + bs.length then
    .read ((bs.drop (address - first)).take size)
  else .fault

theorem readsFrom_region (first : Nat) (bs : Bytes) :
    ReadsFrom (fun address ↦ bs.getD (address - first) 0) (region first bs) := by
  intro address size found h
  unfold region at h
  split at h
  case isFalse => cases h
  case isTrue hrange =>
    obtain rfl := MemoryRead.read.inj h
    refine List.ext_getElem (by simp [bytesAt]) fun i hi _ ↦ ?_
    have hindex : address + i - first = address - first + i := by omega
    simp only [List.length_take, List.length_drop] at hi
    have hlt : address - first + i < bs.length := by omega
    simp [bytesAt, hindex, List.getElem?_eq_getElem hlt]

/-- The bytes of the variables `A=1` and `B=2`. -/
def twoVariables : Bytes := [65, 61, 49, 0, 66, 61, 50, 0]

/-- **What harvesting yields.** A probe that covers the environment yields what all of its bytes
decode to. A probe that falls short of its end yields an environment only if it ends where an entry
does, and then one of the bytes up to there. -/
theorem readEnvironment_eq_ok_iff {contents : Nat → UInt8} {memory : Nat → Nat → MemoryRead}
    (hmem : ReadsFrom contents memory) {start stop window page : Nat} (hpage : 0 < page)
    {env : Dict} :
    readEnvironment memory start stop window page = .ok env ↔
      ∃ n, Reaches memory start (sizes start window page) n ∧
        (stop - start ≤ n ∧
            Environment.decode (bytesAt contents start (stop - start) ++ [0]) = .ok env ∨
          n < stop - start ∧ Environment.EndsEntry (bytesAt contents start n) ∧
            Environment.decode (bytesAt contents start n ++ [0]) = .ok env) := by
  rw [readEnvironment_eq_ok_iff_reaches hmem hpage]
  refine exists_congr fun n ↦ and_congr_right fun _ ↦ ?_
  -- A NUL is put behind the bytes in any case, but only a cut makes it stand for what was there.
  rcases Nat.lt_or_ge n (stop - start) with hlt | hge
  · rw [Nat.min_eq_right (Nat.le_of_lt hlt)]
    constructor
    · exact fun h ↦ Or.inr ⟨hlt, Environment.endsEntry_of_decode h, h⟩
    · rintro (⟨hge, -⟩ | ⟨-, -, h⟩)
      · exact absurd hlt (Nat.not_lt.mpr hge)
      · exact h
  · rw [Nat.min_eq_left hge]
    constructor
    · exact fun h ↦ Or.inl ⟨hge, h⟩
    · rintro (⟨-, h⟩ | ⟨hlt, -⟩)
      · exact h
      · exact absurd hlt (Nat.not_lt.mpr hge)

/-- A probe that covers two variables yields both. -/
theorem readEnvironment_of_cover :
    ReadsFrom (fun address ↦ twoVariables.getD (address - 16) 0) (region 16 twoVariables) ∧ 0 < 4 ∧
      readEnvironment (region 16 twoVariables) 16 24 16 4
        = .ok (Dict.ofList [("A", "1"), ("B", "2")]) := by
  have hmem := readsFrom_region 16 twoVariables
  refine ⟨hmem, by decide, (readEnvironment_eq_ok_iff hmem (by decide)).mpr
    ⟨8, ⟨by decide, ⟨_, rfl, rfl⟩, fun m _ hm ↦ Or.inl ?_⟩, Or.inl ⟨by decide, by decide +kernel⟩⟩⟩
  -- A larger read would reach behind the region.
  exact if_neg fun h ↦ absurd h.2 (by simp [twoVariables]; omega)

/-- A probe that ends behind the first of two variables yields that one, and the other is lost. -/
theorem readEnvironment_of_cut :
    ReadsFrom (fun address ↦ twoVariables.getD (address - 16) 0) (region 16 twoVariables) ∧
      probe (region 16 twoVariables) 16 (sizes 16 4 1) = .ok [65, 61, 49, 0] ∧
      readEnvironment (region 16 twoVariables) 16 24 4 1 = .ok (Dict.ofList [("A", "1")]) ∧
      Environment.decode (twoVariables ++ [0])
        = .ok (Dict.ofList [("A", "1"), ("B", "2")]) := by
  refine ⟨readsFrom_region _ _, ?_, ?_, ?_⟩ <;> decide +kernel

end ShellEngine.Probe
