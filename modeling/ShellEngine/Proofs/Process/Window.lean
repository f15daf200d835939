import Mathlib.Data.Nat.Init
import ShellEngine.Proofs.Process.Probe

/-!
# How far a probe reaches

Memory that can be read ends somewhere (`EndsAt`), usually with a page, and a probe finds out where by
trying sizes. A window of whole pages is tried page by page, so that what is read is all that lies in
the window (`probe_of_whole_pages`).

Any other window leaves a gap if the start is that of a page. The sizes are then the window and what is
left of it page by page, all of them more than a page, and the stretch to the end of the first page is
not tried, since it counts as one of them. So a probe of a page that can be read gives up exactly if
the start is that of a page and the window does not consist of whole pages, or is empty
(`probe_of_one_page`).
-/

namespace ShellEngine.Probe

/-! ## The sizes one by one -/

theorem pageSteps_of_lt {page size : Nat} (h : size < page) :
    pageSteps page size (size / page) = [] := by
  rw [Nat.div_eq_of_lt h]
  rfl

/-- One size more is tried, and then those of one page less. -/
theorem pageSteps_of_le {page size : Nat} (hpage : 0 < page) (h : page ≤ size) :
    pageSteps page size (size / page)
      = size :: pageSteps page (size - page) ((size - page) / page) := by
  have hcount : size / page = (size - page) / page + 1 := Nat.div_eq_sub_div hpage h
  rw [hcount, pageSteps, pageSteps, List.range_succ_eq_map, List.map_cons, List.map_map]
  congr 1
  · omega
  · refine List.map_congr_left fun i _ ↦ ?_
    rw [Function.comp_apply, Nat.succ_mul]
    omega

/-- The sizes of a window of whole pages reach to the ends of its pages. -/
theorem sizes_of_whole_pages {page k : Nat} (hpage : 0 < page) (hk : 0 < k) (start : Nat) :
    sizes start (k * page) page
      = (List.range k).map fun i ↦ (k - i) * page - start % page := by
  have hoffset := Nat.mod_lt start hpage
  induction k, hk using Nat.le_induction with
  | base =>
    -- one page is tried either as a page or as what is left of the first one
    rw [sizes, lastSize, Nat.one_mul]
    by_cases hstart : start % page = 0
    · rw [if_pos hstart, hstart, Nat.sub_zero, Nat.div_self hpage]
      simp [pageSteps]
    · rw [if_neg hstart, pageSteps_of_lt (by omega)]
      simp
  | succ k hk ih =>
    have hone : page ≤ k * page := Nat.le_mul_of_pos_left page hk
    have hle : page ≤ (k + 1) * page - start % page := by
      rw [Nat.succ_mul]
      omega
    have hless : (k + 1) * page - start % page - page = k * page - start % page := by
      rw [Nat.succ_mul]
      omega
    rw [sizes, pageSteps_of_le hpage hle, hless, List.cons_append, ← sizes, ih,
      List.range_succ_eq_map, List.map_cons, List.map_map]
    congr 1
    refine List.map_congr_left fun i _ ↦ ?_
    rw [Function.comp_apply]
    congr 2
    omega

theorem mem_sizes_of_whole_pages {start page k size : Nat} (hpage : 0 < page) (hk : 0 < k) :
    size ∈ sizes start (k * page) page ↔ ∃ j, 0 < j ∧ j ≤ k ∧ size = j * page - start % page := by
  rw [sizes_of_whole_pages hpage hk, List.mem_map]
  constructor
  · rintro ⟨i, hi, rfl⟩
    have hi := List.mem_range.mp hi
    exact ⟨k - i, by omega, Nat.sub_le _ _, rfl⟩
  · rintro ⟨j, hj, hjk, rfl⟩
    refine ⟨k - j, List.mem_range.mpr (by omega), ?_⟩
    rw [Nat.sub_sub_self hjk]

theorem le_max_of_mem_sizes {start window page size : Nat} (h : size ∈ sizes start window page) :
    size ≤ max window page := by
  rcases List.mem_append.mp h with h | h
  · obtain ⟨i, -, rfl⟩ := List.mem_map.mp h
    omega
  · unfold lastSize at h
    split at h
    · cases h
    · obtain rfl := List.mem_singleton.mp h
      omega

/-! ## Memory that ends -/

/-- Memory that can be read from `start` on up to `stop` and no farther. -/
structure EndsAt (contents : Nat → UInt8) (memory : Nat → Nat → MemoryRead) (start stop : Nat) :
    Prop where
  readsFrom : ReadsFrom contents memory
  isFull : ∀ size, start + size ≤ stop → IsFull size (memory start size)
  isShort : ∀ size, stop < start + size → IsShort size (memory start size)

theorem endsAt_region {first start : Nat} (bs : Bytes) (hstart : first ≤ start) :
    EndsAt (fun address ↦ bs.getD (address - first) 0) (region first bs) start
      (first + bs.length) where
  readsFrom := readsFrom_region first bs
  isFull size hsize := by
    refine ⟨_, if_pos ⟨hstart, hsize⟩, ?_⟩
    rw [List.length_take, List.length_drop]
    omega
  isShort size hsize := Or.inl (if_neg fun h ↦ absurd h.2 (Nat.not_le_of_gt hsize))

section Reading

variable {contents : Nat → UInt8} {memory : Nat → Nat → MemoryRead} {start stop n : Nat}
  {tried : List Nat}

/-- The largest size that does not reach beyond the end is read. -/
theorem EndsAt.probe_eq_ok (h : EndsAt contents memory start stop)
    (htried : tried.Pairwise (· > ·)) (hn : n ∈ tried) (hle : start + n ≤ stop)
    (hlargest : ∀ m ∈ tried, start + m ≤ stop → m ≤ n) :
    probe memory start tried = .ok (bytesAt contents start n) := by
  obtain ⟨bs, hread, hlength⟩ := h.isFull n hle
  have hbs : bs = bytesAt contents start n := by
    rw [← hlength]
    exact h.readsFrom _ _ _ hread
  rw [← hbs]
  subst hlength
  refine (probe_eq_ok_iff htried).mpr ⟨⟨hn, ⟨bs, hread, rfl⟩, ?_⟩, hread⟩
  intro m hm hlt
  refine h.isShort m ?_
  by_contra hstop
  exact absurd (hlargest m hm (Nat.le_of_not_gt hstop)) (Nat.not_le_of_gt hlt)

theorem EndsAt.probe_eq_exhausted (h : EndsAt contents memory start stop)
    (htried : ∀ m ∈ tried, stop < start + m) :
    probe memory start tried = .error .exhausted := by
  induction tried with
  | nil => rfl
  | cons size rest ih =>
    obtain ⟨hsize, hrest⟩ := List.forall_mem_cons.mp htried
    rw [probe_cons_of_isShort (h.isShort size hsize)]
    exact ih hrest

end Reading

/-! ## Windows of whole pages -/

/-- From an address to the end of a page it is some pages less the offset of the address. -/
theorem exists_sub_eq {start stop page : Nat} (hstop : page ∣ stop) (hlt : start < stop) :
    ∃ j, 0 < j ∧ stop - start = j * page - start % page := by
  obtain ⟨t, rfl⟩ := hstop
  have hdiv : start / page < t := Nat.div_lt_of_lt_mul hlt
  obtain ⟨j, rfl⟩ := Nat.exists_eq_add_of_lt hdiv
  refine ⟨j + 1, Nat.succ_pos j, ?_⟩
  have hstart := Nat.div_add_mod start page
  have hpages : page * (start / page + j + 1) = page * (start / page) + (j + 1) * page := by
    rw [Nat.add_assoc, Nat.mul_add, Nat.mul_comm page (j + 1)]
  omega

/-- **Windows of whole pages.** A probe with such a window tries the stretches to the ends of its
pages, the longest first, and reads all that can be read of it. -/
theorem probe_of_whole_pages {contents : Nat → UInt8} {memory : Nat → Nat → MemoryRead}
    {start stop page k : Nat} (hpage : 0 < page) (hk : 0 < k)
    (hmem : EndsAt contents memory start stop) (hstop : page ∣ stop) (hlt : start < stop) :
    sizes start (k * page) page = ((List.range k).map fun i ↦ (k - i) * page - start % page) ∧
      (sizes start (k * page) page).Pairwise (· > ·) ∧
      (∀ size ∈ sizes start (k * page) page, 0 < size ∧ size ≤ k * page) ∧
      probe memory start (sizes start (k * page) page)
        = .ok (bytesAt contents start (min (stop - start) (k * page - start % page))) := by
  have hdecreasing := pairwise_sizes hpage start (k * page)
  have hoffset := Nat.mod_lt start hpage
  have hpos : ∀ j, 0 < j → page ≤ j * page := fun j hj ↦ Nat.le_mul_of_pos_left page hj
  refine ⟨?_, hdecreasing, ?_, ?_⟩
  · exact sizes_of_whole_pages hpage hk start
  · intro size hsize
    obtain ⟨j, hj, hjk, rfl⟩ := (mem_sizes_of_whole_pages hpage hk).mp hsize
    have hpagej := hpos j hj
    have hle : j * page ≤ k * page := Nat.mul_le_mul_right page hjk
    omega
  · obtain ⟨j, hj, hsub⟩ := exists_sub_eq hstop hlt
    refine hmem.probe_eq_ok hdecreasing ?_ ?_ ?_
    · refine (mem_sizes_of_whole_pages hpage hk).mpr ⟨min j k, by omega, Nat.min_le_right _ _, ?_⟩
      rw [hsub, Nat.sub_min_sub_right, Nat.mul_min_mul_right]
    · omega
    · intro m hm hle
      obtain ⟨i, -, hik, rfl⟩ := (mem_sizes_of_whole_pages hpage hk).mp hm
      have hle' : i * page ≤ k * page := Nat.mul_le_mul_right page hik
      omega

/-- Twelve bytes are tried, less the two before the start; eight bytes are there. -/
theorem probe_of_whole_pages_three :
    0 < 4 ∧ 0 < 3 ∧
      EndsAt (fun address ↦ twoVariables.getD (address - 16) 0) (region 16 twoVariables) 18 24 ∧
      4 ∣ 24 ∧ 18 < 24 ∧ sizes 18 (3 * 4) 4 = [10, 6, 2] ∧
      probe (region 16 twoVariables) 18 (sizes 18 (3 * 4) 4) = .ok [49, 0, 66, 61, 50, 0] := by
  have hmem := endsAt_region twoVariables (show 16 ≤ 18 by decide)
  have hpage : 0 < 4 := by decide
  have hk : 0 < 3 := by decide
  obtain ⟨hsizes, -, -, hprobe⟩ := probe_of_whole_pages hpage hk hmem (by decide) (by decide)
  exact ⟨hpage, hk, hmem, by decide, by decide, hsizes.trans (by decide), hprobe.trans (by decide)⟩

/-! ## The first page -/

/-- The first address behind the page of an address. -/
def pageEnd (start page : Nat) : Nat := (start / page + 1) * page

theorem pageEnd_eq {page : Nat} (hpage : 0 < page) (start : Nat) :
    pageEnd start page = start + (page - start % page) := by
  have hoffset := Nat.mod_lt start hpage
  have hstart := Nat.div_add_mod start page
  have hpages : pageEnd start page = page * (start / page) + page := by
    rw [pageEnd, Nat.succ_mul, Nat.mul_comm]
  omega

/-- Whether every size reaches beyond the page that the probe starts with. -/
def Overshoots (start window page : Nat) : Prop := page ∣ start ∧ (window = 0 ∨ ¬ page ∣ window)

instance (start window page : Nat) : Decidable (Overshoots start window page) :=
  inferInstanceAs (Decidable (_ ∧ _))

theorem sub_mod_le_of_mem_sizes {start window page size : Nat}
    (h : size ∈ sizes start window page) : page - start % page ≤ size := by
  rcases List.mem_append.mp h with h | h
  · exact Nat.le_trans (Nat.sub_le _ _) (le_of_mem_pageSteps h)
  · unfold lastSize at h
    split at h
    · cases h
    · exact Nat.le_of_eq (List.mem_singleton.mp h).symm

theorem page_mem_pageSteps_iff {page : Nat} (hpage : 0 < page) (size : Nat) :
    page ∈ pageSteps page size (size / page) ↔ 0 < size ∧ page ∣ size := by
  rw [pageSteps, List.mem_map]
  constructor
  · rintro ⟨i, -, hi⟩
    have hsize : size = page * (i + 1) := by
      rw [Nat.mul_succ, Nat.mul_comm page i]
      omega
    rw [hsize]
    exact ⟨Nat.mul_pos hpage (Nat.succ_pos i), Nat.dvd_mul_right page (i + 1)⟩
  · rintro ⟨hpos, t, rfl⟩
    cases t with
    | zero => exact absurd hpos (Nat.lt_irrefl 0)
    | succ t =>
      refine ⟨t, ?_, ?_⟩
      · rw [Nat.mul_div_cancel_left _ hpage]
        exact List.mem_range.mpr (Nat.lt_succ_self t)
      · rw [Nat.mul_succ, Nat.mul_comm page t]
        omega

/-- The stretch to the end of the first page is tried unless every size goes beyond it. -/
theorem sub_mod_mem_sizes_iff {page : Nat} (hpage : 0 < page) (start window : Nat) :
    page - start % page ∈ sizes start window page ↔ ¬ Overshoots start window page := by
  rw [Overshoots, Nat.dvd_iff_mod_eq_zero]
  by_cases hstart : start % page = 0
  · rw [sizes, lastSize, if_pos hstart, List.append_nil, hstart, Nat.sub_zero, Nat.sub_zero,
      page_mem_pageSteps_iff hpage, Nat.pos_iff_ne_zero]
    tauto
  · rw [sizes, lastSize, if_neg hstart]
    simp [hstart]

/-- A size that does not go beyond the first page is the stretch to its end. -/
theorem exists_le_pageEnd_iff {page : Nat} (hpage : 0 < page) (start window : Nat) :
    (∃ size ∈ sizes start window page, start + size ≤ pageEnd start page) ↔
      ¬ Overshoots start window page := by
  rw [← sub_mod_mem_sizes_iff hpage start window, pageEnd_eq hpage]
  constructor
  · rintro ⟨size, hsize, hle⟩
    have hleast := sub_mod_le_of_mem_sizes hsize
    have hsub : size = page - start % page := by omega
    exact hsub ▸ hsize
  · intro h
    exact ⟨_, h, Nat.le_refl _⟩

section FirstPage

variable {contents : Nat → UInt8} {memory : Nat → Nat → MemoryRead} {start window page : Nat}

theorem EndsAt.probe_of_not_overshoots (hpage : 0 < page)
    (hmem : EndsAt contents memory start (pageEnd start page))
    (h : ¬ Overshoots start window page) :
    probe memory start (sizes start window page)
      = .ok (bytesAt contents start (page - start % page)) := by
  have hend := pageEnd_eq hpage start
  have hsize := (sub_mod_mem_sizes_iff hpage start window).mpr h
  refine hmem.probe_eq_ok (pairwise_sizes hpage start window) hsize ?_ ?_
  · omega
  · omega

theorem EndsAt.probe_of_overshoots (hpage : 0 < page)
    (hmem : EndsAt contents memory start (pageEnd start page)) (h : Overshoots start window page) :
    probe memory start (sizes start window page) = .error .exhausted := by
  refine hmem.probe_eq_exhausted fun size hsize ↦ ?_
  by_contra hle
  exact (exists_le_pageEnd_iff hpage start window).mp ⟨size, hsize, Nat.le_of_not_gt hle⟩ h

end FirstPage

/-- **The first page.** If no more can be read than the page that the probe starts with, then it is
read, unless it is whole and the window does not consist of whole pages. Whatever is tried fits into a
buffer for the window or a page. -/
theorem probe_of_one_page {contents : Nat → UInt8} {memory : Nat → Nat → MemoryRead}
    {start window page : Nat} (hpage : 0 < page)
    (hmem : EndsAt contents memory start (pageEnd start page)) :
    (∀ size ∈ sizes start window page, size ≤ max window page) ∧
      ((∃ size ∈ sizes start window page, start + size ≤ pageEnd start page) ↔
        ¬ Overshoots start window page) ∧
      (probe memory start (sizes start window page)
          = .ok (bytesAt contents start (page - start % page)) ↔ ¬ Overshoots start window page) ∧
      (probe memory start (sizes start window page) = .error .exhausted ↔
        Overshoots start window page) := by
  refine ⟨fun _ ↦ le_max_of_mem_sizes, exists_le_pageEnd_iff hpage start window, ?_, ?_⟩
  · constructor
    · intro h hover
      rw [hmem.probe_of_overshoots hpage hover] at h
      cases h
    · intro h
      exact hmem.probe_of_not_overshoots hpage h
  · constructor
    · intro h
      by_contra hover
      rw [hmem.probe_of_not_overshoots hpage hover] at h
      cases h
    · intro h
      exact hmem.probe_of_overshoots hpage h

/-- A window of half a page is enough to read what is left of a page. -/
theorem probe_of_one_page_half :
    0 < 4 ∧
      EndsAt (fun address ↦ [65, 61, 49, 0].getD (address - 16) 0) (region 16 [65, 61, 49, 0]) 18
        (pageEnd 18 4) ∧
      probe (region 16 [65, 61, 49, 0]) 18 (sizes 18 2 4) = .ok [49, 0] := by
  have hpage : 0 < 4 := by decide
  have hmem : EndsAt (fun address ↦ [65, 61, 49, 0].getD (address - 16) 0)
      (region 16 [65, 61, 49, 0]) 18 (pageEnd 18 4) := endsAt_region _ (by decide)
  obtain ⟨-, -, hprobe, -⟩ := probe_of_one_page hpage hmem
  exact ⟨hpage, hmem, (hprobe.mpr (by decide)).trans (by decide)⟩

/-- A window of a quarter of a page is not enough to read a whole one. -/
theorem probe_of_whole_page_quarter :
    EndsAt (fun address ↦ (List.replicate 4096 65).getD (address - 8192) 0)
        (region 8192 (List.replicate 4096 65)) 8192 (pageEnd 8192 4096) ∧
      sizes 8192 1024 4096 = [] ∧
      probe (region 8192 (List.replicate 4096 65)) 8192 (sizes 8192 1024 4096)
        = .error .exhausted := by
  have hmem := endsAt_region (List.replicate 4096 65) (Nat.le_refl 8192)
  rw [List.length_replicate] at hmem
  have hsizes : sizes 8192 1024 4096 = [] := by decide
  refine ⟨hmem, hsizes, ?_⟩
  rw [hsizes]
  rfl

end ShellEngine.Probe
