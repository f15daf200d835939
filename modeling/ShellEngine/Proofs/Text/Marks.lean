import ShellEngine.Text.Utf8

/-!
# Marked bytes

A sequence of bytes of which each has one mark. Those with certain marks, in their order, are a part
of the sequence (`Marked.part`); parts for marks that exclude each other share no byte. So a marked
sequence tells how others lie interleaved in it.
-/

namespace ShellEngine

/-- Bytes, each with a mark. -/
abbrev Marked (ι : Type) := List (UInt8 × ι)

namespace Marked

variable {ι : Type} {ms ms' : Marked ι} {p q : ι → Bool} {i : ι}

def bytes (ms : Marked ι) : Bytes := ms.map (·.1)

def part (ms : Marked ι) (p : ι → Bool) : Bytes := (ms.filter (p ·.2)).map (·.1)

def ofBytes (bs : Bytes) (i : ι) : Marked ι := bs.map (·, i)

@[simp]
theorem bytes_nil : bytes ([] : Marked ι) = [] := rfl

@[simp]
theorem bytes_cons (m : UInt8 × ι) (ms : Marked ι) : bytes (m :: ms) = m.1 :: bytes ms := rfl

@[simp]
theorem bytes_append : bytes (ms ++ ms') = bytes ms ++ bytes ms' := List.map_append

@[simp]
theorem bytes_ofBytes (bs : Bytes) (i : ι) : (ofBytes bs i).bytes = bs := by
  simp [bytes, ofBytes, Function.comp_def]

@[simp]
theorem part_nil : part ([] : Marked ι) p = [] := rfl

theorem part_cons (m : UInt8 × ι) (ms : Marked ι) (p : ι → Bool) :
    part (m :: ms) p = if p m.2 then m.1 :: part ms p else part ms p := by
  simp only [part, List.filter_cons]
  split <;> rfl

theorem part_cons_of_pos {m : UInt8 × ι} (h : p m.2 = true) :
    part (m :: ms) p = m.1 :: part ms p := by
  rw [part_cons, if_pos h]

theorem part_cons_of_neg {m : UInt8 × ι} (h : p m.2 = false) : part (m :: ms) p = part ms p := by
  rw [part_cons, if_neg (ne_true_of_eq_false h)]

@[simp]
theorem part_append : part (ms ++ ms') p = part ms p ++ part ms' p := by
  rw [part, List.filter_append, List.map_append, part, part]

theorem mem_ofBytes {bs : Bytes} {m : UInt8 × ι} (h : m ∈ ofBytes bs i) : m.2 = i := by
  obtain ⟨b, -, rfl⟩ := List.mem_map.mp h
  rfl

theorem part_ofBytes_of_pos (bs : Bytes) (h : p i = true) : (ofBytes bs i).part p = bs := by
  simp [part, ofBytes, List.filter_map, Function.comp_def, h]

theorem part_ofBytes_of_neg (bs : Bytes) (h : p i = false) : (ofBytes bs i).part p = [] := by
  simp [part, ofBytes, List.filter_map, Function.comp_def, h]

theorem part_eq_nil (h : ∀ m ∈ ms, p m.2 = false) : ms.part p = [] := by
  rw [part, List.filter_eq_nil_iff.mpr fun m hm ↦ by simp [h m hm], List.map_nil]

theorem part_congr (h : ∀ m ∈ ms, p m.2 = q m.2) : ms.part p = ms.part q := by
  rw [part, List.filter_congr h, part]

theorem part_sublist_bytes (ms : Marked ι) (p : ι → Bool) : (ms.part p).Sublist ms.bytes :=
  List.filter_sublist.map _

theorem part_sublist_part (h : ∀ m ∈ ms, p m.2 = true → q m.2 = true) :
    (ms.part p).Sublist (ms.part q) := by
  induction ms with
  | nil => exact List.Sublist.refl _
  | cons m ms ih =>
    have hrest := ih fun m' hm' ↦ h m' (List.mem_cons_of_mem _ hm')
    cases hp : p m.2 with
    | true =>
      rw [part_cons_of_pos hp, part_cons_of_pos (h m List.mem_cons_self hp)]
      exact hrest.cons_cons _
    | false =>
      rw [part_cons_of_neg hp]
      cases hq : q m.2 with
      | true =>
        rw [part_cons_of_pos hq]
        exact hrest.cons _
      | false =>
        rw [part_cons_of_neg hq]
        exact hrest

/-! ## The bytes with one mark -/

variable [DecidableEq ι] {j : ι} {cut : Marked ι}

def bytesAt (ms : Marked ι) (i : ι) : Bytes := ms.part (· == i)

@[simp]
theorem bytesAt_nil (i : ι) : bytesAt [] i = [] := rfl

theorem bytesAt_cons_self (b : UInt8) (i : ι) (ms : Marked ι) :
    bytesAt ((b, i) :: ms) i = b :: bytesAt ms i :=
  part_cons_of_pos (beq_self_eq_true i)

theorem bytesAt_cons_of_ne {m : UInt8 × ι} (h : m.2 ≠ i) : bytesAt (m :: ms) i = bytesAt ms i :=
  part_cons_of_neg (p := (· == i)) (beq_eq_false_iff_ne.mpr h)

@[simp]
theorem bytesAt_append : bytesAt (ms ++ ms') i = bytesAt ms i ++ bytesAt ms' i := part_append

@[simp]
theorem bytesAt_ofBytes_self (bs : Bytes) (i : ι) : (ofBytes bs i).bytesAt i = bs :=
  part_ofBytes_of_pos bs (p := (· == i)) (beq_self_eq_true i)

theorem bytesAt_ofBytes_of_ne (bs : Bytes) (h : i ≠ j) : (ofBytes bs i).bytesAt j = [] :=
  part_ofBytes_of_neg bs (p := (· == j)) (beq_eq_false_iff_ne.mpr h)

theorem bytesAt_eq_nil (h : ∀ m ∈ ms, m.2 ≠ i) : ms.bytesAt i = [] :=
  part_eq_nil (p := (· == i)) fun m hm ↦ beq_eq_false_iff_ne.mpr (h m hm)

/-! ## Other marks -/

/-- Gives the bytes with the mark `i` the marks of others, one after the other. -/
def remark (i : ι) : Marked ι → Marked ι → Marked ι
  | [], _ => []
  | m :: ms, cut =>
    if m.2 = i then
      match cut with
      | [] => m :: ms
      | c :: cut => (m.1, c.2) :: remark i ms cut
    else m :: remark i ms cut

@[simp]
theorem bytes_remark (i : ι) (ms cut : Marked ι) : (remark i ms cut).bytes = ms.bytes := by
  fun_induction remark i ms cut with
  | case1 => rfl
  | case2 => rfl
  | case3 m ms hm c cut ih => rw [bytes_cons, bytes_cons, ih]
  | case4 m ms cut hm ih => rw [bytes_cons, bytes_cons, ih]

/-- A mark is an old one or a new one; the old ones stay, unless they are `i`. -/
theorem mem_remark {m : UInt8 × ι} (hcut : cut.bytes = ms.bytesAt i) (hm : m ∈ remark i ms cut) :
    (m ∈ ms ∧ m.2 ≠ i) ∨ ∃ c ∈ cut, m.2 = c.2 := by
  fun_induction remark i ms cut with
  | case1 => cases hm
  | case2 m' ms hm' =>
    rw [bytesAt, part_cons, if_pos (beq_iff_eq.mpr hm')] at hcut
    cases hcut
  | case3 m' ms hm' c cut ih =>
    rw [bytesAt, part_cons, if_pos (beq_iff_eq.mpr hm'), bytes_cons] at hcut
    rcases List.mem_cons.mp hm with rfl | hm
    · exact Or.inr ⟨c, List.mem_cons_self, rfl⟩
    · refine (ih (List.cons.inj hcut).2 hm).imp (fun ⟨hold, hne⟩ ↦ ?_) fun ⟨c', hc', heq⟩ ↦ ?_
      · exact ⟨List.mem_cons_of_mem _ hold, hne⟩
      · exact ⟨c', List.mem_cons_of_mem _ hc', heq⟩
  | case4 m' ms cut hm' ih =>
    rw [bytesAt_cons_of_ne hm'] at hcut
    rcases List.mem_cons.mp hm with rfl | hm
    · exact Or.inl ⟨List.mem_cons_self, hm'⟩
    · exact (ih hcut hm).imp_left fun ⟨hold, hne⟩ ↦ ⟨List.mem_cons_of_mem _ hold, hne⟩

/-- A part stays if it takes the new marks like the one they stand for. -/
theorem part_remark (h : ∀ c ∈ cut, p c.2 = p i) : (remark i ms cut).part p = ms.part p := by
  fun_induction remark i ms cut with
  | case1 => rfl
  | case2 => rfl
  | case3 m ms hm c cut ih =>
    have hp : p c.2 = p m.2 := hm ▸ h c List.mem_cons_self
    simp only [part_cons, hp, ih fun c' hc' ↦ h c' (List.mem_cons_of_mem _ hc')]
  | case4 m ms cut hm ih => rw [part_cons, part_cons, ih h]

/-- A mark that is neither the old one nor a new one keeps its bytes. -/
theorem bytesAt_remark_of_ne (hi : j ≠ i) (h : ∀ c ∈ cut, c.2 ≠ j) :
    (remark i ms cut).bytesAt j = ms.bytesAt j :=
  part_remark fun c hc ↦ by
    rw [beq_eq_false_iff_ne.mpr (h c hc), beq_eq_false_iff_ne.mpr hi.symm]

theorem bytesAt_remark_of_eq (hcut : cut.bytes = ms.bytesAt i) (h : ∀ m ∈ ms, m.2 = j → m.2 = i) :
    (remark i ms cut).bytesAt j = cut.bytesAt j := by
  fun_induction remark i ms cut with
  | case1 cut =>
    obtain rfl : cut = [] := List.map_eq_nil_iff.mp hcut
    rfl
  | case2 m ms hm =>
    rw [bytesAt, part_cons, if_pos (beq_iff_eq.mpr hm)] at hcut
    cases hcut
  | case3 m ms hm c cut ih =>
    rw [bytesAt, part_cons, if_pos (beq_iff_eq.mpr hm), bytes_cons] at hcut
    obtain ⟨hbyte, hbytes⟩ := List.cons.inj hcut
    have hrest := ih hbytes fun m' hm' ↦ h m' (List.mem_cons_of_mem _ hm')
    unfold bytesAt at hrest ⊢
    simp only [part_cons, hbyte, hrest]
  | case4 m ms cut hm ih =>
    rw [bytesAt_cons_of_ne hm] at hcut
    rw [bytesAt_cons_of_ne fun hj ↦ hm (h m List.mem_cons_self hj)]
    exact ih hcut fun m' hm' ↦ h m' (List.mem_cons_of_mem _ hm')

/-! ## Numbers as marks -/

section Numbers

variable {ns : Marked Nat} {n k : Nat}

theorem length_part_lt_succ (ns : Marked Nat) (n : Nat) :
    (ns.part fun k ↦ decide (k < n + 1)).length =
      (ns.part fun k ↦ decide (k < n)).length + (ns.bytesAt n).length := by
  induction ns with
  | nil => rfl
  | cons m ns ih =>
    obtain ⟨b, k⟩ := m
    have hcons (n : Nat) : (part ((b, k) :: ns) fun k ↦ decide (k < n)).length =
        (if k < n then 1 else 0) + (part ns fun k ↦ decide (k < n)).length := by
      rw [part_cons, Nat.add_comm]
      by_cases hk : k < n <;> simp only [hk, decide_true, decide_false, if_true, if_false,
        Bool.false_eq_true, List.length_cons, Nat.add_zero]
    rw [hcons, hcons, ih]
    by_cases hk : k = n
    · subst hk
      rw [bytesAt_cons_self, List.length_cons, if_pos (Nat.lt_succ_self k),
        if_neg (Nat.lt_irrefl k)]
      omega
    · rw [bytesAt_cons_of_ne hk]
      have hiff : k < n + 1 ↔ k < n := by omega
      simp only [hiff, Nat.add_assoc]

theorem length_bytes_eq (h : ∀ m ∈ ns, m.2 < n) :
    ns.bytes.length = ((List.range n).map ns.bytesAt).flatten.length := by
  have hpart (n : Nat) : (ns.part fun k ↦ decide (k < n)).length =
      ((List.range n).map ns.bytesAt).flatten.length := by
    induction n with
    | zero =>
      have hnone : (ns.part fun k ↦ decide (k < 0)) = [] :=
        part_eq_nil fun m _ ↦ decide_eq_false (Nat.not_lt_zero m.2)
      rw [hnone]
      rfl
    | succ n ih =>
      rw [length_part_lt_succ, ih, List.range_succ, List.map_append, List.flatten_append,
        List.length_append, List.map_singleton, List.flatten_singleton]
  have hall : ns.part (fun k ↦ decide (k < n)) = ns.bytes := by
    rw [bytes, part, List.filter_eq_self.mpr fun m hm ↦ decide_eq_true (h m hm)]
  rw [← hpart, hall]

/-- Some sequences one after the other, each marked with its number. -/
def ofParts (n : Nat) : List Bytes → Marked Nat
  | [] => []
  | bs :: rest => ofBytes bs n ++ ofParts (n + 1) rest

@[simp]
theorem bytes_ofParts (n : Nat) (parts : List Bytes) : (ofParts n parts).bytes = parts.flatten := by
  induction parts generalizing n with
  | nil => rfl
  | cons bs rest ih => rw [ofParts, bytes_append, bytes_ofBytes, ih, List.flatten_cons]

theorem le_of_mem_ofParts {m : UInt8 × Nat} {parts : List Bytes} (h : m ∈ ofParts n parts) :
    n ≤ m.2 ∧ m.2 < n + parts.length := by
  induction parts generalizing n with
  | nil => cases h
  | cons bs rest ih =>
    rw [List.length_cons]
    rcases List.mem_append.mp h with h | h
    · rw [mem_ofBytes h]
      omega
    · have := ih h
      omega

theorem bytesAt_ofParts (n k : Nat) (parts : List Bytes) :
    (ofParts n parts).bytesAt (n + k) = parts.getD k [] := by
  induction parts generalizing n k with
  | nil => rfl
  | cons bs rest ih =>
    rw [ofParts, bytesAt_append]
    cases k with
    | zero =>
      rw [Nat.add_zero, bytesAt_ofBytes_self, bytesAt_eq_nil, List.append_nil, List.getD_cons_zero]
      exact fun m hm ↦ Nat.ne_of_gt (le_of_mem_ofParts hm).1
    | succ k =>
      rw [bytesAt_ofBytes_of_ne _ (Nat.ne_of_lt (Nat.lt_add_of_pos_right (Nat.succ_pos k))),
        List.nil_append, List.getD_cons_succ, ← ih (n + 1) k, Nat.add_right_comm, Nat.add_assoc]

end Numbers

end Marked

end ShellEngine
