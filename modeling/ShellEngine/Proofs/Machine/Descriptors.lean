import ShellEngine.Machine.Host
import ShellEngine.Proofs.Machine.Channels

/-!
# Descriptors that are in order

The descriptors of a host are in order if each was given before, refers to an open file that there
is, and none but the standard streams is a standard stream (`Host.Orderly`). Whatever the engine does
with its descriptors keeps them so, never takes back a number, and leaves the open files of the
machine what they were (`Host.Extends`).
-/

namespace ShellEngine.Machine

namespace Descriptors

variable {d : Descriptors} {fd file source target : Nat} {e : Nat × Nat}

/-- There is an open file behind a descriptor, and no other. -/
structure Holds (d : Descriptors) (fd file : Nat) : Prop where
  mem : (fd, file) ∈ d.table
  unique : ∀ e ∈ d.table, e.1 = fd → e.2 = file

theorem mem_of_file? (h : d.file? fd = some file) : (fd, file) ∈ d.table := by
  obtain ⟨before, after, htable, -⟩ := List.lookup_eq_some_iff.mp h
  rw [htable]
  exact List.mem_append_right _ List.mem_cons_self

theorem Holds.file? (h : d.Holds fd file) : d.file? fd = some file := by
  cases hfound : d.file? fd with
  | none => exact absurd rfl (bne_iff_ne.mp (List.lookup_eq_none_iff.mp hfound _ h.mem))
  | some other => exact congrArg some (h.unique _ (mem_of_file? hfound) rfl)

theorem Holds.of_table_eq {d' : Descriptors} (h : d.Holds fd file) (htable : d'.table = d.table) :
    d'.Holds fd file :=
  ⟨htable ▸ h.mem, htable ▸ h.unique⟩

@[simp]
theorem table_call (d : Descriptors) : d.call.2.table = d.table := by
  unfold call
  split <;> rfl

@[simp]
theorem next_call (d : Descriptors) : d.call.2.next = d.next := by
  unfold call
  split <;> rfl

theorem mem_replace (h : e ∈ (d.replace source target).table) :
    e ∈ d.table ∨ e.1 = target ∧ (source, e.2) ∈ d.table := by
  unfold replace at h
  split at h
  · rename_i file hfile
    rcases List.mem_cons.mp h with rfl | h
    · exact Or.inr ⟨rfl, mem_of_file? hfile⟩
    · exact Or.inl (List.mem_filter.mp h).1
  · exact Or.inl h

theorem mem_replace_of_ne (h : e ∈ d.table) (hne : e.1 ≠ target) :
    e ∈ (d.replace source target).table := by
  unfold replace
  split
  · exact List.mem_cons_of_mem _ (List.mem_filter.mpr ⟨h, bne_iff_ne.mpr hne⟩)
  · exact h

/-- A descriptor that replaced another one refers to what was behind its source, and to nothing
else. -/
theorem holds_replace (h : d.file? source = some file) : (d.replace source target).Holds target file := by
  unfold replace
  rw [h]
  refine ⟨List.mem_cons_self, fun e he htarget ↦ ?_⟩
  rcases List.mem_cons.mp he with rfl | he
  · rfl
  · exact absurd htarget (bne_iff_ne.mp (List.mem_filter.mp he).2)

theorem Holds.replace (h : d.Holds fd file) (hne : fd ≠ target) :
    (d.replace source target).Holds fd file :=
  ⟨mem_replace_of_ne h.mem hne, fun e he hfd ↦ (mem_replace he).elim (h.unique e · hfd)
    fun ⟨htarget, _⟩ ↦ absurd (hfd.symm.trans htarget) hne⟩

@[simp]
theorem next_replace (d : Descriptors) (source target : Nat) :
    (d.replace source target).next = d.next := by
  unfold replace
  split <;> rfl

theorem mem_closeAll {fds : List Nat} : e ∈ (d.closeAll fds).table ↔ e ∈ d.table ∧ e.1 ∉ fds := by
  induction fds generalizing d with
  | nil => simp [closeAll]
  | cons fd fds ih =>
    have hstep : d.closeAll (fd :: fds) = (d.close fd).closeAll fds := rfl
    rw [hstep, ih, close, List.mem_filter, bne_iff_ne, List.mem_cons, not_or, and_assoc]

@[simp]
theorem next_closeAll (d : Descriptors) (fds : List Nat) : (d.closeAll fds).next = d.next := by
  induction fds generalizing d with
  | nil => rfl
  | cons fd fds ih => exact ih (d.close fd)

/-! ## What is behind a number -/

@[simp]
theorem file?_call (d : Descriptors) (fd : Nat) : d.call.2.file? fd = d.file? fd := by
  rw [file?, table_call, file?]

@[simp]
theorem closed_call (d : Descriptors) : d.call.2.closed = d.closed := by
  unfold call
  split <;> rfl

theorem file?_give (d : Descriptors) (file fd : Nat) :
    (d.give file).2.file? fd = if fd = d.next then some file else d.file? fd := by
  rw [file?, give, List.lookup_cons]
  by_cases h : fd = d.next
  · simp [h]
  · simp [h, beq_eq_false_iff_ne.mpr h, file?]

theorem lookup_filter_ne {table : List (Nat × Nat)} (fd target : Nat) :
    (table.filter (·.1 != target)).lookup fd = if fd = target then none else table.lookup fd := by
  induction table with
  | nil => simp
  | cons e table ih =>
    obtain ⟨key, file⟩ := e
    by_cases hkey : key = target
    · rw [List.filter_cons_of_neg (by simp [hkey]), ih, List.lookup_cons]
      by_cases hfd : fd = target
      · simp [hfd]
      · simp [hfd, hkey, beq_eq_false_iff_ne.mpr hfd]
    · rw [List.filter_cons_of_pos (by simp [hkey]), List.lookup_cons, List.lookup_cons, ih]
      by_cases hfd : fd = key
      · simp [hfd, hkey]
      · simp [beq_eq_false_iff_ne.mpr hfd]

theorem file?_closeAll (d : Descriptors) (fds : List Nat) (fd : Nat) :
    (d.closeAll fds).file? fd = if fd ∈ fds then none else d.file? fd := by
  induction fds generalizing d with
  | nil => simp [closeAll]
  | cons x fds ih =>
    have hstep : d.closeAll (x :: fds) = (d.close x).closeAll fds := rfl
    have hclose : (d.close x).file? fd = if fd = x then none else d.file? fd :=
      lookup_filter_ne fd x
    rw [hstep, ih, hclose]
    by_cases hfd : fd = x
    · simp [hfd]
    · simp [hfd]

theorem closed_closeAll (d : Descriptors) (fds : List Nat) :
    (d.closeAll fds).closed = fds.reverse ++ d.closed := by
  induction fds generalizing d with
  | nil => rfl
  | cons fd fds ih =>
    have hstep : d.closeAll (fd :: fds) = (d.close fd).closeAll fds := rfl
    rw [hstep, ih, close, List.reverse_cons, List.append_assoc]
    rfl

theorem file?_replace_self (h : d.file? source = some file) :
    (d.replace source target).file? target = some file :=
  (holds_replace h).file?

theorem file?_replace_of_ne (hne : fd ≠ target) :
    (d.replace source target).file? fd = d.file? fd := by
  unfold replace
  split
  · rw [file?, List.lookup_cons, beq_eq_false_iff_ne.mpr hne]
    exact (lookup_filter_ne fd target).trans (if_neg hne)
  · rfl

@[simp]
theorem closed_replace (d : Descriptors) (source target : Nat) :
    (d.replace source target).closed = d.closed := by
  unfold replace
  split <;> rfl

end Descriptors

namespace Host

variable {h k l : Host}

/-- Each descriptor was given, and refers to an open file that there is; each channel behind an open
file is there. -/
structure Orderly (h : Host) : Prop where
  standard : 3 ≤ h.descriptors.next
  known : ∀ e ∈ h.descriptors.table, e.1 < h.descriptors.next ∧ e.2 < h.world.files.size
  sound : h.world.Sound

/-- No number was taken back, no open file is another one, and order was kept. -/
structure Extends (h k : Host) : Prop where
  next : h.descriptors.next ≤ k.descriptors.next
  world : h.world.Grows k.world
  orderly : h.Orderly → k.Orderly

namespace Extends

theorem refl (h : Host) : Extends h h := ⟨Nat.le_refl _, .refl _, id⟩

theorem trans (h₁ : Extends h k) (h₂ : Extends k l) : Extends h l where
  next := Nat.le_trans h₁.next h₂.next
  world := h₁.world.trans h₂.world
  orderly := h₂.orderly ∘ h₁.orderly

/-- Only descriptors were touched, and those that are new refer to open files that are known. -/
theorem of_table (hworld : k.world = h.world) (hnext : k.descriptors.next = h.descriptors.next)
    (htable : ∀ e ∈ k.descriptors.table, e ∈ h.descriptors.table ∨
      e.1 < 3 ∧ ∃ fd, (fd, e.2) ∈ h.descriptors.table) : Extends h k where
  next := Nat.le_of_eq hnext.symm
  world := hworld ▸ .refl _
  orderly horderly := by
    refine ⟨hnext ▸ horderly.standard, fun e he ↦ ?_, hworld ▸ horderly.sound⟩
    rw [hnext, hworld]
    rcases htable e he with he | ⟨hstream, fd, he⟩
    · exact horderly.known e he
    · exact ⟨Nat.lt_of_lt_of_le hstream horderly.standard, (horderly.known _ he).2⟩

theorem of_world (hdescriptors : k.descriptors = h.descriptors)
    (hworld : h.world.Respects k.world) : Extends h k where
  next := Nat.le_of_eq (congrArg Descriptors.next hdescriptors).symm
  world := hworld.grows
  orderly horderly := by
    refine ⟨hdescriptors ▸ horderly.standard, fun e he ↦ ?_, hworld.sound horderly.sound⟩
    rw [hdescriptors] at he ⊢
    have hknown := horderly.known e he
    exact ⟨hknown.1, Nat.lt_of_lt_of_le hknown.2 hworld.grows.files⟩

theorem give {file : Nat} {world : World} (hworld : h.world.Grows world)
    (hsound : h.world.Sound → world.Sound) (hfile : file < world.files.size) :
    Extends h { h with world, descriptors := (h.descriptors.give file).2 } where
  next := Nat.le_succ _
  world := hworld
  orderly horderly := by
    refine ⟨Nat.le_succ_of_le horderly.standard, fun e he ↦ ?_, hsound horderly.sound⟩
    rcases List.mem_cons.mp he with rfl | he
    · exact ⟨Nat.lt_succ_self _, hfile⟩
    · have hknown := horderly.known e he
      exact ⟨Nat.lt_succ_of_lt hknown.1, Nat.lt_of_lt_of_le hknown.2 hworld.files⟩

end Extends

theorem extends_call (h : Host) : h.Extends { h with descriptors := h.descriptors.call.2 } :=
  .of_table rfl h.descriptors.next_call fun _ he ↦ Or.inl (h.descriptors.table_call ▸ he)

theorem extends_replace (h : Host) {source target : Nat} (htarget : target < 3) :
    h.Extends { h with descriptors := h.descriptors.replace source target } :=
  .of_table rfl (h.descriptors.next_replace _ _) fun _ he ↦
    (Descriptors.mem_replace he).imp_right fun ⟨heq, hmem⟩ ↦ ⟨heq ▸ htarget, source, hmem⟩

theorem extends_closeAll (h : Host) (fds : List Nat) :
    h.Extends { h with descriptors := h.descriptors.closeAll fds } :=
  .of_table rfl (h.descriptors.next_closeAll fds) fun _ he ↦
    Or.inl (Descriptors.mem_closeAll.mp he).1

theorem alike_write {fd : Nat} {os : Octets} (hwrite : h.write fd os = .ok k) :
    k.descriptors = h.descriptors ∧ h.world.Alike k.world ∧ ∀ c < h.world.channels.size,
      (h.world.channel c).Whole h.world.clock → (k.world.channel c).Whole h.world.clock := by
  unfold write at hwrite
  split at hwrite
  · cases hwrite
    exact ⟨rfl, .refl _, fun _ _ hwhole ↦ hwhole⟩
  · split at hwrite
    · cases hwrite
    · rename_i file _
      split at hwrite
      · cases hwrite
      cases hworld : h.world.write file os with
      | error e =>
        rw [hworld] at hwrite
        cases hwrite
      | ok world =>
        rw [hworld] at hwrite
        cases hwrite
        exact ⟨rfl, World.alike_write hworld⟩

theorem extends_write {fd : Nat} {os : Octets} (hwrite : h.write fd os = .ok k) : h.Extends k := by
  obtain ⟨hdescriptors, halike, -⟩ := alike_write hwrite
  exact .of_world hdescriptors halike.respects

/-! ## New descriptors -/

/-- A descriptor was given to a file that was opened. -/
structure Opened (h : Host) (fd : Nat) (k : Host) : Prop where
  fresh : fd = h.descriptors.next
  next : k.descriptors.next = h.descriptors.next + 1
  exists_file : ∃ file, k.descriptors.table = (fd, file) :: h.descriptors.table ∧
    h.world.Opens file k.world

theorem Opened.extends (hopened : h.Opened fd k) : h.Extends k := by
  obtain ⟨file, htable, hopens⟩ := hopened.exists_file
  refine ⟨by rw [hopened.next]; exact Nat.le_succ _, hopens.grows, fun horderly ↦ ?_⟩
  refine ⟨by rw [hopened.next]; exact Nat.le_succ_of_le horderly.standard, fun e he ↦ ?_,
    hopens.sound horderly.sound⟩
  rw [hopened.next]
  rw [htable, hopened.fresh] at he
  rcases List.mem_cons.mp he with rfl | he
  · exact ⟨Nat.lt_succ_self _, hopens.lt_size⟩
  · have hknown := horderly.known e he
    exact ⟨Nat.lt_succ_of_lt hknown.1, Nat.lt_of_lt_of_le hknown.2 hopens.grows.files⟩

theorem descriptors_openWith (f : World → Standing → Except Errno (Nat × World)) (h : Host) :
    (∃ e k, h.openWith f = (.error e, k) ∧ k.descriptors = h.descriptors.call.2) ∨
      ∃ file k, h.openWith f = (.ok h.descriptors.next, k) ∧
        k.descriptors = (h.descriptors.call.2.give file).2 := by
  have hnext := h.descriptors.next_call
  unfold openWith
  rcases hcall : h.descriptors.call with ⟨_ | e, d⟩
  · rw [hcall] at hnext
    dsimp only
    cases f h.world { h with descriptors := d }.standing with
    | error e => exact Or.inl ⟨e, _, rfl, rfl⟩
    | ok opened => exact Or.inr ⟨opened.1, _, Prod.ext (congrArg Except.ok hnext) rfl, rfl⟩
  · exact Or.inl ⟨e, _, rfl, rfl⟩

theorem descriptors_pipe (h : Host) :
    (∃ e k, h.pipe = (.error e, k) ∧ k.descriptors = h.descriptors.call.2) ∨
      ∃ file file' k, h.pipe = (.ok (h.descriptors.next, h.descriptors.next + 1), k) ∧
        k.descriptors = ((h.descriptors.call.2.give file).2.give file').2 := by
  have hnext := h.descriptors.next_call
  unfold pipe
  rcases hcall : h.descriptors.call with ⟨_ | e, d⟩
  · rw [hcall] at hnext
    rw [← hnext]
    exact Or.inr ⟨_, _, _, rfl, rfl⟩
  · exact Or.inl ⟨e, _, rfl, rfl⟩

/-- Opening gives a descriptor, or leaves the open files alone. -/
theorem openWith_cases {f : World → Standing → Except Errno (Nat × World)}
    (hf : ∀ w s file v, f w s = .ok (file, v) → w.Opens file v) (h : Host) :
    (∃ e k, h.openWith f = (.error e, k) ∧ h.Extends k) ∨
      ∃ fd k, h.openWith f = (.ok fd, k) ∧ h.Opened fd k := by
  unfold openWith
  rcases hcall : h.descriptors.call with ⟨_ | e, d⟩
  · have hd : d = h.descriptors.call.2 := by rw [hcall]
    dsimp only
    cases hopen : f h.world { h with descriptors := d }.standing with
    | error e => exact Or.inl ⟨e, _, rfl, hd ▸ h.extends_call⟩
    | ok opened =>
      refine Or.inr ⟨_, _, rfl, ?_, ?_, opened.1, ?_, hf _ _ _ _ hopen⟩
      · rw [hd]
        exact h.descriptors.next_call
      · rw [hd]
        exact congrArg (· + 1) h.descriptors.next_call
      · rw [hd]
        exact congrArg ((_, opened.1) :: ·) h.descriptors.table_call
  · have hd : d = h.descriptors.call.2 := by rw [hcall]
    exact Or.inl ⟨e, _, rfl, hd ▸ h.extends_call⟩

/-- Descriptors were given to the two ends of a new pipe. -/
structure Piped (h : Host) (reader writer : Nat) (k : Host) : Prop where
  first : reader = h.descriptors.next
  second : writer = h.descriptors.next + 1
  next : k.descriptors.next = h.descriptors.next + 2
  table : k.descriptors.table =
    (writer, h.world.files.size + 1) :: (reader, h.world.files.size) :: h.descriptors.table
  world : h.world.Pipes k.world

theorem Piped.extends {reader writer : Nat} (hpiped : h.Piped reader writer k) : h.Extends k where
  next := by
    rw [hpiped.next]
    exact Nat.le_add_right _ _
  world := hpiped.world.grows
  orderly horderly := by
    refine ⟨hpiped.next ▸ Nat.le_add_right_of_le horderly.standard, fun e he ↦ ?_,
      hpiped.world.sound horderly.sound⟩
    rw [hpiped.table, hpiped.first, hpiped.second] at he
    rw [hpiped.next, hpiped.world.files]
    rcases List.mem_cons.mp he with rfl | he
    · exact ⟨Nat.lt_succ_self _, Nat.lt_succ_self _⟩
    · rcases List.mem_cons.mp he with rfl | he
      · exact ⟨Nat.lt_add_of_pos_right Nat.two_pos, Nat.lt_add_of_pos_right Nat.two_pos⟩
      · have hknown := horderly.known e he
        exact ⟨Nat.lt_add_right 2 hknown.1, Nat.lt_add_right 2 hknown.2⟩

/-- Behind the new descriptors are the ends of the pipe, and nothing else. -/
theorem Piped.holds {reader writer : Nat} (hpiped : h.Piped reader writer k) (horderly : h.Orderly) :
    k.descriptors.Holds reader h.world.files.size ∧
      k.descriptors.Holds writer (h.world.files.size + 1) := by
  have hold (e : Nat × Nat) (he : e ∈ h.descriptors.table) : e.1 < h.descriptors.next :=
    (horderly.known e he).1
  rw [hpiped.first, hpiped.second]
  refine ⟨⟨?_, fun e he hfd ↦ ?_⟩, ⟨?_, fun e he hfd ↦ ?_⟩⟩
  · rw [hpiped.table, hpiped.first]
    exact List.mem_cons_of_mem _ List.mem_cons_self
  · rw [hpiped.table, hpiped.first, hpiped.second] at he
    rcases List.mem_cons.mp he with rfl | he
    · exact absurd hfd (Nat.succ_ne_self _)
    · rcases List.mem_cons.mp he with rfl | he
      · rfl
      · exact absurd hfd (Nat.ne_of_lt (hold e he))
  · rw [hpiped.table, hpiped.second]
    exact List.mem_cons_self
  · rw [hpiped.table, hpiped.first, hpiped.second] at he
    rcases List.mem_cons.mp he with rfl | he
    · rfl
    · rcases List.mem_cons.mp he with rfl | he
      · exact absurd hfd (Nat.succ_ne_self _).symm
      · exact absurd hfd (Nat.ne_of_lt (Nat.lt_succ_of_lt (hold e he)))

/-- Making a pipe gives two descriptors, or leaves the open files alone. -/
theorem pipe_cases (h : Host) :
    (∃ e k, h.pipe = (.error e, k) ∧ h.Extends k) ∨
      ∃ reader writer k, h.pipe = (.ok (reader, writer), k) ∧ h.Piped reader writer k := by
  unfold pipe
  rcases hcall : h.descriptors.call with ⟨_ | e, d⟩
  · have hd : d = h.descriptors.call.2 := by rw [hcall]
    have hnext : d.next = h.descriptors.next := by rw [hd]; exact h.descriptors.next_call
    have htable : d.table = h.descriptors.table := by rw [hd]; exact h.descriptors.table_call
    refine Or.inr ⟨_, _, _, rfl, hnext, congrArg (· + 1) hnext, congrArg (· + 2) hnext, ?_,
      h.world.pipes⟩
    dsimp only [Descriptors.give, World.pipe, World.openFile, World.openChannel]
    rw [htable, Array.size_push]
  · have hd : d = h.descriptors.call.2 := by rw [hcall]
    exact Or.inl ⟨e, _, rfl, hd ▸ h.extends_call⟩

end Host

end ShellEngine.Machine
