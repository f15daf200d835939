import ShellEngine.Machine.World

/-!
# What lies in a channel

A channel is *whole* at a time if all that was put in is there by then, and nothing else will ever
be (`Channel.Whole`). Whoever reads such a channel to its end gets all of it
(`Channel.octets_take`). Bytes that are put in while the channel is whole leave it whole.

Reading and writing leave open files and channels what they are (`World.Alike`), and touch no channel
but that behind the file that is read or written.
-/

namespace ShellEngine.Machine

/-! ## Parcels -/

namespace Channel

variable {c : Channel} {now count time : Nat} {os : Octets} {ps : List Parcel}

def parcels (c : Channel) : List Parcel := c.early ++ c.late.reverse

/-- The bytes in a channel. -/
def octets (c : Channel) : Octets := c.parcels.flatMap Parcel.octets

/-- Of parcels that are all there, and hold no more than is wanted, everything is taken. -/
theorem takeParcels_of_length_le (hthere : ∀ p ∈ ps, p.time ≤ now)
    (hcount : (ps.flatMap Parcel.octets).length ≤ count) :
    (takeParcels now count ps).1.flatten = ps.flatMap Parcel.octets ∧
      ((ps.flatMap Parcel.octets).length < count → (takeParcels now count ps).2 = []) := by
  fun_induction takeParcels now count ps with
  | case1 => exact ⟨rfl, fun _ ↦ rfl⟩
  | case2 ps =>
    have hnil := List.eq_nil_of_length_eq_zero (Nat.le_zero.mp hcount)
    exact ⟨hnil.symm, fun hlt ↦ absurd hlt (Nat.not_lt_zero _)⟩
  | case3 count p rest hlate =>
    exact absurd (hthere p List.mem_cons_self) (Nat.not_le.mpr hlate)
  | case4 count p rest _ got hpart =>
    have hlength : got.length = min (count + 1) p.octets.length := List.length_take
    rw [List.flatMap_cons, List.length_append] at hcount
    omega
  | case5 count p rest _ got hall more left htake ih =>
    rw [List.flatMap_cons, List.length_append] at hcount ⊢
    have hgot : got = p.octets := List.take_of_length_le (by omega)
    rw [htake] at ih
    obtain ⟨hmore, hleft⟩ := ih (fun q hq ↦ hthere q (List.mem_cons_of_mem _ hq))
      (by rw [hgot]; omega)
    refine ⟨?_, fun hlt ↦ hleft (by rw [hgot]; omega)⟩
    rw [List.flatten_cons, hmore, hgot]

/-! ## Whole channels -/

/-- All that was put in is there by some time, and nothing else will ever be. -/
structure Whole (c : Channel) (time : Nat) : Prop where
  size : c.size = c.octets.length
  endless : c.endless = []
  there : ∀ p ∈ c.parcels, p.time ≤ time

theorem Whole.mono {time' : Nat} (h : c.Whole time) (hle : time ≤ time') : c.Whole time' :=
  ⟨h.size, h.endless, fun p hp ↦ Nat.le_trans (h.there p hp) hle⟩

theorem octets_takePut (h : c.Whole now) : (c.takePut now c.size).1 = c.octets := by
  have hoctets : c.octets
      = c.early.flatMap Parcel.octets ++ c.late.reverse.flatMap Parcel.octets := by
    rw [octets, parcels, List.flatMap_append]
  have hsize := h.size
  rw [hoctets, List.length_append] at hsize
  have hearly : (c.early.flatMap Parcel.octets).length ≤ c.size := by omega
  obtain ⟨hgot, hrest⟩ := takeParcels_of_length_le
    (fun p hp ↦ h.there p (List.mem_append_left _ hp)) hearly
  have hlate (p : Parcel) (hp : p ∈ c.late.reverse) : p.time ≤ now :=
    h.there p (List.mem_append_right _ hp)
  unfold takePut
  dsimp only
  rw [hgot, hoctets]
  split
  case isTrue hmore =>
    rw [(takeParcels_of_length_le hlate (by omega)).1]
  case isFalse hmore =>
    -- The late parcels are left alone only if they are empty.
    have hnone : c.late.reverse.flatMap Parcel.octets = [] := by
      refine List.eq_nil_of_length_eq_zero (Nat.eq_zero_of_not_pos fun hpos ↦ hmore ?_)
      rw [hrest (by omega)]
      simpa [-List.length_flatMap] using (by omega : _ < c.size)
    rw [hnone, List.append_nil]

theorem octets_take (h : c.Whole now) : (c.take now c.size).1 = c.octets := by
  have hendless : (c.takePut now c.size).2.endless = [] := by
    unfold takePut
    dsimp only
    split <;> exact h.endless
  unfold take
  dsimp only
  rw [hendless, if_pos (by simp), octets_takePut h]

theorem closes_take (c : Channel) (now count : Nat) : (c.take now count).2.closes = c.closes := by
  have hput : (c.takePut now count).2.closes = c.closes := by
    unfold takePut
    dsimp only
    split <;> rfl
  unfold take
  dsimp only
  split <;> exact hput

theorem perm_insertParcel (p : Parcel) (ps : List Parcel) : (insertParcel p ps).Perm (p :: ps) := by
  induction ps with
  | nil => exact .refl _
  | cons q rest ih =>
    unfold insertParcel
    split
    · exact (ih.cons q).trans (.swap p q rest)
    · exact .refl _

theorem Whole.push (h : c.Whole time) (os : Octets) : (c.push time os).Whole time := by
  unfold Channel.push
  split
  · exact h
  · -- Wherever the new parcel stands, the parcels are the old ones and the new one.
    have hwhole (d : Channel) (hsize : d.size = c.size + os.length) (hendless : d.endless = c.endless)
        (hparcels : d.parcels.Perm (⟨time, os⟩ :: c.parcels)) : d.Whole time := by
      refine ⟨?_, hendless.trans h.endless, fun p hp ↦ ?_⟩
      · have hlength := ((hparcels.flatMap_right Parcel.octets).length_eq)
        rw [List.flatMap_cons, List.length_append] at hlength
        rw [hsize, octets, hlength, h.size, Nat.add_comm]
        rfl
      · rcases List.mem_cons.mp (hparcels.mem_iff.mp hp) with rfl | hp
        · exact Nat.le_refl _
        · exact h.there p hp
    dsimp only
    split
    · refine hwhole _ rfl rfl ?_
      simp only [parcels, List.reverse_cons, ← List.append_assoc]
      exact List.perm_append_comm
    · refine hwhole _ rfl rfl ?_
      have hparcels : (c.late ++ c.early.reverse).Perm c.parcels :=
        ((List.reverse_perm _).symm.append (List.reverse_perm _)).trans List.perm_append_comm
      exact (List.reverse_perm _).trans ((perm_insertParcel _ _).trans (hparcels.cons _))

end Channel

/-! ## Open files -/

/-- What an open file refers to, and whether it may be read and written. -/
def OpenFile.role (f : OpenFile) : Target × Bool × Bool := (f.target, f.reads, f.writes)

namespace World

variable {w v u : World} {f c count : Nat} {os : Octets}

/-- Each open file that refers to a channel refers to one that there is. -/
def Sound (w : World) : Prop := ∀ f c, (w.file f).target = .channel c → c < w.channels.size

theorem sound_iff : w.Sound ↔ ∀ f < w.files.size, match (w.file f).target with
    | .channel c => c < w.channels.size
    | .node _ => True := by
  constructor
  · intro h f _
    split
    · rename_i c hc
      exact h f c hc
    · trivial
  · intro h f c hc
    by_cases hf : f < w.files.size
    · have hchannel := h f hf
      rwa [hc] at hchannel
    · rw [file, Array.getD_eq_getD_getElem?, Array.getElem?_eq_none (Nat.le_of_not_lt hf)] at hc
      cases hc

/-- Only the open files that there are have to be looked at. -/
instance : Decidable w.Sound :=
  have (f : Nat) : Decidable (match (w.file f).target with
      | .channel c => c < w.channels.size
      | .node _ => True) :=
    match (w.file f).target with
    | .channel _ => inferInstance
    | .node _ => inferInstance
  decidable_of_iff _ sound_iff.symm

/-- Open files and channels may have been added; the open files from before are what they were, but
for their positions. -/
structure Grows (w v : World) : Prop where
  files : w.files.size ≤ v.files.size
  channels : w.channels.size ≤ v.channels.size
  role : ∀ f < w.files.size, (v.file f).role = (w.file f).role

theorem Grows.refl (w : World) : Grows w w := ⟨Nat.le_refl _, Nat.le_refl _, fun _ _ ↦ rfl⟩

theorem Grows.trans (h : Grows w v) (h' : Grows v u) : Grows w u where
  files := Nat.le_trans h.files h'.files
  channels := Nat.le_trans h.channels h'.channels
  role f hf := (h'.role f (Nat.lt_of_lt_of_le hf h.files)).trans (h.role f hf)

/-- The open files from before are what they were, and none refers to a channel that is not there. -/
structure Respects (w v : World) : Prop where
  grows : Grows w v
  sound : w.Sound → v.Sound

theorem Respects.of_eq (hfiles : v.files = w.files) (hchannels : v.channels = w.channels) :
    Respects w v where
  grows := ⟨Nat.le_of_eq (congrArg Array.size hfiles).symm,
    Nat.le_of_eq (congrArg Array.size hchannels).symm, fun f _ ↦ by rw [World.file, hfiles]; rfl⟩
  sound h f c hc := by
    rw [hchannels]
    rw [World.file, hfiles] at hc
    exact h f c hc

/-- The clock and the open files are what they were, but for positions, and so are the channels, but
for what lies in them. -/
structure Alike (w v : World) : Prop where
  clock : v.clock = w.clock
  files : v.files.size = w.files.size
  channels : v.channels.size = w.channels.size
  role : ∀ f, (v.file f).role = (w.file f).role

namespace Alike

theorem refl (w : World) : Alike w w := ⟨rfl, rfl, rfl, fun _ ↦ rfl⟩

theorem trans (h : Alike w v) (h' : Alike v u) : Alike w u where
  clock := h'.clock.trans h.clock
  files := h'.files.trans h.files
  channels := h'.channels.trans h.channels
  role f := (h'.role f).trans (h.role f)

theorem target (h : Alike w v) (f : Nat) : (v.file f).target = (w.file f).target :=
  congrArg Prod.fst (h.role f)

theorem respects (h : Alike w v) : Respects w v where
  grows := ⟨Nat.le_of_eq h.files.symm, Nat.le_of_eq h.channels.symm, fun f _ ↦ h.role f⟩
  sound hw f c hc := h.channels.symm ▸ hw f c (h.target f ▸ hc)

end Alike

theorem file_setOffset (w : World) (f offset g : Nat) :
    ((w.setOffset f offset).file g).role = (w.file g).role := by
  unfold setOffset file
  dsimp only
  rw [Array.getD_eq_getD_getElem?, Array.getD_eq_getD_getElem?, Array.getElem?_modify]
  split
  · cases w.files[g]? <;> rfl
  · rfl

theorem alike_setOffset (w : World) (f offset : Nat) : Alike w (w.setOffset f offset) :=
  ⟨rfl, Array.size_modify, rfl, w.file_setOffset f offset⟩

theorem alike_modifyChannel (w : World) (c : Nat) (g : Channel → Channel) :
    Alike w (w.modifyChannel c g) :=
  ⟨rfl, rfl, Array.size_modify, fun _ ↦ rfl⟩

theorem channel_modifyChannel_of_ne (w : World) {c d : Nat} (g : Channel → Channel) (h : c ≠ d) :
    (w.modifyChannel c g).channel d = w.channel d := by
  unfold modifyChannel channel
  dsimp only
  rw [Array.getD_eq_getD_getElem?, Array.getD_eq_getD_getElem?, Array.getElem?_modify, if_neg h]

theorem channel_modifyChannel (w : World) (g : Channel → Channel) (h : c < w.channels.size) :
    (w.modifyChannel c g).channel c = g (w.channel c) := by
  unfold modifyChannel channel
  dsimp only
  rw [Array.getD_eq_getD_getElem?, Array.getD_eq_getD_getElem?, Array.getElem?_modify, if_pos rfl,
    Array.getElem?_eq_getElem h]
  rfl

/-- Writing leaves whole whatever is whole by now. -/
theorem alike_write (h : w.write f os = .ok v) :
    Alike w v ∧ ∀ c < w.channels.size, (w.channel c).Whole w.clock → (v.channel c).Whole w.clock := by
  unfold write at h
  dsimp only at h
  split at h
  · cases h
  · split at h
    · rename_i d _
      cases h
      refine ⟨w.alike_modifyChannel _ _, fun c hc hwhole ↦ ?_⟩
      by_cases hd : d = c
      · subst hd
        rw [w.channel_modifyChannel _ hc]
        exact hwhole.push os
      · rwa [w.channel_modifyChannel_of_ne _ hd]
    · split at h
      · cases h
        have hstamped (tree : FileTree) : Alike w { w.stamped with tree } :=
          ⟨rfl, rfl, rfl, fun _ ↦ rfl⟩
        exact ⟨(hstamped _).trans (alike_setOffset _ _ _), fun _ _ hwhole ↦ hwhole⟩
      · cases h
      · cases h
      · cases h
        exact ⟨.refl w, fun _ _ hwhole ↦ hwhole⟩

theorem alike_read (h : w.read f count = .ok (os, v)) :
    Alike w v ∧ ∀ c, (w.file f).target ≠ .channel c → v.channel c = w.channel c := by
  unfold read at h
  dsimp only at h
  split at h
  · cases h
  · split at h
    · rename_i d hd
      cases h
      refine ⟨w.alike_modifyChannel _ _, fun c hc ↦ w.channel_modifyChannel_of_ne _ ?_⟩
      rintro rfl
      exact hc hd
    · split at h <;> cases h
      · exact ⟨alike_setOffset _ _ _, fun _ _ ↦ rfl⟩
      · exact ⟨alike_setOffset _ _ _, fun _ _ ↦ rfl⟩
      all_goals exact ⟨.refl w, fun _ _ ↦ rfl⟩

/-- Whoever reads a whole channel to its end gets all of it. -/
theorem readAll_of_whole {writes : Bool} (hrole : (w.file f).role = (.channel c, true, writes))
    (hwhole : (w.channel c).Whole w.clock) :
    ∃ v, w.readAll f = .ok ((w.channel c).octets, v) ∧ (v.channel c).closes = (w.channel c).closes := by
  obtain ⟨htarget, hreads, -⟩ : (w.file f).target = .channel c ∧ (w.file f).reads = true ∧
      (w.file f).writes = writes := by simpa [OpenFile.role] using hrole
  refine ⟨w.modifyChannel c fun _ ↦ ((w.channel c).take w.clock (w.channel c).size).2, ?_, ?_⟩
  · unfold readAll read
    simp [htarget, hreads, hwhole.endless, Channel.octets_take hwhole]
  · by_cases hc : c < w.channels.size
    · rw [w.channel_modifyChannel _ hc, Channel.closes_take]
    · unfold modifyChannel channel
      simp [hc]

/-! ## Opening files -/

theorem file_of_push {file : OpenFile} (hfiles : v.files = w.files.push file) (g : Nat) :
    v.file g = if g = w.files.size then file else w.file g := by
  unfold World.file
  rw [hfiles, Array.getD_eq_getD_getElem?, Array.getD_eq_getD_getElem?, Array.getElem?_push]
  split <;> rfl

/-- A file was opened: a new one, or another view of what an open file refers to. -/
structure Opens (w : World) (f : Nat) (v : World) : Prop where
  fresh : f = w.files.size
  channels : v.channels = w.channels
  clock : v.clock = w.clock
  exists_file : ∃ file, v.files = w.files.push file ∧
    ∀ c, file.target = .channel c → ∃ g, (w.file g).target = .channel c

theorem Opens.grows (h : Opens w f v) : Grows w v := by
  obtain ⟨file, hfiles, -⟩ := h.exists_file
  refine ⟨?_, Nat.le_of_eq (congrArg Array.size h.channels).symm, fun g hg ↦ ?_⟩
  · rw [hfiles, Array.size_push]
    exact Nat.le_succ _
  · rw [file_of_push hfiles, if_neg (Nat.ne_of_lt hg)]

theorem Opens.lt_size (h : Opens w f v) : f < v.files.size := by
  obtain ⟨file, hfiles, -⟩ := h.exists_file
  rw [hfiles, Array.size_push, h.fresh]
  exact Nat.lt_succ_self _

theorem Opens.sound (h : Opens w f v) (hw : w.Sound) : v.Sound := by
  obtain ⟨file, hfiles, htarget⟩ := h.exists_file
  intro g c hc
  rw [h.channels]
  rw [file_of_push hfiles] at hc
  split at hc
  · obtain ⟨g, hg⟩ := htarget c hc
    exact hw g c hg
  · exact hw g c hc

theorem opens_openFile (w : World) (tree : FileTree) (file : OpenFile)
    (htarget : ∀ c, file.target = .channel c → ∃ g, (w.file g).target = .channel c) :
    Opens w ({ w with tree }.openFile file).1 ({ w with tree }.openFile file).2 :=
  ⟨rfl, rfl, rfl, file, rfl, htarget⟩

/-- Changes in the file tree make no difference. -/
theorem Opens.of_tree {tree : FileTree} (h : Opens { w with tree } f v) : Opens w f v :=
  ⟨h.fresh, h.channels, h.clock, h.exists_file⟩

theorem opens_reopen {g : Nat} {m : OpenMode} (h : w.reopen g m = .ok (f, v)) : Opens w f v := by
  have hsame (c : Nat) (hc : (w.file g).target = .channel c) :
      ∃ g, (w.file g).target = .channel c := ⟨g, hc⟩
  unfold reopen at h
  dsimp only at h
  split at h
  · cases h
    exact opens_openFile w w.tree _ hsame
  · split at h
    · split at h <;> cases h
      exact opens_openFile w w.tree _ hsame
    · split at h <;> cases h <;> exact opens_openFile w _ _ hsame
    · cases h
      exact opens_openFile w w.tree _ hsame

theorem opens_openPath {s : Standing} {path : Octets} {m : OpenMode}
    (h : w.openPath s path m = .ok (f, v)) : Opens w f v := by
  unfold openPath at h
  dsimp only [Bind.bind, Except.bind] at h
  -- Whatever the path leads to, whether it was made or was there, only that counts from here on.
  split at h <;> split at h
  case h_1 | h_1 => cases h
  all_goals
    split at h
    · split at h
      · exact (opens_reopen h).of_tree (w := w.stamped) |>.of_tree
      · cases h
    · cases h
    · cases h
      exact opens_openFile w _ _ fun _ hc ↦ nomatch hc

/-! ## New pipes -/

/-- A pipe was made: the two ends of a channel in which nothing lies. -/
structure Pipes (w v : World) : Prop where
  files : v.files.size = w.files.size + 2
  channels : v.channels.size = w.channels.size + 1
  role : ∀ f < w.files.size, v.file f = w.file f
  reader : (v.file w.files.size).role = (.channel w.channels.size, true, false)
  writer : (v.file (w.files.size + 1)).role = (.channel w.channels.size, false, true)
  empty : v.channel w.channels.size = {}
  channel : ∀ c < w.channels.size, v.channel c = w.channel c
  clock : v.clock = w.clock

theorem pipes (w : World) : Pipes w w.pipe.2 where
  files := by simp [pipe, openFile, openChannel]
  channels := by simp [pipe, openFile, openChannel]
  role f hf := by
    simp [pipe, openFile, openChannel, World.file, Array.getElem?_push, Nat.ne_of_lt hf,
      Nat.ne_of_lt (Nat.lt_succ_of_lt hf)]
  reader := by
    have hlast (files : Array OpenFile) (file other : OpenFile) :
        ((files.push other).push file).getD files.size default = other := by
      have hne : files.size ≠ (files.push other).size := by
        rw [Array.size_push]
        exact (Nat.succ_ne_self _).symm
      rw [Array.getD_eq_getD_getElem?, Array.getElem?_push, if_neg hne, Array.getElem?_push,
        if_pos rfl]
      rfl
    exact congrArg OpenFile.role (hlast _ _ _)
  writer := by
    have hlast (files : Array OpenFile) (file other : OpenFile) :
        ((files.push other).push file).getD (files.size + 1) default = file := by
      rw [Array.getD_eq_getD_getElem?, Array.getElem?_push, if_pos (Array.size_push _).symm]
      rfl
    exact congrArg OpenFile.role (hlast _ _ _)
  empty := by simp [pipe, openFile, openChannel, World.channel]
  channel c hc := by
    simp [pipe, openFile, openChannel, World.channel, Array.getElem?_push, Nat.ne_of_lt hc]
  clock := rfl

namespace Pipes

theorem grows (h : Pipes w v) : Grows w v where
  files := h.files ▸ Nat.le_add_right _ _
  channels := h.channels ▸ Nat.le_add_right _ _
  role f hf := congrArg OpenFile.role (h.role f hf)

theorem sound (h : Pipes w v) (hw : w.Sound) : v.Sound := by
  intro f c hc
  rw [h.channels]
  rcases Nat.lt_trichotomy f w.files.size with hf | rfl | hf
  · rw [h.role f hf] at hc
    exact Nat.lt_succ_of_lt (hw f c hc)
  · have htarget := congrArg Prod.fst h.reader
    cases htarget.symm.trans hc
    exact Nat.lt_succ_self _
  · rcases Nat.eq_or_lt_of_le hf with rfl | hf
    · have htarget := congrArg Prod.fst h.writer
      cases htarget.symm.trans hc
      exact Nat.lt_succ_self _
    · have hsize : v.files.size ≤ f := by
        rw [h.files]
        exact hf
      rw [World.file, Array.getD_eq_getD_getElem?, Array.getElem?_eq_none hsize] at hc
      cases hc

end Pipes

end World

end ShellEngine.Machine
