import ShellEngine.Proofs.Engine.Sparing

/-!
# Draining a pipe

When the streams of a stage are put back, the pipe behind a standard output that goes to a buffer has
one end left, and a pump works on it (`Session.Drains`). All that lies in the pipe is in the buffer
once everything was drained (`Drains.finalize`), whatever the other pumps do before.
-/

namespace ShellEngine

open Machine

namespace OutputBuffer

variable {name : String} {front bs : Bytes}

theorem settle_write : ((({ contents := front, drains := [{ name }] } : OutputBuffer).write name
    bs).2.settle) = { contents := front ++ bs, drains := [{ name }] } := by
  simp [write, alter, settle]

theorem settle_close : ((({ contents := front, drains := [{ name }] } : OutputBuffer).close
    name).2.settle) = { contents := front } := by
  simp [close, alter, settle]

end OutputBuffer

namespace Session

theorem buffer_modify_self {buffers : Array OutputBuffer} {key : Nat}
    (f : OutputBuffer → OutputBuffer) (h : key < buffers.size) :
    (buffers.modify key f).getD key {} = f (buffers.getD key {}) := by
  rw [Array.getD_eq_getD_getElem?, Array.getD_eq_getD_getElem?, Array.getElem?_modify, if_pos rfl,
    Array.getElem?_eq_getElem h]
  rfl

variable {s t : Session} {own p : Pump} {channel : Nat} {front : Bytes} {c : Channel}

/-- The last pump is the only one on its buffer, and has the only end of a channel. What lies in the
channel is there when that is closed. -/
structure Drains (s : Session) (own : Pump) (channel : Nat) (front : Bytes) (c : Channel) : Prop where
  there : own.buffer < s.buffers.size
  buffer : s.buffer own.buffer = { contents := front, drains := [{ name := toString own.descriptor }] }
  pumps : ∃ others, s.pumps = others ++ [own] ∧
    ∀ p ∈ others, p.buffer ≠ own.buffer ∧ p.descriptor ≠ own.descriptor
  reads : ∃ file, s.host.descriptors.Holds own.descriptor file ∧
    (s.host.world.file file).role = (.channel channel, true, false)
  alone : ∀ e ∈ s.host.descriptors.table, e.1 ≠ own.descriptor →
    (s.host.world.file e.2).target ≠ .channel channel
  contents : s.host.world.channel channel = c
  whole : c.Whole (max s.now c.closes)

namespace Drains

theorem rests (h : s.Drains own channel front c) (hrests : Rests s t) :
    t.Drains own channel front c := by
  have hfile (f : Nat) : t.host.world.file f = s.host.world.file f := by
    rw [World.file, World.file, hrests.files]
  have hchannel : t.host.world.channel channel = s.host.world.channel channel := by
    rw [World.channel, World.channel, hrests.channels]
  refine ⟨?_, ?_, ?_, ?_, ?_, ?_, ?_⟩
  · rw [hrests.buffers]
    exact h.there
  · rw [Session.buffer, hrests.buffers]
    exact h.buffer
  · rw [hrests.pumps]
    exact h.pumps
  · simp only [hrests.descriptors, hfile]
    exact h.reads
  · simp only [hrests.descriptors, hfile]
    exact h.alone
  · rw [hchannel]
    exact h.contents
  · exact h.whole.mono (Nat.max_le_of_le_of_le (Nat.le_trans hrests.now (Nat.le_max_left _ _))
      (Nat.le_max_right _ _))

/-! ## Other pumps -/

theorem moved {got : Octets} {world : World} (h : s.Drains own channel front c)
    (hne : p.buffer ≠ own.buffer ∧ p.descriptor ≠ own.descriptor) (hreads : s.Reads p got world) :
    (s.moved p got world).Drains own channel front c := by
  have hchannel : world.channel channel = s.host.world.channel channel :=
    hreads.channel channel fun file hmem ↦ h.alone _ hmem hne.2
  obtain ⟨file, hholds, hrole⟩ := h.reads
  refine ⟨?_, ?_, h.pumps, ⟨file, hholds, (hreads.alike.role file).trans hrole⟩, fun e he hother ↦ ?_,
    hchannel.trans h.contents, ?_⟩
  · exact Nat.lt_of_lt_of_eq h.there Array.size_modify.symm
  · exact (buffer_modify_of_ne _ hne.1).trans h.buffer
  · exact fun htarget ↦ h.alone e he hother ((hreads.alike.target e.2).symm.trans htarget)
  · change c.Whole (max world.clock c.closes)
    rw [hreads.alike.clock]
    exact h.whole

theorem stopped (h : s.Drains own channel front c)
    (hne : p.buffer ≠ own.buffer ∧ p.descriptor ≠ own.descriptor) :
    (s.stopped p).Drains own channel front c := by
  obtain ⟨others, hpumps, hothers⟩ := h.pumps
  obtain ⟨file, hholds, hrole⟩ := h.reads
  refine ⟨?_, ?_, ⟨others.filter (·.descriptor != p.descriptor), ?_, fun q hq ↦ ?_⟩,
    ⟨file, ⟨List.mem_filter.mpr ⟨hholds.mem, bne_iff_ne.mpr hne.2.symm⟩, fun e he ↦ ?_⟩, hrole⟩,
    fun e he ↦ h.alone e (List.mem_filter.mp he).1, h.contents, h.whole⟩
  · exact Nat.lt_of_lt_of_eq h.there Array.size_modify.symm
  · exact (buffer_modify_of_ne _ hne.1).trans h.buffer
  · change s.pumps.filter _ = _
    simp [hpumps, List.filter_append, hne.2.symm]
  · exact hothers q (List.mem_filter.mp hq).1
  · exact hholds.unique e (List.mem_filter.mp he).1

theorem runPump_of_ne (h : s.Drains own channel front c)
    (hne : p.buffer ≠ own.buffer ∧ p.descriptor ≠ own.descriptor) :
    (s.runPump p).Drains own channel front c := by
  obtain ⟨got, world, hreads, hrun⟩ := s.runPump_cases p
  have hmoved := h.moved hne hreads
  rw [hrun]
  split
  · exact hmoved
  · exact hmoved.stopped hne

theorem foldl_runPump {ps : List Pump} (h : s.Drains own channel front c)
    (hps : ∀ p ∈ ps, p.buffer ≠ own.buffer ∧ p.descriptor ≠ own.descriptor) :
    (ps.foldl runPump s).Drains own channel front c := by
  induction ps generalizing s with
  | nil => exact h
  | cons p ps ih =>
    exact ih (h.runPump_of_ne (hps p List.mem_cons_self)) fun q hq ↦ hps q (List.mem_cons_of_mem _ hq)

/-! ## The pump itself -/

/-- The pipe behind a descriptor is closed when its channel is. -/
theorem closingTime_of_holds {fd file : Nat} (hholds : s.host.descriptors.Holds fd file)
    (htarget : (s.host.world.file file).target = .channel channel) :
    s.closingTime fd = (s.host.world.channel channel).closes := by
  rw [closingTime, hholds.file?]
  change s.host.world.closingTime file = _
  rw [World.closingTime, World.channelOf?, htarget]

theorem holdsWriter_eq_false {fd file : Nat} (hholds : s.host.descriptors.Holds fd file)
    (hrole : (s.host.world.file file).role = (.channel channel, true, false))
    (halone : ∀ e ∈ s.host.descriptors.table, e.1 ≠ fd →
      (s.host.world.file e.2).target ≠ .channel channel) : s.holdsWriter fd = false := by
  have htarget : s.host.target? fd = some (.channel channel) := by
    rw [Host.target?, hholds.file?]
    exact congrArg some (congrArg Prod.fst hrole)
  rw [holdsWriter, htarget, List.any_eq_false]
  intro e he
  by_cases hfd : e.1 = fd
  · rw [hholds.unique e he hfd]
    have hwrites : (s.host.world.file file).writes = false := congrArg (·.2.2) hrole
    simp [hwrites]
  · simpa using fun _ ↦ halone e he hfd

/-- Once the channel is closed, the pump moves all that lies in it, and ends. -/
theorem runPump_self (h : s.Drains own channel front c) (hclosed : c.closes ≤ s.now) :
    (s.runPump own).Settled own.buffer ∧
      (s.runPump own).buffer own.buffer = { contents := front ++ c.octets.toBytes } := by
  obtain ⟨file, hholds, hrole⟩ := h.reads
  obtain ⟨others, hpumps, hothers⟩ := h.pumps
  have hwhole : (s.host.world.channel channel).Whole s.host.world.clock :=
    h.contents ▸ h.whole.mono (Nat.max_le_of_le_of_le (Nat.le_refl _) hclosed)
  obtain ⟨v, hread, hcloses⟩ := World.readAll_of_whole hrole hwhole
  obtain ⟨got, world, hreads, hrun⟩ := s.runPump_cases own
  obtain ⟨rfl, rfl⟩ := hreads.got file _ v hholds.file? hread
  have hrole' : (world.file file).role = (.channel channel, true, false) :=
    (hreads.alike.role file).trans hrole
  rw [h.contents] at hread hcloses hreads hrun
  generalize hgot : c.octets = got at hread hreads hrun
  have hends : ¬ ((s.moved own got world).now < (s.moved own got world).closingTime own.descriptor ||
      (s.moved own got world).holdsWriter own.descriptor) = true := by
    have hclosing : (s.moved own got world).closingTime own.descriptor = _ :=
      closingTime_of_holds (s := s.moved own got world) hholds (congrArg Prod.fst hrole')
    have hwriter : (s.moved own got world).holdsWriter own.descriptor = false :=
      holdsWriter_eq_false (s := s.moved own got world) hholds hrole' fun e he hne htarget ↦
        h.alone e he hne ((hreads.alike.target e.2).symm.trans htarget)
    have hnow : (s.moved own got world).now = s.now := hreads.alike.clock
    rw [hclosing, hwriter, hnow, Bool.or_false, decide_eq_true_iff, Nat.not_lt]
    exact Nat.le_trans (Nat.le_of_eq hcloses) hclosed
  rw [hrun, if_neg hends]
  have hsize : (s.moved own got world).buffers.size = s.buffers.size := Array.size_modify
  refine ⟨⟨?_, fun p hp ↦ ?_⟩, ?_⟩
  · exact Nat.lt_of_lt_of_eq h.there (Array.size_modify.trans hsize).symm
  · obtain ⟨hp, hne⟩ := List.mem_filter.mp hp
    rcases List.mem_append.mp (hpumps ▸ hp : p ∈ others ++ [own]) with hp | hp
    · exact (hothers p hp).1
    · rw [List.mem_singleton.mp hp] at hne
      simp at hne
  · have hmoved : (s.moved own got world).buffer own.buffer
        = { contents := front ++ got.toBytes, drains := [{ name := toString own.descriptor }] } := by
      refine (buffer_modify_self _ h.there).trans ?_
      rw [show s.buffers.getD own.buffer {} = _ from h.buffer]
      exact OutputBuffer.settle_write
    refine (buffer_modify_self _ (hsize ▸ h.there)).trans ?_
    rw [show (s.moved own got world).buffers.getD own.buffer {} = _ from hmoved]
    exact OutputBuffer.settle_close

/-! ## All pumps -/

theorem le_foldl_max {n start : Nat} {ns : List Nat} (h : n ≤ start ∨ n ∈ ns) :
    n ≤ ns.foldl max start := by
  induction ns generalizing start with
  | nil => exact h.resolve_right List.not_mem_nil
  | cons m ns ih =>
    rcases h with h | h
    · exact ih (Or.inl (Nat.le_trans h (Nat.le_max_left start m)))
    · rcases List.mem_cons.mp h with rfl | h
      · exact ih (Or.inl (Nat.le_max_right start n))
      · exact ih (Or.inr h)

theorem now_foldl_runPump (ps : List Pump) (s : Session) : (ps.foldl runPump s).now = s.now := by
  induction ps generalizing s with
  | nil => rfl
  | cons p ps ih =>
    refine (ih _).trans ?_
    obtain ⟨got, world, hreads, hrun⟩ := s.runPump_cases p
    rw [hrun]
    split <;> exact hreads.alike.clock

theorem le_now_passUntil (s : Session) (time : Nat) : time ≤ (s.passUntil time).now := by
  let later : Session :=
    { s with host := { s.host with world := { s.host.world with clock := max s.now time } } }
  exact Nat.le_trans (Nat.le_max_right s.now time) (Rests.lapse.catchUp later).now

/-- **All that lies in the channel is in the buffer** once everything was drained into it. -/
theorem finalize {buffers : List Nat} (h : s.Drains own channel front c)
    (hmem : own.buffer ∈ buffers) : (s.finalize buffers).Settled own.buffer ∧
      (s.finalize buffers).buffer own.buffer = { contents := front ++ c.octets.toBytes } := by
  obtain ⟨file, hholds, hrole⟩ := h.reads
  obtain ⟨others, hpumps, hothers⟩ := h.pumps
  have hrests := Rests.lapse.passUntil s (s.drainingTime buffers)
  -- By then the channel is closed.
  have hclosed : c.closes ≤ s.drainingTime buffers := by
    rw [← h.contents, ← closingTime_of_holds hholds (congrArg Prod.fst hrole)]
    refine le_foldl_max (Or.inr (List.mem_map.mpr ⟨own, List.mem_filter.mpr ⟨?_, ?_⟩, rfl⟩))
    · rw [hpumps]
      exact List.mem_append_right _ (List.mem_singleton.mpr rfl)
    · simpa using hmem
  rw [finalize_eq, runPumps, hrests.pumps, hpumps, List.foldl_append]
  refine ((h.rests hrests).foldl_runPump hothers).runPump_self ?_
  rw [now_foldl_runPump]
  exact Nat.le_trans hclosed (le_now_passUntil s _)

end Drains

/-! ## What was gathered -/

/-- What was gathered so far lies in a buffer on which no pump works. Without a buffer that is
nothing. -/
def Gathered (s : Session) (last : Option Nat) (bs : Bytes) : Prop :=
  match last with
  | none => bs = []
  | some key => s.Settled key ∧ s.buffer key = { contents := bs }

theorem Gathered.spares {last : Option Nat} {bs : Bytes} (h : s.Gathered last bs)
    (hspares : Spares s t) : t.Gathered last bs := by
  cases last with
  | none => exact h
  | some key => exact ⟨hspares.settled key h.1, (hspares.buffer key h.1).trans h.2⟩

theorem Orderly.commence {key fd : Nat} (h : s.Orderly) (hkey : key < s.buffers.size)
    (hfd : fd < s.host.descriptors.next) : (s.commence key fd).Orderly := by
  refine ⟨h.host, fun p hp ↦ ?_⟩
  have hsize : (s.commence key fd).buffers.size = s.buffers.size := Array.size_modify
  rw [hsize]
  rcases List.mem_append.mp hp with hp | hp
  · exact h.pumps p hp
  · rw [List.mem_singleton.mp hp]
    exact ⟨hkey, hfd⟩

def output (s : Session) : Octets :=
  match s.host.target? 1 with
  | some (.channel c) => (s.host.world.channel c).octets
  | _ => []

namespace Taps

variable {r placed : RunningStage} {snapshot : Snapshot} {reader key : Nat} {u v : Session}

/-- A stage that writes to a buffer goes on where the last one ended, or gets a new buffer. -/
theorem gathered (h : s.Taps r placed snapshot reader channel t) (horderly : s.Orderly)
    (hkey : r.stdoutBuffer.getD s.buffers.size = key) (hfront : s.Gathered r.stdoutBuffer front) :
    t.Gathered (some key) front := by
  have hbuffers := h.buffers
  subst hkey
  cases hlast : r.stdoutBuffer with
  | some key =>
    rw [hlast] at hfront
    exact hfront.spares h.spares
  | none =>
    rw [hlast] at hfront hbuffers
    obtain rfl : front = [] := hfront
    refine ⟨⟨?_, fun p hp ↦ ?_⟩, ?_⟩
    · simp [hbuffers]
    · rw [h.pumps] at hp
      exact Nat.ne_of_lt (horderly.pumps p hp).1
    · simp [Session.buffer, hbuffers]

theorem plumbing_eq (h : s.Taps r placed snapshot reader channel t)
    (hkey : r.stdoutBuffer.getD s.buffers.size = key) (hdrains : r.pendingDrains = []) :
    placed.plumbing = (some key, r.stderrBuffer, [(key, reader)]) := by
  have hplaced : placed.plumbing = placed.unfed.plumbing := rfl
  rw [hplaced, h.stage, hdrains, hkey]
  rfl

theorem stage_eq (h : s.Taps r placed snapshot reader channel t) : placed.stage = r.stage :=
  (congrArg RunningStage.stage h.stage :)

theorem stdoutBuffer_ne_none (h : s.Taps r placed snapshot reader channel t) :
    placed.stdoutBuffer ≠ none := by
  have hbuffer : placed.stdoutBuffer = _ := (congrArg RunningStage.stdoutBuffer h.stage :)
  rw [hbuffer]
  exact Option.some_ne_none _

theorem output_eq (h : s.Taps r placed snapshot reader channel t)
    (hdescriptors : v.host.descriptors = t.host.descriptors)
    (hgrows : t.host.world.Grows v.host.world) :
    v.host.target? 1 = some (.channel channel) ∧
      v.output = (v.host.world.channel channel).octets := by
  obtain ⟨file, hlt, hholds, hrole⟩ := h.host.writes
  have htarget : v.host.target? 1 = some (.channel channel) := by
    rw [Host.target?, hdescriptors, hholds.file?]
    exact congrArg some (congrArg Prod.fst ((hgrows.role file hlt).trans hrole))
  exact ⟨htarget, by rw [output, htarget]⟩

/-- Once the streams of a stage were put back, its pipe is being drained: `v` is the session before,
and `u` the one after. -/
theorem drains (h : s.Taps r placed snapshot reader channel t) (horderly : s.Orderly)
    (hkey : r.stdoutBuffer.getD s.buffers.size = key) (hfront : s.Gathered r.stdoutBuffer front)
    (hdescriptors : v.host.descriptors = t.host.descriptors)
    (hgrows : t.host.world.Grows v.host.world)
    (hwhole : (v.host.world.channel channel).Whole (max v.now (v.host.world.channel channel).closes))
    (hhost : u.host = (v.revert snapshot).host) (hbuffers : u.buffers = (t.commence key reader).buffers)
    (hpumps : u.pumps = (t.commence key reader).pumps) :
    u.Drains ⟨key, reader⟩ channel front (v.host.world.channel channel) := by
  obtain ⟨hsettled, hbuffer⟩ := h.gathered horderly hkey hfront
  obtain ⟨file, hlt, hrole, hleft⟩ := h.host.left
  obtain ⟨hholds, hentries⟩ := hleft v.host hdescriptors
  have htable : u.host.descriptors = (snapshot.revertStreams v.host).descriptors :=
    congrArg Host.descriptors hhost
  have hworld : u.host.world = v.host.world :=
    (congrArg Host.world hhost).trans (snapshot.world_revertStreams v.host)
  rw [← htable] at hholds hentries
  rw [← hworld] at hgrows
  refine ⟨?_, ?_, ⟨t.pumps, hpumps, fun p hp ↦ ⟨hsettled.idle p hp, ?_⟩⟩,
    ⟨file, hholds, (hgrows.role file hlt).trans hrole⟩, fun e he hne ↦ ?_, by rw [hworld], ?_⟩
  · rw [hbuffers]
    exact Nat.lt_of_lt_of_eq hsettled.there Array.size_modify.symm
  · rw [Session.buffer, hbuffers]
    refine (buffer_modify_self _ hsettled.there).trans ?_
    rw [show t.buffers.getD key {} = _ from hbuffer]
    rfl
  · rw [h.pumps] at hp
    exact Nat.ne_of_lt (Nat.lt_of_lt_of_le (horderly.pumps p hp).2 h.host.fresh)
  · -- Whatever else there is was there before the channel.
    have hmem := (hentries e he).resolve_right hne
    have hfile := (horderly.host.known e hmem).2
    intro htarget
    refine Nat.not_lt.mpr h.host.apart (horderly.host.sound e.2 channel ?_)
    exact (congrArg Prod.fst ((h.host.host.world.trans hgrows).role e.2 hfile)).symm.trans htarget
  · rwa [now, hworld]

end Taps

end Session

end ShellEngine
