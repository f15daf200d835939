import ShellEngine.Proofs.Engine.Draining
import ShellEngine.Proofs.Process.Collecting
import ShellEngine.Proofs.Text.Octets

/-!
# Replaying a buffer

A buffer is replayed through a new pipe: all its contents are put in, and the end to write to is
closed. Whoever reads the pipe to its end gets the contents (`Session.delivers_replay`), and so, if
the buffer was waited for, all that was written to the pipes that were drained into it
(`Collection.conserved_run`).
-/

namespace ShellEngine

open Machine

namespace Machine

/-! ## Bytes in a new pipe -/

theorem Channel.octets_push_empty (time : Nat) (os : Octets) :
    (({} : Channel).push time os).octets = os ∧ (({} : Channel).push time os).closes = 0 := by
  unfold Channel.push
  split
  · rename_i hempty
    rw [List.isEmpty_iff.mp hempty]
    exact ⟨rfl, rfl⟩
  · simp [Channel.octets, Channel.parcels]

theorem Channel.whole_empty (time : Nat) : ({} : Channel).Whole time :=
  ⟨rfl, rfl, fun _ hp ↦ nomatch hp⟩

namespace Host

variable {h k : Host} {fd file c reader writer : Nat} {reads : Bool}

theorem exists_write (hholds : h.descriptors.Holds fd file)
    (hrole : (h.world.file file).role = (.channel c, reads, true)) (hc : c < h.world.channels.size)
    (hown : (h.world.channel c).capacity = none) (os : Octets) : ∃ k, h.write fd os = .ok k ∧
      k.world.channel c = (h.world.channel c).push h.world.clock os := by
  unfold write
  split
  · rename_i hempty
    refine ⟨h, rfl, ?_⟩
    rw [Channel.push, if_pos hempty]
  · have hwrites : (h.world.file file).writes = true := congrArg (·.2.2) hrole
    have htarget : (h.world.file file).target = .channel c := congrArg Prod.fst hrole
    have hwhole : h.world.isBroken file = false := by
      simp [World.isBroken, World.channelOf?, htarget, hown]
    rw [hholds.file?]
    refine ⟨{ h with world := h.world.modifyChannel c fun ch ↦ ch.push h.world.clock os }, ?_,
      World.channel_modifyChannel _ _ hc⟩
    simp only [hwhole, World.write, hwrites, htarget, Bool.not_true, Bool.false_eq_true, if_false]
    rfl

/-- No descriptor from before a pipe was made refers to the pipe. -/
theorem Piped.target_ne (hpiped : h.Piped reader writer k) (horderly : h.Orderly) {e : Nat × Nat}
    (he : e ∈ h.descriptors.table) :
    (k.world.file e.2).target ≠ .channel h.world.channels.size := by
  rw [hpiped.world.role e.2 (horderly.known e he).2]
  exact fun htarget ↦ Nat.lt_irrefl _ (horderly.sound e.2 _ htarget)

end Host

end Machine

namespace Session

/-- Whoever reads a descriptor to its end gets certain bytes, and there is nothing to come. -/
structure Delivers (s : Session) (fd : Nat) (bs : Bytes) : Prop where
  reads : ∃ os world,
    (s.host.descriptors.file? fd).map s.host.world.readAll = some (.ok (os, world)) ∧
      os.toBytes = bs
  closes : s.closingTime fd ≤ s.now
  alone : s.holdsWriter fd = false

variable {s t : Session} {key reader fd file c : Nat}

/-- The only end of a channel that is whole and closed delivers what lies in it. -/
theorem delivers_of_holds (hholds : s.host.descriptors.Holds fd file)
    (hrole : (s.host.world.file file).role = (.channel c, true, false))
    (halone : ∀ e ∈ s.host.descriptors.table, e.1 ≠ fd →
      (s.host.world.file e.2).target ≠ .channel c)
    (hwhole : (s.host.world.channel c).Whole s.now)
    (hcloses : (s.host.world.channel c).closes ≤ s.now) :
    s.Delivers fd (s.host.world.channel c).octets.toBytes where
  reads := by
    obtain ⟨world, hread, -⟩ := World.readAll_of_whole hrole hwhole
    exact ⟨_, world, by rw [hholds.file?, Option.map_some, hread], rfl⟩
  closes := by
    rw [Drains.closingTime_of_holds hholds (congrArg Prod.fst hrole)]
    exact hcloses
  alone := Drains.holdsWriter_eq_false hholds hrole halone

theorem delivers_replay (horderly : s.host.Orderly) (h : s.replay key = (.ok reader, t)) :
    t.Delivers reader (s.contents key) := by
  unfold replay at h
  rcases Host.pipe_cases s.host with ⟨e, k, hpipe, -⟩ | ⟨reader, writer, k, hpipe, hpiped⟩
  · rw [hpipe] at h
    cases h
  rw [hpipe] at h
  obtain ⟨hreader, hwriter⟩ := hpiped.holds horderly
  obtain ⟨written, hwrite, hchannel⟩ := Host.exists_write hwriter hpiped.world.writer
    (Nat.lt_of_lt_of_eq (Nat.lt_succ_self _) hpiped.world.channels.symm)
    (by rw [hpiped.world.empty]) (.ofBytes (s.contents key))
  obtain ⟨hdescriptors, halike, -⟩ := Host.alike_write hwrite
  dsimp only at h
  rw [hwrite] at h
  obtain ⟨hfd, rfl⟩ := Prod.mk.inj h
  obtain rfl := Except.ok.inj hfd
  obtain ⟨hoctets, hcloses⟩ := Channel.octets_push_empty k.world.clock (.ofBytes (s.contents key))
  rw [hpiped.world.empty] at hchannel
  rw [← hchannel] at hoctets hcloses
  rw [← Octets.toBytes_ofBytes (s.contents key), ← hoctets]
  have hmem {e : Nat × Nat} (he : e ∈ (written.descriptors.close writer).table) :
      e ∈ k.descriptors.table ∧ e.1 ≠ writer := by
    rw [hdescriptors] at he
    exact ⟨(List.mem_filter.mp he).1, bne_iff_ne.mp (List.mem_filter.mp he).2⟩
  refine delivers_of_holds ⟨?_, fun e he ↦ hreader.unique e (hmem he).1⟩
    ((halike.role _).trans hpiped.world.reader) (fun e he hother ↦ ?_) ?_ ?_
  · have hne : reader ≠ writer := by
      rw [hpiped.first, hpiped.second]
      exact (Nat.succ_ne_self _).symm
    rw [hdescriptors]
    exact List.mem_filter.mpr ⟨hreader.mem, bne_iff_ne.mpr hne⟩
  · -- All other descriptors were there before the pipe.
    obtain ⟨hbefore, hwrites⟩ := hmem he
    rw [hpiped.table] at hbefore
    dsimp only
    rw [halike.target e.2]
    rcases List.mem_cons.mp hbefore with rfl | hbefore
    · exact absurd rfl hwrites
    · rcases List.mem_cons.mp hbefore with rfl | hbefore
      · exact absurd rfl hother
      · exact hpiped.target_ne horderly hbefore
  · dsimp only
    rw [hchannel]
    exact (Channel.whole_empty _).push _ |>.mono (Nat.le_of_eq halike.clock.symm)
  · rw [hcloses]
    exact Nat.zero_le _

end Session

namespace Collection

/-- **No output is lost.** Whatever is done with a buffer and the pipes that are drained into it, no
byte is lost or comes in before another of the same pipe, and the buffer is final exactly when no
pump is at work. A wait ends at the first turn at which the buffer is final, and what is replayed
then is all that the buffer contains. -/
theorem conserved_run (steps : List BufferStep) (moments : List Moment) :
    let t := run {} steps
    t.Conserved ∧
    (∀ u, t.wait none moments = some u → u.Conserved ∧ u.buffer.isFinal = true ∧
      (∃ before after, moments = before ++ .turn :: after ∧ u = t.pass before) ∧
      ∀ {s s' : Session} {key reader : Nat}, s.host.Orderly → s.buffer key = u.buffer →
        s.replay key = (.ok reader, s') → s'.Delivers reader u.buffer.contents) ∧
    ∀ before after, moments = before ++ .turn :: after → (t.pass before).buffer.isFinal = true →
      (t.wait none moments).isSome = true := by
  have hsound := sound_empty.run steps
  refine ⟨hsound.conserved, fun u hwait ↦ ?_, fun before after hmoments hfinal ↦ ?_⟩
  · obtain ⟨hfinal, before, after, hmoments, rfl⟩ := wait_eq_some hwait
    refine ⟨(hsound.pass before).conserved, hfinal, ⟨before, after, hmoments, rfl⟩, ?_⟩
    intro s s' key reader horderly hkey hreplay
    rw [← hkey]
    exact Session.delivers_replay horderly hreplay
  · rw [hmoments]
    exact isSome_wait (fun n hn ↦ nomatch hn) hfinal

/-- Two pipes are drained at the same time, each of them in parts. -/
def interleaved : Collection :=
  run {} [.commence "a", .write "a" [1, 2, 3], .commence "b", .write "b" [7, 8], .pump "a" 2,
    .pump "b" 1, .clone]

/-- While somebody waits, the first pump ends, and later the second one. A third one is started
after the wait. -/
def meanwhile : List Moment :=
  [.turn, .step (.close "a"), .step (.pump "a" 4096), .turn, .step (.finish "a"), .turn,
    .step (.pump "b" 5), .step (.close "b"), .step (.finish "b"), .turn, .step (.commence "c"),
    .turn]

/-- A session with what was collected in its first buffer. -/
def replaying : Session where
  settings := {}
  host :=
    { world := { tree := FileTree.empty }
      cwd := FileTree.root
      descriptors := { table := [] } }
  buffers := #[{ contents := [1, 2, 7, 3, 8], clones := 1 }]

theorem conserved_run_interleaved : ∃ u s', interleaved.wait none meanwhile = some u ∧
    u.buffer.isFinal = true ∧ replaying.host.Orderly ∧ replaying.buffer 0 = u.buffer ∧
    replaying.replay 0 = (.ok 3, s') ∧ s'.Delivers 3 [1, 2, 7, 3, 8] ∧
    (interleaved.wait none meanwhile).isSome = true := by
  have horderly : replaying.host.Orderly :=
    { standard := by decide
      known := by intro e he; exact absurd he List.not_mem_nil
      sound := by decide }
  have hbuffer :
      (interleaved.wait none meanwhile).map Collection.buffer = some (replaying.buffer 0) := by
    decide +kernel
  have hreplay : (replaying.replay 0).1 = .ok 3 := rfl
  obtain ⟨u, hwait, hu⟩ := Option.map_eq_some_iff.mp hbuffer
  obtain ⟨-, hwaits, hturns⟩ := conserved_run _ meanwhile
  obtain ⟨-, hfinal, ⟨before, after, hmoments, hpass⟩, hdelivers⟩ := hwaits u hwait
  have hcontents : u.buffer.contents = [1, 2, 7, 3, 8] := by rw [hu]; rfl
  exact ⟨u, (replaying.replay 0).2, hwait, hfinal, horderly, hu.symm, Prod.ext hreplay rfl,
    hcontents ▸ hdelivers horderly hu.symm (Prod.ext hreplay rfl),
    hturns before after hmoments (hpass ▸ hfinal)⟩

end Collection

end ShellEngine
