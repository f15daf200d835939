import ShellEngine.Proofs.Engine.Chores
import ShellEngine.Proofs.Engine.Launching
import ShellEngine.Proofs.Engine.Reverting
import ShellEngine.Proofs.Engine.Steady
import ShellEngine.Proofs.Engine.Waiting

/-!
# Buffers that are left alone

A buffer is settled when no pump works on it any more. Nothing that happens while stages are run
touches such a buffer (`Session.Spares`): not the passing of time, no builtin, no redirection, no
wait, and no pump, for each works on a buffer of its own. Of a program that is launched this has to
be assumed, as far as it could mix up the open files of the engine (`World.Respects`).
-/

namespace ShellEngine

open Machine

def RunningStage.plumbing (r : RunningStage) : Option Nat × Option Nat × List (Nat × Nat) :=
  (r.stdoutBuffer, r.stderrBuffer, r.pendingDrains)

namespace Session

/-- The descriptors are in order, and each pump works on a buffer that there is, with a descriptor
that was given. -/
structure Orderly (s : Session) : Prop where
  host : s.host.Orderly
  pumps : ∀ p ∈ s.pumps, p.buffer < s.buffers.size ∧ p.descriptor < s.host.descriptors.next

/-- No pump works on a buffer, or ever will. -/
structure Settled (s : Session) (key : Nat) : Prop where
  there : key < s.buffers.size
  idle : ∀ p ∈ s.pumps, p.buffer ≠ key

/-- Order was kept, and so were buffers on which no pump works. -/
structure Spares (s t : Session) : Prop where
  host : s.host.Extends t.host
  orderly : s.Orderly → t.Orderly
  settled : ∀ key, s.Settled key → t.Settled key
  buffer : ∀ key, s.Settled key → t.buffer key = s.buffer key

namespace Spares

variable {s t u : Session}

theorem refl (s : Session) : Spares s s := ⟨.refl _, id, fun _ h ↦ h, fun _ _ ↦ rfl⟩

theorem trans (h : Spares s t) (h' : Spares t u) : Spares s u where
  host := h.host.trans h'.host
  orderly := h'.orderly ∘ h.orderly
  settled key hkey := h'.settled key (h.settled key hkey)
  buffer key hkey := (h'.buffer key (h.settled key hkey)).trans (h.buffer key hkey)

theorem of_host (hhost : s.host.Extends t.host) (hbuffers : t.buffers = s.buffers)
    (hpumps : t.pumps = s.pumps) : Spares s t where
  host := hhost
  orderly h := ⟨hhost.orderly h.host, fun p hp ↦ by
    obtain ⟨hbuffer, hdescriptor⟩ := h.pumps p (hpumps ▸ hp)
    exact ⟨hbuffers ▸ hbuffer, Nat.lt_of_lt_of_le hdescriptor hhost.next⟩⟩
  settled key h := ⟨hbuffers ▸ h.there, hpumps ▸ h.idle⟩
  buffer key _ := by rw [Session.buffer, Session.buffer, hbuffers]

theorem of_buffers {added : Array OutputBuffer} (hhost : s.host.Extends t.host)
    (hbuffers : t.buffers = s.buffers ++ added) (hpumps : t.pumps = s.pumps) : Spares s t where
  host := hhost
  orderly h := ⟨hhost.orderly h.host, fun p hp ↦ by
    obtain ⟨hbuffer, hdescriptor⟩ := h.pumps p (hpumps ▸ hp)
    refine ⟨?_, Nat.lt_of_lt_of_le hdescriptor hhost.next⟩
    rw [hbuffers, Array.size_append]
    exact Nat.lt_add_right _ hbuffer⟩
  settled key h := by
    refine ⟨?_, hpumps ▸ h.idle⟩
    rw [hbuffers, Array.size_append]
    exact Nat.lt_add_right _ h.there
  buffer key h := by
    rw [Session.buffer, Session.buffer, hbuffers, Array.getD_eq_getD_getElem?,
      Array.getElem?_append_left h.there, Array.getD_eq_getD_getElem?]

end Spares

/-! ## While time passes -/

/-- Parameters are variables and a directory. -/
theorem host_apply (p : Parameters) (h : Host) :
    (p.apply h).2.world = h.world ∧ (p.apply h).2.descriptors = h.descriptors := by
  unfold Parameters.apply
  dsimp only
  generalize hk : ({ h with environment := _ } : Host) = k
  have hsame : k.world = h.world ∧ k.descriptors = h.descriptors := hk ▸ ⟨rfl, rfl⟩
  split
  · rename_i path _ _
    cases henter : k.enterDirectory path with
    | error e => exact hsame
    | ok entered =>
      obtain ⟨cwd, rfl⟩ := exists_cwd_of_enterDirectory henter
      exact hsame
  · exact hsame

/-- Time passes, and nothing is written, read, opened or closed. -/
structure Rests (s t : Session) : Prop where
  descriptors : t.host.descriptors = s.host.descriptors
  files : t.host.world.files = s.host.world.files
  channels : t.host.world.channels = s.host.world.channels
  buffers : t.buffers = s.buffers
  pumps : t.pumps = s.pumps
  now : s.now ≤ t.now

namespace Rests

variable {s t u : Session}

theorem trans (h : Rests s t) (h' : Rests t u) : Rests s u where
  descriptors := h'.descriptors.trans h.descriptors
  files := h'.files.trans h.files
  channels := h'.channels.trans h.channels
  buffers := h'.buffers.trans h.buffers
  pumps := h'.pumps.trans h.pumps
  now := Nat.le_trans h.now h'.now

theorem lapse : Lapse Rests where
  refl _ := ⟨rfl, rfl, rfl, rfl, rfl, Nat.le_refl _⟩
  trans := trans
  clock _ _ h := ⟨rfl, rfl, rfl, rfl, rfl, h⟩
  adopt s p := by
    have hhost := host_apply p s.host
    exact ⟨hhost.2, by rw [hhost.1], by rw [hhost.1], rfl, rfl,
      Nat.le_of_eq (congrArg World.clock hhost.1).symm⟩
  records _ _ := ⟨rfl, rfl, rfl, rfl, rfl, Nat.le_refl _⟩
  harvesters _ _ _ := ⟨rfl, rfl, rfl, rfl, rfl, Nat.le_refl _⟩
  modifyChild _ _ _ := ⟨rfl, rfl, rfl, rfl, rfl, Nat.le_refl _⟩
  aliases _ _ := ⟨rfl, rfl, rfl, rfl, rfl, Nat.le_refl _⟩
  sharedAliases _ _ := ⟨rfl, rfl, rfl, rfl, rfl, Nat.le_refl _⟩
  cancel _ := ⟨rfl, rfl, rfl, rfl, rfl, Nat.le_refl _⟩

theorem spares (h : Rests s t) : Spares s t :=
  .of_host (.of_world h.descriptors (.of_eq h.files h.channels)) h.buffers h.pumps

end Rests

/-! ## Builtins -/

/-- Nothing but writing happened, and channels that were whole still are. -/
structure Writes (s t : Session) : Prop where
  descriptors : t.host.descriptors = s.host.descriptors
  world : s.host.world.Alike t.host.world
  whole : ∀ c < s.host.world.channels.size, (s.host.world.channel c).Whole s.now →
    (t.host.world.channel c).Whole s.now
  buffers : t.buffers = s.buffers
  pumps : t.pumps = s.pumps

namespace Writes

variable {s t u : Session}

theorem of_host {host : Host} (hdescriptors : host.descriptors = s.host.descriptors)
    (hworld : host.world = s.host.world) : Writes s { s with host } :=
  ⟨hdescriptors, hworld ▸ .refl _, fun _ _ h ↦ by rwa [hworld], rfl, rfl⟩

theorem refl (s : Session) : Writes s s := ⟨rfl, .refl _, fun _ _ h ↦ h, rfl, rfl⟩

theorem trans (h : Writes s t) (h' : Writes t u) : Writes s u where
  descriptors := h'.descriptors.trans h.descriptors
  world := h.world.trans h'.world
  whole c hc hwhole := by
    have hnow : t.now = s.now := h.world.clock
    rw [← hnow] at hwhole ⊢
    exact h'.whole c (h.world.channels ▸ hc) (hnow ▸ h.whole c hc (hnow ▸ hwhole))
  buffers := h'.buffers.trans h.buffers
  pumps := h'.pumps.trans h.pumps

theorem chore : Chore Writes where
  refl := refl
  trans := trans
  write s fd os host hwrite := by
    obtain ⟨hdescriptors, halike, hwhole⟩ := Host.alike_write hwrite
    exact ⟨hdescriptors, halike, hwhole, rfl, rfl⟩
  environment _ _ := of_host rfl rfl
  cwd _ _ := of_host rfl rfl
  aliases s _ := ⟨rfl, .refl _, fun _ _ h ↦ h, rfl, rfl⟩
  look s := ⟨rfl, .refl _, fun _ _ h ↦ h, rfl, rfl⟩
  exitRequest s _ := ⟨rfl, .refl _, fun _ _ h ↦ h, rfl, rfl⟩

theorem spares (h : Writes s t) : Spares s t :=
  .of_host (.of_world h.descriptors h.world.respects) h.buffers h.pumps

end Writes

/-! ## What else spares settled buffers -/

variable {s t : Session}

theorem spares_revert (s : Session) (snapshot : Snapshot) : Spares s (s.revert snapshot) :=
  .of_host (snapshot.extends_revertStreams s.host) rfl rfl

theorem spares_closeDescriptor (s : Session) (fd : Nat) : Spares s (s.closeDescriptor fd) :=
  .of_host (s.host.extends_closeAll [fd]) rfl rfl

theorem spares_foldl_closeDescriptor (s : Session) (fds : List Nat) :
    Spares s (fds.foldl closeDescriptor s) := by
  induction fds generalizing s with
  | nil => exact .refl s
  | cons fd fds ih => exact (spares_closeDescriptor s fd).trans (ih _)

theorem spares_say (s : Session) (fd : Nat) (text : String) :
    Spares s { s with host := s.host.say fd text } :=
  (Writes.chore.say s fd text).spares

theorem Places.spares {r placed : RunningStage} {snapshot : Snapshot}
    (h : s.Places r placed snapshot t) : Spares s t :=
  .of_host h.host h.buffers h.pumps

theorem Taps.spares {r placed : RunningStage} {snapshot : Snapshot} {reader channel : Nat}
    (h : s.Taps r placed snapshot reader channel t) : Spares s t := by
  have hbuffers := h.buffers
  split at hbuffers
  · exact .of_host h.host.host hbuffers h.pumps
  · exact .of_buffers h.host.host (hbuffers.trans Array.push_eq_append) h.pumps

theorem spares_of_misplaces {r placed : RunningStage} {routes : Bool}
    {result : Except EngineError Snapshot} (h : s.redirect r routes = (result, placed, t))
    (hmisplaces : s.Misplaces result t) : Spares s t := by
  obtain ⟨o, -, -, -, -, hpumps, hbuffers⟩ := redirect_eq h
  obtain ⟨e, -, -, hextends⟩ := hmisplaces
  exact .of_buffers hextends hbuffers hpumps

theorem buffer_modify_of_ne {buffers : Array OutputBuffer} {key other : Nat}
    (f : OutputBuffer → OutputBuffer) (h : other ≠ key) :
    (buffers.modify other f).getD key {} = buffers.getD key {} := by
  rw [Array.getD_eq_getD_getElem?, Array.getD_eq_getD_getElem?, Array.getElem?_modify, if_neg h]

theorem spares_hold (s : Session) {reader : Option Nat}
    (hreader : ∀ fd, reader = some fd → fd < s.host.descriptors.next) : Spares s (s.hold reader) := by
  cases reader with
  | none => exact .refl s
  | some fd =>
    have hsize : (s.hold (some fd)).buffers.size = s.buffers.size + 1 := by
      simp [hold, addBuffer, commence]
    refine ⟨.refl _, fun h ↦ ⟨h.host, fun p hp ↦ ?_⟩, fun key h ↦ ⟨?_, fun p hp ↦ ?_⟩, fun key h ↦ ?_⟩
    · rw [hsize]
      rcases List.mem_append.mp hp with hp | hp
      · exact (h.pumps p hp).imp_left Nat.lt_succ_of_lt
      · rw [List.mem_singleton.mp hp]
        exact ⟨Nat.lt_succ_self _, hreader fd rfl⟩
    · exact hsize ▸ Nat.lt_succ_of_lt h.there
    · rcases List.mem_append.mp hp with hp | hp
      · exact h.idle p hp
      · rw [List.mem_singleton.mp hp]
        exact Nat.ne_of_gt h.there
    · change ((s.buffers.push {}).modify s.buffers.size _).getD key {} = s.buffers.getD key {}
      rw [buffer_modify_of_ne _ (Nat.ne_of_gt h.there), Array.getD_eq_getD_getElem?,
        Array.getElem?_push_lt h.there, Array.getD_eq_getD_getElem?, Array.getElem?_eq_getElem h.there]

/-! ## Pumps -/

/-- A pump reads what is behind its descriptor, if that can be read, and touches no other channel. -/
structure Reads (s : Session) (p : Pump) (got : Octets) (world : World) : Prop where
  got : ∀ file os w, s.host.descriptors.file? p.descriptor = some file →
    s.host.world.readAll file = .ok (os, w) → got = os ∧ world = w
  alike : s.host.world.Alike world
  channel : ∀ c, (∀ file, (p.descriptor, file) ∈ s.host.descriptors.table →
    (s.host.world.file file).target ≠ .channel c) → world.channel c = s.host.world.channel c

theorem runPump_cases (s : Session) (p : Pump) : ∃ got world, s.Reads p got world ∧
    s.runPump p =
      if (s.moved p got world).now < (s.moved p got world).closingTime p.descriptor ||
        (s.moved p got world).holdsWriter p.descriptor then s.moved p got world
      else (s.moved p got world).stopped p := by
  refine ⟨(s.drawn p).1, (s.drawn p).2, ?_, s.runPump_eq p⟩
  unfold drawn
  split
  · rename_i os world hread
    obtain ⟨file, hfile, hread⟩ := Option.map_eq_some_iff.mp hread
    have hsame := hread
    unfold World.readAll at hread
    obtain ⟨halike, hchannel⟩ := World.alike_read hread
    refine ⟨fun file' os' w hfile' hread' ↦ ?_, halike, fun c hc ↦ ?_⟩
    · obtain rfl := Option.some.inj (hfile.symm.trans hfile')
      exact Prod.mk.inj (Except.ok.inj (hsame.symm.trans hread'))
    · exact hchannel c (hc file (Descriptors.mem_of_file? hfile))
  · rename_i hnone
    refine ⟨fun file os w hfile hread ↦ ?_, .refl _, fun _ _ ↦ rfl⟩
    rw [hfile] at hnone
    exact absurd (congrArg some hread) (hnone os w)

theorem extends_moved {p : Pump} {got : Octets} {world : World} (h : s.Reads p got world) :
    s.host.Extends (s.moved p got world).host :=
  .of_world rfl h.alike.respects

/-- What a pump leaves alone: other buffers, and it starts no pumps. -/
structure Turns (s : Session) (p : Pump) (t : Session) : Prop where
  host : s.host.Extends t.host
  size : t.buffers.size = s.buffers.size
  buffer : ∀ key, p.buffer ≠ key → t.buffer key = s.buffer key
  pumps : ∀ q ∈ t.pumps, q ∈ s.pumps

theorem turns_runPump (s : Session) (p : Pump) : s.Turns p (s.runPump p) := by
  obtain ⟨got, world, hreads, hrun⟩ := s.runPump_cases p
  have hmoved : s.Turns p (s.moved p got world) :=
    ⟨extends_moved hreads, Array.size_modify, fun _ hne ↦ buffer_modify_of_ne _ hne, fun _ h ↦ h⟩
  rw [hrun]
  split
  · exact hmoved
  · refine ⟨hmoved.host.trans (Host.extends_closeAll _ [p.descriptor]), ?_, fun key hne ↦ ?_,
      fun q hq ↦ hmoved.pumps q (List.mem_filter.mp hq).1⟩
    · exact Array.size_modify.trans hmoved.size
    · exact (buffer_modify_of_ne _ hne).trans (hmoved.buffer key hne)

theorem settled_foldl_runPump {ps : List Pump} {key : Nat} (hps : ∀ p ∈ ps, p.buffer ≠ key)
    (h : s.Settled key) : (ps.foldl runPump s).Settled key ∧
      (ps.foldl runPump s).buffer key = s.buffer key := by
  induction ps generalizing s with
  | nil => exact ⟨h, rfl⟩
  | cons p ps ih =>
    have hturn := s.turns_runPump p
    have hsettled : (s.runPump p).Settled key :=
      ⟨hturn.size ▸ h.there, fun q hq ↦ h.idle q (hturn.pumps q hq)⟩
    obtain ⟨hrest, hbuffer⟩ := ih (fun q hq ↦ hps q (List.mem_cons_of_mem _ hq)) hsettled
    exact ⟨hrest, hbuffer.trans (hturn.buffer key (hps p List.mem_cons_self))⟩

theorem extends_foldl_runPump (ps : List Pump) (s : Session) :
    s.host.Extends (ps.foldl runPump s).host ∧ (s.Orderly → (ps.foldl runPump s).Orderly) := by
  induction ps generalizing s with
  | nil => exact ⟨.refl _, id⟩
  | cons p ps ih =>
    have hturn := s.turns_runPump p
    obtain ⟨hhost, horderly⟩ := ih (s.runPump p)
    refine ⟨hturn.host.trans hhost, fun h ↦ horderly ⟨hturn.host.orderly h.host, fun q hq ↦ ?_⟩⟩
    obtain ⟨hbuffer, hdescriptor⟩ := h.pumps q (hturn.pumps q hq)
    exact ⟨hturn.size ▸ hbuffer, Nat.lt_of_lt_of_le hdescriptor hturn.host.next⟩

theorem spares_finalize (s : Session) (buffers : List Nat) : Spares s (s.finalize buffers) := by
  rw [finalize_eq]
  have hrests := Rests.lapse.passUntil s (s.drainingTime buffers)
  obtain ⟨hhost, horderly⟩ := extends_foldl_runPump (s.passUntil (s.drainingTime buffers)).pumps
    (s.passUntil (s.drainingTime buffers))
  exact hrests.spares.trans ⟨hhost, horderly, fun key h ↦ (settled_foldl_runPump h.idle h).1,
    fun key h ↦ (settled_foldl_runPump h.idle h).2⟩

/-! ## Replaying and launching -/

theorem spares_replay {buffer : Nat} {result : Except EngineError Nat}
    (h : s.replay buffer = (result, t)) :
    Spares s t ∧ ∀ reader, result = .ok reader → reader < t.host.descriptors.next := by
  unfold replay at h
  rcases Host.pipe_cases s.host with ⟨e, k, hpipe, hextends⟩ | ⟨reader, writer, k, hpipe, hpiped⟩
  · rw [hpipe] at h
    obtain ⟨rfl, rfl⟩ := Prod.mk.inj h
    exact ⟨.of_host hextends rfl rfl, fun _ hreader ↦ nomatch hreader⟩
  · rw [hpipe] at h
    dsimp only at h
    have hwritten (written : Host) (hwrite : k.Extends written) :
        Spares s { s with host :=
          { written with descriptors := written.descriptors.close writer } } ∧
          reader < (written.descriptors.close writer).next := by
      have hextends := hwrite.trans (written.extends_closeAll [writer])
      refine ⟨.of_host (hpiped.extends.trans hextends) rfl rfl, Nat.lt_of_lt_of_le ?_ hextends.next⟩
      rw [hpiped.first, hpiped.next]
      exact Nat.lt_add_of_pos_right Nat.two_pos
    split at h
    · rename_i written hwrite
      obtain ⟨rfl, rfl⟩ := Prod.mk.inj h
      obtain ⟨hspares, hlt⟩ := hwritten written (Host.extends_write hwrite)
      exact ⟨hspares, fun _ hreader ↦ Except.ok.inj hreader ▸ hlt⟩
    · obtain ⟨rfl, rfl⟩ := Prod.mk.inj h
      obtain ⟨hspares, hlt⟩ := hwritten k (.refl k)
      exact ⟨hspares, fun _ hreader ↦ Except.ok.inj hreader ▸ hlt⟩

/-- Descriptors, buffers and pumps are what they were. -/
structure Leaves (s t : Session) : Prop where
  descriptors : t.host.descriptors = s.host.descriptors
  buffers : t.buffers = s.buffers
  pumps : t.pumps = s.pumps

namespace Leaves

theorem refl (s : Session) : Leaves s s := ⟨rfl, rfl, rfl⟩

theorem trans {u : Session} (h : Leaves s t) (h' : Leaves t u) : Leaves s u :=
  ⟨h'.descriptors.trans h.descriptors, h'.buffers.trans h.buffers, h'.pumps.trans h.pumps⟩

theorem of_rests (h : Rests s t) : Leaves s t := ⟨h.descriptors, h.buffers, h.pumps⟩

theorem of_launching {n : Nat} (h : Launching s n t) : Leaves s t := by
  induction h with
  | refl => exact .refl s
  | look _ ih => exact ih.trans (of_rests (Rests.lapse.lookAtSharedAliases _))
  | processes _ _ _ _ ih => exact ih.trans ⟨rfl, rfl, rfl⟩
  | harvest _ _ _ ih => exact ih.trans ⟨rfl, rfl, rfl⟩
  | catchUp _ ih => exact ih.trans (of_rests (Rests.lapse.catchUp _))

end Leaves

section Launch

variable {r launched : RunningStage} {target : String} {result : Except EngineError Unit}

theorem leaves_of_launch (h : s.launch r target = (result, launched, t)) : Leaves s t := by
  obtain ⟨n, hlaunched⟩ := s.exists_launched r target
  rw [h] at hlaunched
  exact .of_launching hlaunched.launching

theorem plumbing_of_launch (h : s.launch r target = (result, launched, t)) :
    launched.plumbing = r.plumbing := by
  obtain ⟨n, hlaunched⟩ := s.exists_launched r target
  rw [h] at hlaunched
  exact (congrArg RunningStage.plumbing hlaunched.unstarted :)

theorem spares_launch (h : s.launch r target = (result, launched, t))
    (hrespects : s.host.world.Respects t.host.world) : Spares s t := by
  have hleaves := leaves_of_launch h
  exact .of_host (.of_world hleaves.descriptors hrespects) hleaves.buffers hleaves.pumps

end Launch

end Session

/-! ## Waiting -/

namespace Surroundings

variable {σ : Type} {e : Surroundings σ}

theorem isCancelled_of_wait
    (hawait : ∀ listens delay s t, e.await listens delay s = (.cancelled, t) → e.isCancelled t = true)
    {looks : Nat} {watch : GestureWatch} {delay : Option Nat} {s t : σ}
    (h : e.wait looks watch delay s = (.ok .cancelled, t)) : e.isCancelled t = true := by
  induction looks generalizing watch delay s with
  | zero =>
    unfold wait at h
    split at h
    · rename_i u hu
      cases h
      exact hawait _ _ _ _ hu
    · rename_i how u hu
      cases how <;> cases h
    · cases h
  | succ looks ih =>
    unfold wait at h
    split at h
    · rename_i u hu
      cases h
      exact hawait _ _ _ _ hu
    · rename_i how u hu
      cases how <;> cases h
    · dsimp only at h
      split at h
      · cases h
      · exact ih h

end Surroundings

namespace Session

variable {s t : Session}

theorem signaled_of_await {child : Nat} {listens : Bool} {delay : Option Nat}
    (h : s.await child listens delay = (.cancelled, t)) : t.cancellation.signaled = true := by
  have hsignaled {u : Session} (hwake : u.wake? child = some .cancelled) :
      u.cancellation.signaled = true := by
    unfold wake? at hwake
    split at hwake
    · assumption
    · simp at hwake
  cases woken_of_await h with
  | already hwake => exact hsignaled hwake
  | later _ _ hwake => exact hsignaled hwake

/-- The ways in which a wait for a child ends. -/
inductive WaitsFor (s : Session) (r : RunningStage) : Except IoError WaitOutcome → Session → Prop
  | lost {e : IoError} {t : Session} (hrests : Rests s t) : WaitsFor s r (.error e) t
  | backgrounded {t : Session} (hrests : Rests s t) : WaitsFor s r (.ok .backgrounded) t
  | cancelled {t : Session} (hsignaled : t.cancellation.signaled = true) :
      WaitsFor s r (.ok .cancelled) t
  | completed {status : StageStatus} {t : Session} (hrests : Rests s t) :
      WaitsFor s r (.ok (.completed status))
        (t.finalize (r.stdoutBuffer.toList ++ r.stderrBuffer.toList))

theorem waitsFor_of_waitForStage {r : RunningStage} {result : Except IoError WaitOutcome}
    (h : s.waitForStage r = (result, t)) (hchild : r.child ≠ none) : WaitsFor s r result t := by
  have hsame {u v : Session} (h : v = { u with console := v.console, cancellation := v.cancellation }) :
      Rests u v := by
    rw [h]
    exact ⟨rfl, rfl, rfl, rfl, rfl, Nat.le_refl _⟩
  have hwaited {child : Nat} {result : Except IoError WaitOutcome} {u : Session}
      (hwait : s.waitForChild r child = (result, u)) : Rests s u := by
    have hkept := Rests.lapse.waitForChild (fun _ _ ↦ hsame rfl) s r child
    rw [hwait] at hkept
    exact (hsame rfl : Rests s s.routed).trans hkept
  have hcleared (u : Session) : Rests u (u.cleared r) := by
    unfold cleared
    split <;> exact hsame rfl
  cases waitEnds_of_waitForStage h with
  | absent hnone => exact absurd hnone hchild
  | lost _ hwait => exact .lost (hwaited hwait)
  | @completed _ _ u _ hwait =>
    exact .completed ((hwaited hwait).trans ((hsame rfl).trans (hcleared (u.rerouted _))))
  | @cancelled child u _ hwait =>
    refine .cancelled ?_
    exact (u.steady_kill child _ true).signaled (Surroundings.isCancelled_of_wait
      (fun _ _ _ _ ↦ signaled_of_await) hwait)
  | backgrounded _ hwait => exact .backgrounded ((hwaited hwait).trans (hsame rfl))

end Session

end ShellEngine
