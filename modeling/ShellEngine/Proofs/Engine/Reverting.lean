import ShellEngine.Engine.Stage
import ShellEngine.Proofs.Engine.Plumbing

/-!
# Putting the standard streams back

Before the streams of a stage are put in place, copies of the standard streams are taken
(`Snapshot.Saves`). When they are put back, whatever was opened on the way is closed, so that the
table is what it was, but for the inputs of pipes that were handed on (`Snapshot.holds_revertStreams`).

For a stage whose output goes to a buffer this says all that draining it needs: whatever is written to
the standard output lies in a channel of its own, and nobody but the pump has an end of that channel
when the streams were put back (`Session.Taps`).
-/

namespace ShellEngine

open Machine

namespace Snapshot

variable {h k l : Host} {s : Snapshot} {stream fd : Nat}

/-! ## Copies of the standard streams -/

/-- Copies of some streams were taken. -/
structure Saves (h : Host) (saved : List (Nat × Option Nat)) (k : Host) : Prop where
  host : h.Extends k
  world : k.world = h.world
  entries : ∀ e ∈ k.descriptors.table,
    e ∈ h.descriptors.table ∨ e.1 ∈ saved.filterMap (·.2)
  copy : ∀ stream copy, (stream, some copy) ∈ saved → h.descriptors.next ≤ copy ∧
    ∃ file, k.descriptors.Holds copy file ∧ (stream, file) ∈ h.descriptors.table

theorem Saves.nil (h : Host) : Saves h [] h :=
  ⟨.refl h, rfl, fun _ he ↦ Or.inl he, fun _ _ hmem ↦ nomatch hmem⟩

/-- One more stream is copied, unless it is closed. -/
theorem Saves.snoc {saved : List (Nat × Option Nat)} (hsaves : Saves h saved k)
    (horderly : h.Orderly) (hstream : stream < 3) :
    Saves h (saved ++ [(stream, (k.duplicate stream).1)]) (k.duplicate stream).2 := by
  unfold Host.duplicate
  split
  · refine ⟨hsaves.host, hsaves.world, fun e he ↦ ?_, fun stream' copy hmem ↦ ?_⟩
    · simpa using hsaves.entries e he
    · exact hsaves.copy stream' copy (by simpa using hmem)
  · rename_i file hfile
    dsimp only [Descriptors.give]
    have hmem := Descriptors.mem_of_file? hfile
    have hknown := (hsaves.host.orderly horderly).known
    -- The stream is behind its number from before: the copies have later ones.
    have hbefore : (stream, file) ∈ h.descriptors.table := by
      refine (hsaves.entries _ hmem).resolve_right fun hcopy ↦ ?_
      obtain ⟨⟨other, _⟩, hsaved, rfl⟩ := List.mem_filterMap.mp hcopy
      have hnext := (hsaves.copy other stream hsaved).1
      have hstandard := horderly.standard
      omega
    refine ⟨hsaves.host.trans (.give (.refl _) id (hknown _ hmem).2), hsaves.world, fun e he ↦ ?_,
      fun stream' copy hsaved ↦ ?_⟩
    · rcases List.mem_cons.mp he with rfl | he
      · exact Or.inr (by simp)
      · exact (hsaves.entries e he).imp_right fun he ↦ by simp [List.filterMap_append, he]
    · rcases List.mem_append.mp hsaved with hsaved | hsaved
      · obtain ⟨hnext, file', hholds, hmem'⟩ := hsaves.copy stream' copy hsaved
        refine ⟨hnext, file', ⟨List.mem_cons_of_mem _ hholds.mem, fun e he heq ↦ ?_⟩, hmem'⟩
        rcases List.mem_cons.mp he with rfl | he
        · exact absurd heq (Nat.ne_of_gt (hknown _ hholds.mem).1)
        · exact hholds.unique e he heq
      · obtain ⟨rfl, rfl⟩ : stream' = stream ∧ copy = k.descriptors.next := by simpa using hsaved
        refine ⟨hsaves.host.next, file, ⟨List.mem_cons_self, fun e he heq ↦ ?_⟩, hbefore⟩
        rcases List.mem_cons.mp he with rfl | he
        · rfl
        · exact absurd heq (Nat.ne_of_lt (hknown e he).1)

theorem saves_capture (horderly : h.Orderly) :
    Saves h (capture h).1.saved (capture h).2 ∧ (capture h).1.created = [] ∧
      (capture h).1.nextInput = none :=
  ⟨(((Saves.nil h).snoc horderly (by decide)).snoc horderly (by decide)).snoc horderly (by decide),
    rfl, rfl⟩

/-! ## Putting streams back -/

theorem mem_saved_of_lookup {saved : List (Nat × Option Nat)} {copy : Nat}
    (h : (saved.lookup stream).getD none = some copy) : (stream, some copy) ∈ saved := by
  cases hlookup : saved.lookup stream with
  | none =>
    rw [hlookup] at h
    cases h
  | some found =>
    rw [hlookup] at h
    obtain ⟨before, after, hsaved, -⟩ := List.lookup_eq_some_iff.mp hlookup
    have hfound : found = some copy := h
    rw [hsaved, hfound]
    exact List.mem_append_right _ List.mem_cons_self

theorem mem_restoreStream {e : Nat × Nat} (halive : ∀ copy, (stream, some copy) ∈ s.saved →
      ∃ file, h.descriptors.Holds copy file)
    (he : e ∈ (s.restoreStream h stream).descriptors.table) :
    e ∈ h.descriptors.table ∧ (e.1 ≠ stream ∨ stream ∉ s.overridden) ∨
      e.1 = stream ∧ ∃ copy, (stream, some copy) ∈ s.saved ∧ (copy, e.2) ∈ h.descriptors.table := by
  unfold restoreStream at he
  split at he
  · split at he
    · rename_i copy hcopy
      have hsaved := mem_saved_of_lookup hcopy
      obtain ⟨file, hholds⟩ := halive copy hsaved
      dsimp only [Descriptors.replace] at he
      rw [hholds.file?] at he
      rcases List.mem_cons.mp he with rfl | he
      · exact Or.inr ⟨rfl, copy, hsaved, hholds.mem⟩
      · obtain ⟨he, hne⟩ := List.mem_filter.mp he
        exact Or.inl ⟨he, Or.inl (bne_iff_ne.mp hne)⟩
    · obtain ⟨he, hne⟩ := List.mem_filter.mp he
      exact Or.inl ⟨he, Or.inl (bne_iff_ne.mp hne)⟩
  · rename_i hkept
    exact Or.inl ⟨he, Or.inr fun hmem ↦ hkept (List.contains_iff_mem.mpr hmem)⟩

theorem holds_restoreStream {file : Nat} (hholds : h.descriptors.Holds fd file)
    (hne : fd ≠ stream) : (s.restoreStream h stream).descriptors.Holds fd file := by
  unfold restoreStream
  split
  · split
    · exact hholds.replace hne
    · refine ⟨List.mem_filter.mpr ⟨hholds.mem, bne_iff_ne.mpr hne⟩, fun e he ↦ ?_⟩
      exact hholds.unique e (List.mem_filter.mp he).1
  · exact hholds

theorem extends_restoreStream (s : Snapshot) (h : Host) (hstream : stream < 3) :
    h.Extends (s.restoreStream h stream) := by
  unfold restoreStream
  split
  · split
    · exact Host.extends_replace h hstream
    · exact Host.extends_closeAll h [stream]
  · exact .refl h

theorem world_restoreStream (s : Snapshot) (h : Host) (stream : Nat) :
    (s.restoreStream h stream).world = h.world := by
  unfold restoreStream
  split
  · split <;> rfl
  · rfl

theorem world_revertStreams (s : Snapshot) (h : Host) : (s.revertStreams h).world = h.world := by
  unfold revertStreams
  exact (world_restoreStream s _ 2).trans ((world_restoreStream s _ 1).trans
    (world_restoreStream s h 0))

theorem extends_revertStreams (s : Snapshot) (h : Host) : h.Extends (s.revertStreams h) := by
  unfold revertStreams
  refine .trans ?_ (Host.extends_closeAll _ _)
  exact (extends_restoreStream s h (by decide)).trans
    ((extends_restoreStream s _ (by decide)).trans (extends_restoreStream s _ (by decide)))

/-- Between two streams that are put back: whatever is new in the table is behind a stream that is
still to be put back, or is one of some other descriptors. -/
structure Reverting (s : Snapshot) (h₀ : Host) (others pending : List Nat) (h : Host) : Prop where
  entries : ∀ e ∈ h.descriptors.table, e ∈ h₀.descriptors.table ∨
    e.1 ∈ s.overridden ∧ e.1 ∈ pending ∨ e.1 ∈ others
  copy : ∀ stream copy, (stream, some copy) ∈ s.saved → 3 ≤ copy ∧
    ∃ file, h.descriptors.Holds copy file ∧ (stream, file) ∈ h₀.descriptors.table

theorem Reverting.restoreStream {h₀ : Host} {others pending : List Nat} (hstream : stream < 3)
    (hreverting : Reverting s h₀ others (stream :: pending) h) :
    Reverting s h₀ others pending (s.restoreStream h stream) where
  entries e he := by
    have halive (copy : Nat) (hcopy : (stream, some copy) ∈ s.saved) :
        ∃ file, h.descriptors.Holds copy file :=
      (hreverting.copy stream copy hcopy).2.imp fun _ hfile ↦ hfile.1
    rcases mem_restoreStream halive he with ⟨he, hkept⟩ | ⟨rfl, copy, hcopy, he⟩
    · refine (hreverting.entries e he).imp_right (·.imp_left fun ⟨hoverridden, hpending⟩ ↦ ?_)
      refine ⟨hoverridden, (List.mem_cons.mp hpending).resolve_left fun heq ↦ ?_⟩
      exact hkept.elim (absurd heq) fun hnot ↦ hnot (heq ▸ hoverridden)
    · -- The copy is of what was behind the stream before.
      obtain ⟨-, file, hholds, hmem⟩ := hreverting.copy e.1 copy hcopy
      obtain rfl : e.2 = file := hholds.unique (copy, e.2) he rfl
      exact Or.inl hmem
  copy stream' copy hcopy := by
    obtain ⟨hle, file, hholds, hmem⟩ := hreverting.copy stream' copy hcopy
    exact ⟨hle, file, holds_restoreStream hholds (by omega), hmem⟩

/-- When the streams were put back, there is nothing new in the table but what was left open. -/
theorem mem_revertStreams {h₀ : Host} {left : List Nat} (hnextInput : s.nextInput = none)
    (hreverting : Reverting s h₀ (s.created ++ s.copies ++ left) [0, 1, 2] h) {e : Nat × Nat}
    (he : e ∈ (s.revertStreams h).descriptors.table) :
    e ∈ h₀.descriptors.table ∨ e.1 ∈ left := by
  obtain ⟨he, hopen⟩ := Descriptors.mem_closeAll.mp he
  have hdone := ((hreverting.restoreStream (by decide)).restoreStream (by decide)).restoreStream
    (by decide)
  refine (hdone.entries e he).imp_right fun hnew ↦ ?_
  rcases hnew with ⟨-, hpending⟩ | hother
  · cases hpending
  · rw [hnextInput] at hopen
    simp only [Option.toList_none, List.append_nil, List.mem_append, not_or] at hopen hother
    exact hother.resolve_left fun h ↦ h.elim hopen.1 hopen.2

theorem holds_revertStreams {file : Nat} (hnextInput : s.nextInput = none)
    (hholds : h.descriptors.Holds fd file) (hle : 3 ≤ fd) (hcreated : fd ∉ s.created)
    (hcopies : fd ∉ s.copies) : (s.revertStreams h).descriptors.Holds fd file := by
  have hrestored : ([0, 1, 2].foldl s.restoreStream h).descriptors.Holds fd file := by
    refine holds_restoreStream (holds_restoreStream (holds_restoreStream hholds ?_) ?_) ?_ <;> omega
  refine ⟨Descriptors.mem_closeAll.mpr ⟨hrestored.mem, ?_⟩, fun e he ↦ ?_⟩
  · rw [hnextInput]
    simp only [Option.toList_none, List.append_nil, List.mem_append, not_or]
    exact ⟨hcreated, hcopies⟩
  · exact hrestored.unique e (Descriptors.mem_closeAll.mp he).1

end Snapshot

/-! ## Redirecting a stage -/

namespace Redirect

variable {h : Host} {c : Cancellation} {stage : RunningStage} {nextBuffer : Nat} {routes : Bool}

/-- A redirection comes to what placing its streams comes to. If that fails, it fails as a
redirection, and the streams are put back. -/
theorem apply_of_leads {o : Outcome} (ho : apply h c stage nextBuffer routes = o)
    (horderly : h.Orderly) {Q : Redirecting → Prop}
    (hplace : ∀ k snapshot, Snapshot.Saves h snapshot.saved k → snapshot.created = [] →
      snapshot.nextInput = none →
      Leads placeStreams { host := k, stage, snapshot, nextBuffer } fun _ r ↦ Q r) :
    (∃ e, o.result = .error e ∧ e.isRedirection = true ∧ h.Extends o.host) ∨
      ∃ r, Q r ∧ o.result = .ok { r.snapshot with routing := some c.routed } ∧
        o.stage = r.stage ∧ o.host = r.host ∧ o.nextBuffer = r.nextBuffer := by
  subst ho
  obtain ⟨hsaves, hcreated, hnextInput⟩ := Snapshot.saves_capture horderly
  have hplaced := hplace _ _ hsaves hcreated hnextInput
  unfold Leads at hplaced
  obtain ⟨r, ⟨e, hrun, happly⟩ | ⟨hrun, happly⟩⟩ := apply_cases h c stage nextBuffer routes <;>
    rw [hrun] at hplaced <;> rw [happly]
  · exact Or.inl ⟨e, rfl, hplaced.1, hsaves.host.trans
      (hplaced.2.trans (Snapshot.extends_revertStreams _ _))⟩
  · exact Or.inr ⟨r, hplaced, rfl, rfl, rfl, rfl⟩

/-- The standard output was put in place, and goes to a channel of its own. When the streams were put
back, the input of that channel is all that is left of it. -/
structure Taps (h : Host) (snapshot : Snapshot) (reader channel : Nat) (k : Host) : Prop where
  host : h.Extends k
  fresh : h.descriptors.next ≤ reader
  known : reader < k.descriptors.next
  apart : h.world.channels.size ≤ channel
  there : channel < k.world.channels.size
  empty : k.world.channel channel = {}
  writes : ∃ file < k.world.files.size, k.descriptors.Holds 1 file ∧
    (k.world.file file).role = (.channel channel, false, true)
  left : ∃ file < k.world.files.size, (k.world.file file).role = (.channel channel, true, false) ∧
    ∀ l : Host, l.descriptors = k.descriptors →
      (snapshot.revertStreams l).descriptors.Holds reader file ∧
      ∀ e ∈ (snapshot.revertStreams l).descriptors.table, e ∈ h.descriptors.table ∨ e.1 = reader

theorem taps_of_buffers {k : Host} {snapshot : Snapshot} {reader channel : Nat} {r : Redirecting}
    (horderly : h.Orderly) (hsaves : Snapshot.Saves h snapshot.saved k)
    (hnextInput : snapshot.nextInput = none)
    (hbuffers : Buffers { host := k, stage, snapshot, nextBuffer } reader channel r) :
    Taps h r.snapshot reader channel r.host := by
  have hproceeds := hbuffers.proceeds
  obtain ⟨file, hlt, hholds, hrole⟩ := hbuffers.wired.reads
  have hknown := (hsaves.host.orderly horderly).known
  have hle := Nat.le_trans horderly.standard hsaves.host.next
  have hnone : r.snapshot.nextInput = none := hbuffers.nextInput.trans hnextInput
  have hcopy (stream copy : Nat) (hmem : (stream, some copy) ∈ snapshot.saved) :
      3 ≤ copy ∧ copy < k.descriptors.next ∧
        ∃ file, r.host.descriptors.Holds copy file ∧ (stream, file) ∈ h.descriptors.table := by
    obtain ⟨hnext, file, hholds, hmem⟩ := hsaves.copy stream copy hmem
    have hlt : copy < k.descriptors.next := (hknown _ hholds.mem).1
    have hstandard := Nat.le_trans horderly.standard hnext
    refine ⟨hstandard, hlt, file, holds_of_proceeds hproceeds hlt ?_ hholds, hmem⟩
    simp only [List.mem_cons, List.not_mem_nil, or_false]
    omega
  have hlast := (hproceeds.host.orderly (hsaves.host.orderly horderly)).known _ hholds.mem
  refine ⟨hsaves.host.trans hproceeds.host, Nat.le_trans hsaves.host.next hbuffers.fresh, hlast.1,
    Nat.le_trans hsaves.host.world.channels hbuffers.apart, hbuffers.wired.there,
    hbuffers.wired.empty, hbuffers.wired.writes, file, hlt, hrole, fun l hl ↦ ⟨?_, fun e he ↦ ?_⟩⟩
  · refine Snapshot.holds_revertStreams hnone (hl ▸ hholds) (Nat.le_trans hle hbuffers.fresh)
      hbuffers.wired.spared fun hmem ↦ ?_
    obtain ⟨⟨stream, _⟩, hsaved, rfl⟩ := List.mem_filterMap.mp hmem
    rw [hproceeds.saved] at hsaved
    exact Nat.not_le.mpr (hcopy stream reader hsaved).2.1 hbuffers.fresh
  · have hreverting : r.snapshot.Reverting h
        (r.snapshot.created ++ r.snapshot.copies ++ [reader]) [0, 1, 2] l := by
      refine ⟨fun e he ↦ ?_, fun stream copy hsaved ↦ ?_⟩
      · rw [hl] at he
        rcases hproceeds.entries e he with he | ⟨hpending, hreplaced⟩ | ⟨-, hopened⟩
        · refine (hsaves.entries e he).imp_right fun he ↦ Or.inr ?_
          have hcopies : e.1 ∈ r.snapshot.copies := by
            rw [Snapshot.copies, hproceeds.saved]
            exact he
          exact List.mem_append_left _ (List.mem_append_right _ hcopies)
        · exact Or.inr (Or.inl ⟨hreplaced, hpending⟩)
        · refine Or.inr (Or.inr ?_)
          rw [List.append_assoc]
          exact List.mem_append.mpr (hopened.imp_right (List.mem_append_right _ ·))
      · rw [hl]
        obtain ⟨hle, -, hfile⟩ := hcopy stream copy (hproceeds.saved ▸ hsaved)
        exact ⟨hle, hfile⟩
    exact (Snapshot.mem_revertStreams hnone hreverting he).imp_right List.mem_singleton.mp

end Redirect

namespace Session

variable {s t : Session} {r placed : RunningStage} {routes : Bool}
  {result : Except EngineError Snapshot}

def Misplaces (s : Session) (result : Except EngineError Snapshot) (t : Session) : Prop :=
  ∃ e, result = .error e ∧ e.isRedirection = true ∧ s.host.Extends t.host

theorem redirect_eq (h : s.redirect r routes = (result, placed, t)) :
    ∃ o, Redirect.apply s.host s.cancellation r s.buffers.size routes = o ∧ o.result = result ∧
      o.stage = placed ∧ o.host = t.host ∧ t.pumps = s.pumps ∧
      t.buffers = s.buffers ++ Array.replicate (o.nextBuffer - s.buffers.size) ({} : OutputBuffer) := by
  obtain ⟨hresult, hrest⟩ := Prod.mk.inj h
  obtain ⟨hstage, ht⟩ := Prod.mk.inj hrest
  refine ⟨_, rfl, hresult, hstage, ?_, ?_, ?_⟩
  · rw [← ht]
  · rw [← ht]
  · rw [← ht]
    simp

/-- The streams of a stage were put in place, and its standard output goes to a buffer. -/
structure Taps (s : Session) (r placed : RunningStage) (snapshot : Snapshot) (reader channel : Nat)
    (t : Session) : Prop where
  host : Redirect.Taps s.host snapshot reader channel t.host
  nextInput : snapshot.nextInput = none
  stage : placed.unfed = { r.unfed with
    stdoutBuffer := some (r.stdoutBuffer.getD s.buffers.size)
    pendingDrains := r.pendingDrains ++ [(r.stdoutBuffer.getD s.buffers.size, reader)] }
  buffers : t.buffers = if r.stdoutBuffer.isSome then s.buffers else s.buffers.push {}
  pumps : t.pumps = s.pumps

theorem redirect_of_buffer (h : s.redirect r routes = (result, placed, t))
    (hstdout : r.stage.stdout = .buffer) (hstderr : r.stage.stderr ≠ .buffer)
    (horderly : s.host.Orderly)
    (hinput : ∀ fd, r.pipedInput = some fd → fd < s.host.descriptors.next) :
    s.Misplaces result t ∨ ∃ snapshot reader channel, result = .ok snapshot ∧
      s.Taps r placed snapshot reader channel t := by
  obtain ⟨o, ho, rfl, rfl, hhost, hpumps, hbuffers⟩ := redirect_eq h
  let Tapped (r' : Redirecting) (reader channel : Nat) : Prop :=
    Redirect.Taps s.host r'.snapshot reader channel r'.host ∧ r'.snapshot.nextInput = none ∧
      r'.stage.unfed = { r.unfed with
        stdoutBuffer := some (r.stdoutBuffer.getD s.buffers.size)
        pendingDrains := r.pendingDrains ++ [(r.stdoutBuffer.getD s.buffers.size, reader)] } ∧
      r'.nextBuffer = if r.stdoutBuffer.isSome then s.buffers.size else s.buffers.size + 1
  have hplaced := Redirect.apply_of_leads (Q := fun r' ↦ ∃ reader channel, Tapped r' reader channel)
    ho horderly fun k snapshot hsaves hcreated hnextInput ↦
      (Redirect.leads_placeStreams_of_buffer hstdout hstderr (hsaves.host.orderly horderly)
        (fun fd hfd ↦ Nat.lt_of_lt_of_le (hinput fd hfd) hsaves.host.next) hcreated).imp
      fun _ _ ⟨reader, channel, hbuffers⟩ ↦ ⟨reader, channel,
        Redirect.taps_of_buffers horderly hsaves hnextInput hbuffers,
        hbuffers.nextInput.trans hnextInput, hbuffers.stage, hbuffers.nextBuffer⟩
  rcases hplaced with ⟨e, he, hredirection, hextends⟩ |
    ⟨r', ⟨reader, channel, htaps, hnextInput, hstage, hnextBuffer⟩, hresult, hstage', hhost', hnext⟩
  · exact Or.inl ⟨e, he, hredirection, hhost ▸ hextends⟩
  · refine Or.inr ⟨_, reader, channel, hresult, ?_, hnextInput, hstage' ▸ hstage, ?_, hpumps⟩
    · rw [← hhost, hhost']
      exact ⟨htaps.host, htaps.fresh, htaps.known, htaps.apart, htaps.there, htaps.empty,
        htaps.writes, htaps.left⟩
    · rw [hbuffers, hnext, hnextBuffer]
      split <;> simp

/-- The streams of a stage were put in place, and none of its outputs goes to a buffer. -/
structure Places (s : Session) (r placed : RunningStage) (snapshot : Snapshot) (t : Session) :
    Prop where
  host : s.host.Extends t.host
  nextInput : ∀ fd, snapshot.nextInput = some fd → fd < t.host.descriptors.next
  stage : placed.unfed = r.unfed
  buffers : t.buffers = s.buffers
  pumps : t.pumps = s.pumps

theorem redirect_of_ne (h : s.redirect r routes = (result, placed, t))
    (hstdout : r.stage.stdout ≠ .buffer) (hstderr : r.stage.stderr ≠ .buffer)
    (horderly : s.host.Orderly) :
    s.Misplaces result t ∨ ∃ snapshot, result = .ok snapshot ∧ s.Places r placed snapshot t := by
  obtain ⟨o, ho, rfl, rfl, hhost, hpumps, hbuffers⟩ := redirect_eq h
  let Placed (r' : Redirecting) : Prop :=
    s.host.Extends r'.host ∧ (∀ fd, r'.snapshot.nextInput = some fd → fd < r'.host.descriptors.next) ∧
      r'.stage.unfed = r.unfed ∧ r'.nextBuffer = s.buffers.size
  have hplaced := Redirect.apply_of_leads (Q := Placed) ho horderly fun k snapshot hsaves _ hnextInput ↦
      (Redirect.leads_placeStreams hstdout hstderr).imp fun _ _ hplaces ↦
        ⟨hsaves.host.trans hplaces.host, fun fd hfd ↦ (hplaces.nextInput fd hfd).resolve_left
          (fun hfd ↦ nomatch hnextInput.symm.trans hfd), hplaces.stage, hplaces.nextBuffer⟩
  rcases hplaced with ⟨e, he, hredirection, hextends⟩ |
    ⟨r', ⟨hextends, hnextInput, hstage, hnextBuffer⟩, hresult, hstage', hhost', hnext⟩
  · exact Or.inl ⟨e, he, hredirection, hhost ▸ hextends⟩
  · rw [← hhost'] at hextends hnextInput
    refine Or.inr ⟨_, hresult, hhost ▸ hextends, fun fd hfd ↦ hhost ▸ hnextInput fd hfd,
      hstage' ▸ hstage, ?_, hpumps⟩
    rw [hbuffers, hnext, hnextBuffer]
    simp

end Session

end ShellEngine
