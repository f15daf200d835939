import ShellEngine.Engine.Foreground

/-!
# The passing of time

While time passes, harvesters take note of what has happened: they take over environments and
aliases, and settle the fates of children. A cancellation that was to come may come, and a child
that is killed gets a new fate. When some buffers are to be final, time passes until the pipes that
are drained into them are closed, and then the pumps run. All of this is made of a few changes to a
session. A relation that none of them breaks (`Session.Lapse`) holds between a session and what
becomes of it when time passes, so each of the modules after this one states no more than its own
relation.
-/

namespace ShellEngine

open Machine

namespace Session

/-- A relation between sessions, reflexive and transitive, that holds across each change that is
made while time passes. -/
structure Lapse (R : Session → Session → Prop) : Prop where
  refl : ∀ s, R s s
  trans : ∀ {s t u}, R s t → R t u → R s u
  clock : ∀ s time, s.now ≤ time →
    R s { s with host := { s.host with world := { s.host.world with clock := time } } }
  adopt : ∀ s (p : Parameters), R s { s with host := (p.apply s.host).2 }
  records : ∀ s records, R s { s with records }
  /-- No harvester is added, and none is joined. -/
  harvesters : ∀ s harvesters, harvesters.map Harvester.joined = s.harvesters.map Harvester.joined →
    R s { s with harvesters }
  modifyChild : ∀ s key f, R s (s.modifyChild key f)
  aliases : ∀ s aliases, R s { s with aliases }
  sharedAliases : ∀ s sharedAliases, R s { s with sharedAliases }
  cancel : ∀ s, R s { s with cancellation := s.cancellation.set, cancelAt := none }

section Joined

variable {harvesters : Array Harvester} {key : Nat}

theorem map_joined_modify {f : Harvester → Harvester} (hf : ∀ h, (f h).joined = h.joined) :
    (harvesters.modify key f).map Harvester.joined = harvesters.map Harvester.joined := by
  refine Array.ext_getElem? fun i ↦ ?_
  rw [Array.getElem?_map, Array.getElem?_map, Array.getElem?_modify]
  split
  · rw [Option.map_map]
    exact congrArg (Option.map · _) (funext hf)
  · rfl

theorem map_joined_set! {h h' : Harvester} (hget : harvesters[key]? = some h)
    (hjoined : h'.joined = h.joined) :
    (harvesters.set! key h').map Harvester.joined = harvesters.map Harvester.joined := by
  obtain ⟨hlt, rfl⟩ := Array.getElem?_eq_some_iff.mp hget
  refine Array.ext_getElem? fun i ↦ ?_
  rw [Array.getElem?_map, Array.getElem?_map, Array.set!_eq_setIfInBounds,
    Array.getElem?_setIfInBounds]
  split
  · rename_i hi
    subst hi
    simp [hlt, hjoined]
  · rfl

end Joined

/-- A look at the shared aliases changes no more than what is still to be seen of them. -/
theorem exists_lookAtSharedAliases_eq (s : Session) :
    ∃ sharedAliases, s.lookAtSharedAliases.2 = { s with sharedAliases } := by
  unfold lookAtSharedAliases
  split <;> exact ⟨_, rfl⟩

theorem exists_mergeSharedAliases_eq (s : Session) (h : Harvester) :
    ∃ aliases sharedAliases, s.mergeSharedAliases h = { s with aliases, sharedAliases } := by
  unfold mergeSharedAliases
  split
  · obtain ⟨sharedAliases, hlook⟩ := s.exists_lookAtSharedAliases_eq
    rcases hafter : s.lookAtSharedAliases with ⟨after, t⟩
    obtain rfl : t = { s with sharedAliases } := by rw [← hlook, hafter]
    dsimp only
    split <;> exact ⟨_, _, rfl⟩
  · exact ⟨_, _, rfl⟩

namespace Lapse

variable {R : Session → Session → Prop}

theorem foldl (h : Lapse R) {ι : Type} {f : Session → ι → Session} (hf : ∀ s i, R s (f s i))
    (is : List ι) (s : Session) : R s (is.foldl f s) := by
  induction is generalizing s with
  | nil => exact h.refl s
  | cons i is ih => exact h.trans (hf s i) (ih (f s i))

/-! ## Harvesters -/

theorem loseHarvester (h : Lapse R) (s : Session) (key : Nat) : R s (s.loseHarvester key) := by
  unfold Session.loseHarvester
  split
  · exact h.refl s
  · rename_i hget
    refine h.trans (h.modifyChild _ _ _) (h.harvesters _ _ ?_)
    exact map_joined_set! hget rfl

theorem carryOut (h : Lapse R) (s : Session) (key : Nat) (harvester : Harvester)
    (a : TraceAction) : R s (s.carryOut key harvester a).2 := by
  unfold Session.carryOut
  split
  · exact h.refl s
  · exact h.modifyChild _ _ _
  · split
    · exact h.refl s
    · rename_i parameters _
      refine h.trans (h.adopt s parameters)
        (h.harvesters { s with host := (parameters.apply s.host).2 } _ ?_)
      exact map_joined_modify fun _ ↦ rfl

theorem carryOutAll (h : Lapse R) (s : Session) (key : Nat) (harvester : Harvester)
    (as : List TraceAction) : R s (s.carryOutAll key harvester as).2 := by
  induction as generalizing s with
  | nil => exact h.refl s
  | cons a as ih =>
    have hstep := h.carryOut s key harvester a
    unfold Session.carryOutAll
    split
    · rename_i t ht
      rw [ht] at hstep
      exact h.trans hstep (ih t)
    · rename_i ht
      rw [ht] at hstep
      exact hstep

theorem lookAtSharedAliases (h : Lapse R) (s : Session) : R s s.lookAtSharedAliases.2 := by
  obtain ⟨sharedAliases, hlook⟩ := s.exists_lookAtSharedAliases_eq
  rw [hlook]
  exact h.sharedAliases s _

theorem mergeSharedAliases (h : Lapse R) (s : Session) (harvester : Harvester) :
    R s (s.mergeSharedAliases harvester) := by
  obtain ⟨aliases, sharedAliases, hmerge⟩ := s.exists_mergeSharedAliases_eq harvester
  rw [hmerge]
  exact h.trans (h.aliases s aliases) (h.sharedAliases _ _)

theorem finishHarvester (h : Lapse R) (s : Session) (key : Nat) :
    R s (s.finishHarvester key) := by
  unfold Session.finishHarvester
  split
  · exact h.refl s
  · rename_i harvester hget
    split
    · have hmerged := h.mergeSharedAliases s harvester
      obtain ⟨aliases, sharedAliases, hmerge⟩ := s.exists_mergeSharedAliases_eq harvester
      rw [hmerge] at hmerged ⊢
      refine h.trans hmerged (h.trans (h.records _ _) (h.harvesters _ _ ?_))
      exact map_joined_set! hget rfl
    · exact h.refl s

theorem notice (h : Lapse R) (s : Session) (key : Nat) (n : Notice) : R s (s.notice key n) := by
  unfold Session.notice
  split
  · exact h.refl s
  · split
    · exact h.refl s
    · rename_i harvester hget _
      obtain ⟨tracer, record, actions⟩ :=
        harvester.tracer.handle (s.record harvester.record) n
      dsimp only
      have hnoted : R s { s.modifyRecord harvester.record fun _ ↦ record with
          harvesters := (s.modifyRecord harvester.record fun _ ↦ record).harvesters.set! key
            { harvester with tracer } } := by
        refine h.trans (h.records _ _) (h.harvesters _ _ ?_)
        exact map_joined_set! hget rfl
      have hdone := h.trans hnoted (h.carryOutAll _ key harvester actions)
      split
      · rename_i t ht
        rw [ht] at hdone
        exact h.trans hdone (h.finishHarvester t key)
      · rename_i t ht
        rw [ht] at hdone
        exact h.trans hdone (h.loseHarvester t key)

theorem runHarvester (h : Lapse R) (s : Session) (key : Nat) : R s (s.runHarvester key) := by
  unfold Session.runHarvester
  split
  · exact h.refl s
  · rename_i hget
    split
    rename_i due later _
    refine h.trans (h.harvesters s _ ?_)
      (h.foldl (fun t (n : Nat × Notice) ↦ h.notice t key n.2) due _)
    exact map_joined_set! hget rfl

/-! ## Time -/

theorem catchUp (h : Lapse R) (s : Session) : R s s.catchUp := by
  unfold Session.catchUp
  refine h.trans ?_ (h.foldl h.runHarvester _ _)
  split
  · split
    · exact h.cancel s
    · exact h.refl s
  · exact h.refl s

theorem passUntil (h : Lapse R) (s : Session) (time : Nat) : R s (s.passUntil time) :=
  h.trans (h.clock s _ (Nat.le_max_left _ _)) (h.catchUp _)

/-! ## Kills -/

/-- A child that is killed may be run again, which can do anything to the machine. -/
theorem kill_of (h : Lapse R) (s : Session) (child signal : Nat) (reruns : Bool)
    (hhost : reruns = true → ∀ s host, R s { s with host }) : R s (s.kill child signal reruns) := by
  unfold Session.kill
  split
  · exact h.refl s
  · split
    · exact h.refl s
    · split
      rename_i t hrerun
      have ht : R s t := by
        split at hrerun
        · obtain ⟨-, rfl⟩ := Prod.mk.inj hrerun
          exact hhost rfl _ _
        · obtain ⟨-, rfl⟩ := Prod.mk.inj hrerun
          exact h.refl _
      dsimp only
      split
      · refine h.trans ht (h.trans ?_ (h.catchUp _))
        refine h.harvesters t _ ?_
        rw [Array.map_map]
        refine Array.map_congr_left fun harvester _ ↦ ?_
        rw [Function.comp_apply]
        split <;> rfl
      · exact h.trans ht (h.modifyChild t _ _)

theorem kill (h : Lapse R) (hhost : ∀ s host, R s { s with host }) (s : Session)
    (child signal : Nat) (reruns : Bool) : R s (s.kill child signal reruns) :=
  h.kill_of s child signal reruns fun _ ↦ hhost

theorem killTraced (h : Lapse R) (s : Session) (harvester record : Nat) :
    R s (s.killTraced harvester record) := by
  refine h.trans (h.harvesters s _ ?_) (h.catchUp _)
  exact map_joined_modify fun _ ↦ rfl

end Lapse

/-! ## Pumps -/

def drawn (s : Session) (p : Pump) : Octets × World :=
  match (s.host.descriptors.file? p.descriptor).map s.host.world.readAll with
  | some (.ok (os, world)) => (os, world)
  | _ => ([], s.host.world)

def moved (s : Session) (p : Pump) (got : Octets) (world : World) : Session :=
  { s with
    host := { s.host with world }
    buffers := s.buffers.modify p.buffer fun b ↦
      (b.write (toString p.descriptor) got.toBytes).2.settle }

def stopped (s : Session) (p : Pump) : Session :=
  { s with
    buffers := s.buffers.modify p.buffer fun b ↦ (b.close (toString p.descriptor)).2.settle
    host := { s.host with descriptors := s.host.descriptors.close p.descriptor }
    pumps := s.pumps.filter (·.descriptor != p.descriptor) }

/-- The session when a pump has moved all that it draws. -/
def pumped (s : Session) (p : Pump) : Session := s.moved p (s.drawn p).1 (s.drawn p).2

theorem runPump_eq (s : Session) (p : Pump) : s.runPump p =
    if (s.pumped p).now < (s.pumped p).closingTime p.descriptor ||
      (s.pumped p).holdsWriter p.descriptor then s.pumped p
    else (s.pumped p).stopped p := by
  unfold runPump pumped drawn
  rcases (s.host.descriptors.file? p.descriptor).map s.host.world.readAll with _ | _ | ⟨os, world⟩
  · rfl
  · rfl
  · rfl

/-- When all pipes that are drained into some buffers are closed. -/
def drainingTime (s : Session) (buffers : List Nat) : Nat :=
  ((s.pumps.filter fun p ↦ buffers.contains p.buffer).map
    fun p ↦ s.closingTime p.descriptor).foldl max s.now

theorem finalize_eq (s : Session) (buffers : List Nat) :
    s.finalize buffers = (s.passUntil (s.drainingTime buffers)).runPumps := rfl

namespace Lapse

variable {R : Session → Session → Prop}

theorem runPump (h : Lapse R) (hmoved : ∀ s p got world, R s (s.moved p got world))
    (hstopped : ∀ s p, R s (s.stopped p)) (s : Session) (p : Pump) : R s (s.runPump p) := by
  have hpumped : R s (s.pumped p) := hmoved s p _ _
  rw [runPump_eq]
  split
  · exact hpumped
  · exact h.trans hpumped (hstopped _ p)

theorem finalize (h : Lapse R) (hpump : ∀ s p, R s (s.runPump p)) (s : Session)
    (buffers : List Nat) : R s (s.finalize buffers) := by
  rw [finalize_eq]
  exact h.trans (h.passUntil s _) (h.foldl hpump _ _)

end Lapse

end Session

end ShellEngine
