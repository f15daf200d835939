import ShellEngine.Engine.Execute

/-!
# What actions come to

An action on a plan is a program over the state of the plan and the session, and may crash. Here it
is read as a function from one situation to another (`outcome`), with an equation for each of the
actions that the others are made of. `Gives` and `Crashes` are its two ways to end.
-/

namespace ShellEngine

/-- A plan at work, and the session in which it is. -/
abbrev Situation := PlanState × Session

/-! ## Exceptions above a state -/

section Exceptions

variable {ε σ α β : Type} {x : ExceptT ε (StateM σ) α} {s t : σ}

theorem run_run_bind_of_ok {r : α} (h : x.run.run s = (.ok r, t))
    (f : α → ExceptT ε (StateM σ) β) : (x >>= f).run.run s = (f r).run.run t := by
  change x s = _ at h
  simp only [StateT.run, ExceptT.run, bind, ExceptT.bind, ExceptT.mk, StateT.bind, h]
  rfl

theorem run_run_bind_of_error {e : ε} (h : x.run.run s = (.error e, t))
    (f : α → ExceptT ε (StateM σ) β) : (x >>= f).run.run s = (.error e, t) := by
  change x s = _ at h
  simp only [StateT.run, ExceptT.run, bind, ExceptT.bind, ExceptT.mk, StateT.bind, h]
  rfl

theorem run_run_get_bind (f : σ → ExceptT ε (StateM σ) β) (s : σ) :
    (get >>= f).run.run s = (f s).run.run s := rfl

theorem run_run_tryCatch_of_ok {r : α} (h : x.run.run s = (.ok r, t))
    (f : ε → ExceptT ε (StateM σ) α) : (tryCatch x f).run.run s = (.ok r, t) := by
  change x s = _ at h
  simp only [StateT.run, ExceptT.run, tryCatch, tryCatchThe, MonadExceptOf.tryCatch,
    ExceptT.tryCatch, ExceptT.mk, bind, StateT.bind, h]
  rfl

theorem run_run_tryCatch_of_error {e : ε} (h : x.run.run s = (.error e, t))
    (f : ε → ExceptT ε (StateM σ) α) : (tryCatch x f).run.run s = (f e).run.run t := by
  change x s = _ at h
  simp only [StateT.run, ExceptT.run, tryCatch, tryCatchThe, MonadExceptOf.tryCatch,
    ExceptT.tryCatch, ExceptT.mk, bind, StateT.bind, h]

end Exceptions

/-! ## Actions on the session -/

/-- The crash of the engine over a message that cannot be written to the standard error. -/
def Session.silence? (s : Session) (text : String) : Option Crash :=
  match s.host.print 2 text with
  | .ok _ => none
  | .error cause => some (.standardError cause)

theorem exists_of_silence? {s : Session} {text : String} {crash : Crash}
    (h : s.silence? text = some crash) : ∃ cause, crash = .standardError cause := by
  unfold Session.silence? at h
  split at h
  · cases h
  · exact ⟨_, (Option.some.inj h).symm⟩

namespace Action

variable {α β : Type}

def outcome (x : Action α) (s : Session) : Except Crash α × Session := x.run.run s

theorem outcome_bind (x : Action α) (f : α → Action β) (s : Session) :
    (x >>= f).outcome s =
      match x.outcome s with
      | (.ok r, t) => (f r).outcome t
      | (.error e, t) => (.error e, t) := by
  rcases h : x.outcome s with ⟨e | r, t⟩
  · exact run_run_bind_of_error h f
  · exact run_run_bind_of_ok h f

theorem outcome_pure (r : α) (s : Session) : (pure r : Action α).outcome s = (.ok r, s) := rfl

theorem outcome_ask (f : Session → α × Session) (s : Session) :
    (ask f).outcome s = (.ok (f s).1, (f s).2) := rfl

theorem outcome_get (s : Session) : (get : Action Session).outcome s = (.ok s, s) := rfl

theorem outcome_tell (text : String) (s : Session) :
    (tell text).outcome s =
      match s.silence? text with
      | none => (.ok (), { s with host := s.host.say 2 text })
      | some crash => (.error crash, s) := by
  rw [tell, outcome_bind, outcome_get]
  dsimp only
  rw [outcome_bind, Session.silence?, Machine.Host.say]
  cases s.host.print 2 text <;> rfl

theorem eq_of_outcome_tell {text : String} {u : Unit} {s t : Session}
    (h : (tell text).outcome s = (.ok u, t)) : t = { s with host := s.host.say 2 text } := by
  rw [outcome_tell] at h
  split at h <;> cases h
  rfl

end Action

/-! ## Actions on a plan -/

namespace PlanAction

variable {α β : Type}

def outcome (x : PlanAction α) (a : Situation) : Except Crash (α × PlanState) × Session :=
  (x.run a.1).outcome a.2

/-- An action ends well, with a value and in a new situation. -/
def Gives (x : PlanAction α) (a : Situation) (r : α) (b : Situation) : Prop :=
  x.outcome a = (.ok (r, b.1), b.2)

/-- An action crashes, and leaves a session behind. -/
def Crashes (x : PlanAction α) (a : Situation) (crash : Crash) (s : Session) : Prop :=
  x.outcome a = (.error crash, s)

theorem gives_or_crashes (x : PlanAction α) (a : Situation) :
    (∃ r b, x.Gives a r b) ∨ ∃ crash s, x.Crashes a crash s := by
  rcases h : x.outcome a with ⟨crash | ⟨r, p⟩, s⟩
  · exact Or.inr ⟨crash, s, h⟩
  · exact Or.inl ⟨r, (p, s), h⟩

theorem Gives.unique {x : PlanAction α} {a b b' : Situation} {r r' : α} (h : x.Gives a r b)
    (h' : x.Gives a r' b') : r = r' ∧ b = b' := by
  simpa [Prod.ext_iff, and_assoc] using h.symm.trans h'

theorem outcome_bind (x : PlanAction α) (f : α → PlanAction β) (a : Situation) :
    (x >>= f).outcome a =
      match x.outcome a with
      | (.ok (r, p), s) => (f r).outcome (p, s)
      | (.error e, s) => (.error e, s) := by
  have hbind : (x >>= f).outcome a = (x.run a.1 >>= fun q ↦ (f q.1).run q.2).outcome a.2 := rfl
  have hx : x.outcome a = (x.run a.1).outcome a.2 := rfl
  rw [hbind, Action.outcome_bind, hx]
  rcases (x.run a.1).outcome a.2 with ⟨_ | ⟨r, p⟩, s⟩ <;> rfl

theorem Gives.bind_iff {x : PlanAction α} {a b c : Situation} {r : α} {r' : β} (h : x.Gives a r b)
    (f : α → PlanAction β) : (x >>= f).Gives a r' c ↔ (f r).Gives b r' c := by
  rw [Gives, outcome_bind, h]
  rfl

theorem Gives.crashes_bind_iff {x : PlanAction α} {a b : Situation} {r : α} {crash : Crash}
    {s : Session} (h : x.Gives a r b) (f : α → PlanAction β) :
    (x >>= f).Crashes a crash s ↔ (f r).Crashes b crash s := by
  rw [Crashes, outcome_bind, h]
  rfl

theorem Gives.bind {x : PlanAction α} {f : α → PlanAction β} {a b c : Situation} {r : α} {r' : β}
    (h : x.Gives a r b) (hf : (f r).Gives b r' c) : (x >>= f).Gives a r' c :=
  (h.bind_iff f).mpr hf

theorem gives_bind_iff {x : PlanAction α} {f : α → PlanAction β} {a c : Situation} {r' : β} :
    (x >>= f).Gives a r' c ↔ ∃ r b, x.Gives a r b ∧ (f r).Gives b r' c := by
  refine ⟨fun h ↦ ?_, fun ⟨r, b, hx, hf⟩ ↦ hx.bind hf⟩
  rcases gives_or_crashes x a with ⟨r, b, hx⟩ | ⟨crash, s, hx⟩
  · exact ⟨r, b, hx, (hx.bind_iff f).mp h⟩
  · rw [Gives, outcome_bind, hx] at h
    cases (Prod.mk.inj h).1

theorem Crashes.bind {x : PlanAction α} {a : Situation} {crash : Crash} {s : Session}
    (h : x.Crashes a crash s) (f : α → PlanAction β) : (x >>= f).Crashes a crash s := by
  rw [Crashes, outcome_bind, h]

/-! ### Single steps -/

theorem gives_pure (r : α) (a : Situation) : (pure r : PlanAction α).Gives a r a := rfl

theorem gives_ask (f : Session → α × Session) (a : Situation) :
    (ask f).Gives a (f a.2).1 (a.1, (f a.2).2) := rfl

theorem gives_change (f : Session → Session) (a : Situation) :
    (change f).Gives a () (a.1, f a.2) := rfl

theorem gives_session (a : Situation) : session.Gives a a.2 a := rfl

theorem gives_get (a : Situation) : (get : PlanAction PlanState).Gives a a.1 a := rfl

theorem gives_modify (f : PlanState → PlanState) (a : Situation) :
    (modify f : PlanAction Unit).Gives a () (f a.1, a.2) := rfl

theorem gives_stage? (index : Nat) (a : Situation) :
    (stage? index).Gives a a.1.plan.stages[index]? a := rfl

def withStage (p : PlanState) (index : Nat) (stage : RunningStage) : PlanState :=
  { p with plan := { p.plan with stages := p.plan.stages.modify index fun _ ↦ stage } }

theorem gives_setStage (index : Nat) (stage : RunningStage) (a : Situation) :
    (setStage index stage).Gives a () (withStage a.1 index stage, a.2) := rfl

theorem outcome_liftM (x : Action α) (a : Situation) :
    (liftM x : PlanAction α).outcome a =
      match x.outcome a.2 with
      | (.ok r, t) => (.ok (r, a.1), t)
      | (.error crash, t) => (.error crash, t) := by
  have hlift : (liftM x : PlanAction α).outcome a = (x >>= fun r ↦ pure (r, a.1)).outcome a.2 := rfl
  rw [hlift, Action.outcome_bind]
  rcases x.outcome a.2 with ⟨e | r, t⟩ <;> rfl

theorem gives_liftM_iff {x : Action α} {a b : Situation} {r : α} :
    (liftM x : PlanAction α).Gives a r b ↔ x.outcome a.2 = (.ok r, b.2) ∧ b.1 = a.1 := by
  obtain ⟨p, s⟩ := b
  rw [Gives, outcome_liftM]
  rcases x.outcome a.2 with ⟨e | r', t⟩
  · simp
  · simp only [Prod.mk.injEq, Except.ok.injEq]
    exact ⟨fun ⟨⟨hr, hp⟩, hs⟩ ↦ ⟨⟨hr, hs⟩, hp.symm⟩, fun ⟨⟨hr, hs⟩, hp⟩ ↦ ⟨⟨hr, hp.symm⟩, hs⟩⟩

theorem gives_tell {text : String} {a : Situation} (h : a.2.silence? text = none) :
    (liftM (Action.tell text) : PlanAction Unit).Gives a ()
      (a.1, { a.2 with host := a.2.host.say 2 text }) := by
  rw [Gives, outcome_liftM, Action.outcome_tell, h]

theorem crashes_tell {text : String} {a : Situation} {crash : Crash}
    (h : a.2.silence? text = some crash) :
    (liftM (Action.tell text) : PlanAction Unit).Crashes a crash a.2 := by
  rw [Crashes, outcome_liftM, Action.outcome_tell, h]

theorem eq_of_gives_tell {text : String} {a b : Situation} {u : Unit}
    (h : (liftM (Action.tell text) : PlanAction Unit).Gives a u b) :
    a.2.silence? text = none ∧ b = (a.1, { a.2 with host := a.2.host.say 2 text }) := by
  cases hsilence : a.2.silence? text with
  | none => exact ⟨rfl, (h.unique (gives_tell hsilence)).2⟩
  | some crash =>
    rw [Gives, crashes_tell hsilence] at h
    cases h

/-- A loop goes through all of its rounds if each of them only changes the situation. -/
theorem gives_forIn {ι : Type} {f : Situation → ι → Situation}
    {body : ι → PUnit → PlanAction (ForInStep PUnit)}
    (hbody : ∀ i a, (body i PUnit.unit).Gives a (.yield PUnit.unit) (f a i)) (is : List ι)
    (a : Situation) :
    (forIn is PUnit.unit body >>= fun _ ↦ pure () : PlanAction Unit).Gives a () (is.foldl f a) := by
  induction is generalizing a with
  | nil => rfl
  | cons i is ih =>
    rw [List.forIn_cons, bind_assoc, (hbody i a).bind_iff]
    exact ih (f a i)

end PlanAction

end ShellEngine
