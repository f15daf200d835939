import ShellEngine.Proofs.Engine.Outcome

/-!
# What builtins do to the session

A builtin writes to descriptors, sets variables, changes the current directory or the aliases, looks
at the jobs, or asks for the end of the session, and that is all. A relation that none of these
breaks (`Session.Chore`) holds between a session and what a builtin makes of it, also if the builtin
crashes.
-/

namespace ShellEngine

open Machine

namespace Session

/-- A relation between sessions, reflexive and transitive, that holds across each change that a
builtin makes. -/
structure Chore (R : Session → Session → Prop) : Prop where
  refl : ∀ s, R s s
  trans : ∀ {s t u}, R s t → R t u → R s u
  write : ∀ s fd os host, s.host.write fd os = .ok host → R s { s with host }
  environment : ∀ s environment, R s { s with host := { s.host with environment } }
  cwd : ∀ s cwd, R s { s with host := { s.host with cwd } }
  aliases : ∀ s aliases, R s { s with aliases }
  look : ∀ s, R s { s with jobs := (s.jobs.look s.supervision).2 }
  exitRequest : ∀ s exitRequest, R s { s with exitRequest }

end Session

theorem exists_cwd_of_enterDirectory {h k : Host} {path : Octets}
    (henter : h.enterDirectory path = .ok k) : ∃ cwd, k = { h with cwd } := by
  unfold Host.enterDirectory at henter
  cases hfound : Host.lift (h.world.tree.resolve h.cwd path) with
  | error e => simp [hfound, Bind.bind, Except.bind] at henter
  | ok cwd =>
    simp only [hfound, Bind.bind, Except.bind, Pure.pure, Except.pure] at henter
    split at henter
    · cases henter
      exact ⟨cwd, rfl⟩
    · cases henter

namespace Action

variable {α β : Type} {R : Session → Session → Prop} {s : Session}

theorem outcome_get_bind (f : Session → Action β) (s : Session) :
    (get >>= f).outcome s = (f s).outcome s := by
  rw [outcome_bind, outcome_get]

theorem outcome_change_bind (g : Session → Session) (f : Unit → Action β) (s : Session) :
    (change g >>= f).outcome s = (f ()).outcome (g s) := by
  rw [outcome_bind]
  rfl

/-- Whatever an action comes to, a relation holds between the sessions before and after it. -/
def Keeps (R : Session → Session → Prop) (x : Action α) (s : Session) : Prop := R s (x.outcome s).2

theorem keeps_get_bind {f : Session → Action β} (hf : Keeps R (f s) s) :
    Keeps R (get >>= f) s := by
  rwa [Keeps, outcome_get_bind]

end Action

open ShellEngine.Action

namespace Session.Chore

variable {R : Session → Session → Prop} (h : Chore R)
include h

section Actions

variable {α β : Type} {s : Session}

theorem pure (r : α) (s : Session) : Keeps R (Pure.pure r : Action α) s := h.refl s

theorem bind {x : Action α} {f : α → Action β} (hx : Keeps R x s)
    (hf : ∀ r t, R s t → Keeps R (f r) t) : Keeps R (x >>= f) s := by
  unfold Keeps at hx ⊢
  rw [outcome_bind]
  rcases hr : x.outcome s with ⟨e | r, t⟩ <;> rw [hr] at hx
  · exact hx
  · exact h.trans hx (hf r t hx)

theorem change_bind {g : Session → Session} {f : Unit → Action β} (hg : R s (g s))
    (hf : Keeps R (f ()) (g s)) : Keeps R (change g >>= f) s := by
  unfold Keeps at hf ⊢
  rw [outcome_change_bind]
  exact h.trans hg hf

end Actions

/-! ## Texts -/

theorem printed {s : Session} {fd : Nat} {text : String} {host : Host}
    (hprint : s.host.print fd text = .ok host) : R s { s with host } := by
  unfold Host.print at hprint
  split at hprint
  · cases hprint
    exact h.refl s
  · exact h.write s fd _ host hprint

theorem say (s : Session) (fd : Nat) (text : String) :
    R s { s with host := s.host.say fd text } := by
  rw [Host.say]
  cases hprint : s.host.print fd text with
  | error e => exact h.refl s
  | ok host => exact h.printed hprint

theorem fail (b : Builtin) (message : String) (s : Session) : Keeps R (b.fail message) s :=
  h.change_bind (h.say s 2 _) (h.pure _ _)

theorem print (b : Builtin) (text : String) {next : Action Int} {s : Session}
    (hnext : ∀ t, Keeps R next t) : Keeps R (b.print text next) s := by
  refine keeps_get_bind ?_
  split
  · rename_i host hprint
    exact h.change_bind (h.printed hprint) (hnext _)
  · exact h.fail b _ s

theorem succeed (s : Session) : Keeps R Builtin.succeed s := h.pure _ s

/-! ## Builtins -/

theorem runAlias (args : List String) (s : Session) : Keeps R (Builtin.runAlias args) s := by
  have hgo (status : Int) (args : List String) :
      ∀ s, Keeps R (Builtin.runAlias.go status args) s := by
    induction args generalizing status with
    | nil => exact fun s ↦ h.pure _ s
    | cons arg rest ih =>
      intro s
      unfold Builtin.runAlias.go
      split
      · split
        · exact h.fail _ _ s
        · exact h.change_bind (h.aliases s _) (ih _ _)
      · refine keeps_get_bind ?_
        split
        · exact h.print _ _ (ih _)
        · exact ih _ s
  unfold Builtin.runAlias
  split
  · exact keeps_get_bind (h.print _ _ h.succeed)
  · exact hgo _ _ s

theorem orCrash {α : Type} (r : Except Crash α) (s : Session) : Keeps R (orCrash r) s := by
  cases r <;> exact h.refl s

theorem setVariable (name value : String) (s : Session) :
    Keeps R (Builtin.setVariable name value) s := by
  refine keeps_get_bind (h.bind (h.orCrash _ s) fun environment t _ ↦ ?_)
  exact h.environment t environment

theorem runCd (args : List String) (s : Session) : Keeps R (Builtin.runCd args) s := by
  unfold Builtin.runCd
  refine keeps_get_bind ?_
  dsimp only
  split
  · exact h.fail _ _ s
  · split
    · exact h.fail _ _ s
    · split
      · exact h.fail _ _ s
      · rename_i henter
        obtain ⟨cwd, rfl⟩ := exists_cwd_of_enterDirectory henter
        refine h.change_bind (h.cwd s cwd) ?_
        have hlast (path : Octets) (t : Session) : Keeps R (do
            Builtin.setVariable "PWD" path.toText
            Pure.pure exitSuccess) t :=
          h.bind (h.setVariable _ _ t) fun _ u _ ↦ h.pure _ u
        split
        · exact h.bind (h.setVariable _ _ _) fun _ t _ ↦ hlast _ t
        · exact hlast _ _

theorem runPwd (s : Session) : Keeps R Builtin.runPwd s := by
  refine keeps_get_bind ?_
  split
  · exact h.print _ _ h.succeed
  · exact h.fail _ _ s

theorem runExit (args : List String) (s : Session) : Keeps R (Builtin.runExit args) s := by
  have hrequest (code : Int) (s : Session) : Keeps R (do
      change fun s ↦ { s with exitRequest := some code }
      Pure.pure code) s :=
    h.change_bind (h.exitRequest s _) (h.pure _ _)
  unfold Builtin.runExit
  dsimp only
  split
  · exact keeps_get_bind (hrequest _ s)
  · split
    · exact hrequest _ s
    · exact h.fail _ _ s

theorem runJobs (s : Session) : Keeps R Builtin.runJobs s :=
  h.bind (h.look s) fun _ _ _ ↦ h.print _ _ h.succeed

theorem runSet (args : List String) (s : Session) : Keeps R (Builtin.runSet args) s := by
  have hgo (args : List String) : ∀ s, Keeps R (Builtin.runSet.go args) s := by
    induction args with
    | nil => exact fun s ↦ h.pure _ s
    | cons arg rest ih =>
      intro s
      unfold Builtin.runSet.go
      split
      · split
        · exact h.fail _ _ s
        · split
          · refine keeps_get_bind (h.bind (h.orCrash _ s) fun environment t _ ↦ ?_)
            exact h.change_bind (h.environment t environment) (ih _)
          · exact h.bind (h.setVariable _ _ s) fun _ t _ ↦ ih t
      · refine keeps_get_bind ?_
        split
        · exact h.print _ _ (ih)
        · exact h.pure _ s
  unfold Builtin.runSet
  split
  · exact keeps_get_bind (h.print _ _ h.succeed)
  · exact hgo _ s

/-- Whatever is kept by each thing that a builtin does is kept by the builtin. -/
theorem run (b : Builtin) (args : List String) (s : Session) : Keeps R (b.run args) s := by
  cases b with
  | «alias» => exact h.runAlias args s
  | cd => exact h.runCd args s
  | exit => exact h.runExit args s
  | jobs => exact h.runJobs s
  | pwd => exact h.runPwd s
  | set => exact h.runSet args s

end Session.Chore

end ShellEngine
