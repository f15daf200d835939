import ShellEngine.Proofs.Engine.Chores
import ShellEngine.Proofs.Engine.Launching
import ShellEngine.Proofs.Engine.Streams
import ShellEngine.Proofs.Engine.Waiting

/-!
# What is added to the books

A harvester is started with a stage, and a job is entered when a stage or a plan goes on without the
engine. Nothing else that happens while a stage is run starts a harvester, joins one, or enters a job
(`Session.Adds`): not the passing of time, no builtin, no redirection and no wait.
-/

namespace ShellEngine

open Machine

/-! ## Entering jobs -/

/-- The table once some jobs were entered, one after the other, with looks at it in between. -/
inductive JobTable.Entered (t : JobTable) : List Job → JobTable → Prop
  | refl : Entered t [] t
  | look {js : List Job} {u : JobTable} (h : Entered t js u) (v : Supervision) :
      Entered t js (u.look v).2
  | register {js : List Job} {u : JobTable} (h : Entered t js u) (text : String)
      (child harvester : Option Nat) :
      Entered t (js ++ [{ id := u.lastId + 1, text, child, harvester }])
        (u.register text child harvester).2

theorem JobTable.Entered.trans {t u w : JobTable} {js js' : List Job} (h : t.Entered js u)
    (h' : u.Entered js' w) : t.Entered (js ++ js') w := by
  induction h' with
  | refl => rwa [List.append_nil]
  | look _ v ih => exact ih.look v
  | register _ text child harvester ih =>
    rw [← List.append_assoc]
    exact ih.register text child harvester

namespace Session

/-- Of each harvester that was ever started, whether it was joined. -/
def joins (s : Session) : Array Bool := s.harvesters.map Harvester.joined

/-- Some harvesters were started, and some jobs were entered. No harvester was joined. -/
structure Adds (s : Session) (started : Nat) (js : List Job) (t : Session) : Prop where
  joins : t.joins = s.joins ++ Array.replicate started false
  jobs : s.jobs.Entered js t.jobs

namespace Adds

variable {s t u : Session} {started started' : Nat} {js js' : List Job}

theorem of_eq (hharvesters : t.harvesters = s.harvesters) (hjobs : t.jobs = s.jobs) :
    Adds s 0 [] t where
  joins := by simp [Session.joins, hharvesters]
  jobs := hjobs ▸ .refl

theorem refl (s : Session) : Adds s 0 [] s := of_eq rfl rfl

theorem trans (h : Adds s started js t) (h' : Adds t started' js' u) :
    Adds s (started + started') (js ++ js') u where
  joins := by rw [h'.joins, h.joins, Array.append_assoc, Array.replicate_append_replicate]
  jobs := h.jobs.trans h'.jobs

theorem size (h : Adds s started js t) : t.harvesters.size = s.harvesters.size + started := by
  simpa [Session.joins] using congrArg Array.size h.joins

theorem getElem?_joins (h : Adds s started js t) (key : Nat) : t.joins[key]? =
    if key < s.harvesters.size then s.joins[key]?
    else if key < s.harvesters.size + started then some false else none := by
  have hsize : s.joins.size = s.harvesters.size := Array.size_map
  rw [h.joins, Array.getElem?_append, hsize, Array.getElem?_replicate]
  grind

theorem before (h : Adds s 0 [] t) (h' : Adds t started js u) : Adds s started js u := by
  simpa using h.trans h'

theorem after (h : Adds s started js t) (h' : Adds t 0 [] u) : Adds s started js u := by
  simpa using h.trans h'

end Adds

/-! ## What adds nothing -/

theorem Adds.lapse : Lapse fun s t ↦ Adds s 0 [] t where
  refl := Adds.refl
  trans h h' := h.before h'
  clock _ _ _ := .of_eq rfl rfl
  adopt _ _ := .of_eq rfl rfl
  records _ _ := .of_eq rfl rfl
  harvesters _ _ h := ⟨by simpa [Session.joins] using h, .refl⟩
  modifyChild _ _ _ := .of_eq rfl rfl
  aliases _ _ := .of_eq rfl rfl
  sharedAliases _ _ := .of_eq rfl rfl
  cancel _ := .of_eq rfl rfl

theorem Adds.chore : Chore fun s t ↦ Adds s 0 [] t where
  refl := Adds.refl
  trans h h' := h.before h'
  write _ _ _ _ _ := .of_eq rfl rfl
  environment _ _ := .of_eq rfl rfl
  cwd _ _ := .of_eq rfl rfl
  aliases _ _ := .of_eq rfl rfl
  look s := ⟨by simp [Session.joins], .look .refl _⟩
  exitRequest _ _ := .of_eq rfl rfl

section Nothing

variable (s : Session)

theorem adds_foldl {ι : Type} {f : Session → ι → Session} (hf : ∀ s i, Adds s 0 [] (f s i))
    (is : List ι) : Adds s 0 [] (is.foldl f s) :=
  Adds.lapse.foldl hf is s

theorem adds_hold (reader : Option Nat) : Adds s 0 [] (s.hold reader) := by
  cases reader <;> exact .of_eq rfl rfl

theorem adds_commenceDrains (r : RunningStage) : Adds s 0 [] (s.commenceDrains r).2 :=
  adds_foldl s (f := fun s (d : Nat × Nat) ↦ s.commence d.1 d.2) (fun _ _ ↦ .of_eq rfl rfl) _

theorem adds_finalize (buffers : List Nat) : Adds s 0 [] (s.finalize buffers) :=
  Adds.lapse.finalize
    (Adds.lapse.runPump (fun _ _ _ _ ↦ .of_eq rfl rfl) fun _ _ ↦ .of_eq rfl rfl) s buffers

theorem adds_replay {t : Session} {buffer : Nat} {result : Except EngineError Nat}
    (h : s.replay buffer = (result, t)) : Adds s 0 [] t := by
  unfold replay at h
  split at h <;> obtain ⟨-, rfl⟩ := Prod.mk.inj h
  · exact .of_eq rfl rfl
  · exact .of_eq rfl rfl

theorem adds_waitForStage (r : RunningStage) : Adds s 0 [] (s.waitForStage r).2 :=
  Adds.lapse.waitForStage (fun _ _ ↦ .of_eq rfl rfl) (fun _ _ ↦ .of_eq rfl rfl)
    (fun _ _ ↦ .of_eq rfl rfl) adds_finalize s r

end Nothing

/-! ## What a launch adds -/

theorem Adds.of_launching {s t : Session} {n : Nat} (h : Launching s n t) : Adds s n [] t := by
  induction h with
  | refl => exact .refl s
  | look _ ih => exact ih.after (Adds.lapse.lookAtSharedAliases _)
  | processes _ _ _ _ ih => exact ih.after (.of_eq rfl rfl)
  | @harvest n t _ harvester hjoined ih =>
    have hpushed : Adds t 1 [] { t with harvesters := t.harvesters.push harvester } := by
      refine ⟨?_, .refl⟩
      rw [Session.joins, Array.map_push, hjoined]
      rfl
    exact ih.trans hpushed
  | catchUp _ ih => exact ih.after (Adds.lapse.catchUp _)

/-- What a launch of a stage adds that holds on to nothing: at most a harvester, and then it is that
of the stage. -/
theorem adds_launch (s : Session) (r : RunningStage) (target : String) (hr : r.harvester = none) :
    ∃ started, Adds s started [] (s.launch r target).2.2 ∧
      (s.launch r target).2.1.harvester.toList = List.range' s.harvesters.size started ∧
      (s.launch r target).2.1.stage.text = r.stage.text := by
  obtain ⟨started, hlaunched⟩ := s.exists_launched r target
  refine ⟨started, .of_launching hlaunched.launching, ?_,
    congrArg (·.stage.text) hlaunched.unstarted⟩
  rcases hlaunched.harvester with ⟨rfl, hsame⟩ | ⟨rfl, hnew⟩
  · rw [hsame, hr]
    rfl
  · rw [hnew]
    rfl

theorem adds_redirect (s : Session) (r : RunningStage) (routes : Bool) :
    Adds s 0 [] (s.redirect r routes).2.2 := .of_eq rfl rfl

theorem adds_revert (s : Session) (snapshot : Snapshot) : Adds s 0 [] (s.revert snapshot) :=
  .of_eq rfl rfl

theorem adds_closeDescriptor (s : Session) (fd : Nat) : Adds s 0 [] (s.closeDescriptor fd) :=
  .of_eq rfl rfl

theorem adds_delegate {s t : Session} {text : String} {result : Except EngineError Nat}
    (h : s.delegate text = (result, t)) (hresult : result.toOption = none) : Adds s 0 [] t := by
  unfold delegate at h
  split at h
  · obtain ⟨-, rfl⟩ := Prod.mk.inj h
    exact .refl s
  · split at h
    · obtain ⟨-, rfl⟩ := Prod.mk.inj h
      exact .refl s
    · obtain ⟨rfl, -⟩ := Prod.mk.inj h
      cases hresult

end Session

end ShellEngine
