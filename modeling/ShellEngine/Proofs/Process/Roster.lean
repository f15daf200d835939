import Mathlib.Data.List.GetD
import Mathlib.Data.List.Range
import Mathlib.Logic.Function.Basic
import ShellEngine.Process.Child
import ShellEngine.Process.Jobs

/-!
# Jobs and what befalls them

A job table with the traced children and the harvesters of its jobs, in any order of events. Who asks
a job for its status may change it, since a finished job lets go of its harvester. But a job that was
asked differs from the job as it was registered only by a harvester that has ended, and answers like
it ever after (`Job.Resembles`). So what a table tells is told by the registrations and by what has
become of children and harvesters (`Roster.Sound`).
-/

namespace ShellEngine

/-! ## Jobs that were asked -/

namespace Job

variable {j₀ j : Job} {v v' : Supervision}

/-- A job as it was registered, or what is left of it since it was asked and had finished. -/
def Resembles (v : Supervision) (j₀ j : Job) : Prop :=
  j = j₀ ∨ j = { j₀ with harvester := none } ∧ (j₀.status? v).isSome

theorem status?_eq (j : Job) (v : Supervision) :
    j.status? v = if j.harvester.all v.harvesterEnded then j.exit? v else none := by
  rw [status?, ask]
  cases j.exit? v <;> cases j.harvester <;> simp
  split <;> rfl

theorem ask_snd (j : Job) (v : Supervision) :
    (j.ask v).2 = j ∨ (j.ask v).2 = { j with harvester := none } ∧ (j.status? v).isSome := by
  rw [status?, ask]
  cases j.exit? v with
  | none => exact Or.inl rfl
  | some exit =>
    cases j.harvester with
    | none => exact Or.inl rfl
    | some key => cases hended : v.harvesterEnded key <;> simp [hended]

theorem isSome_status?_iff :
    (j.status? v).isSome ↔ j.harvester.all v.harvesterEnded = true ∧ (j.exit? v).isSome := by
  rw [status?_eq]
  split <;> simp [*]

namespace Resembles

theorem id_eq (h : Resembles v j₀ j) : j.id = j₀.id := by
  obtain rfl | ⟨rfl, -⟩ := h <;> rfl

theorem status?_eq (h : Resembles v j₀ j) : j.status? v = j₀.status? v := by
  obtain rfl | ⟨rfl, hdone⟩ := h
  · rfl
  · rw [Job.status?_eq, Job.status?_eq, if_pos (isSome_status?_iff.mp hdone).1]
    rfl

theorem summary_eq (h : Resembles v j₀ j) : j.summary v = j₀.summary v := by
  have hstatus := h.status?_eq
  obtain rfl | ⟨rfl, -⟩ := h
  · rfl
  · rw [summary, summary, hstatus]

theorem ask (h : Resembles v j₀ j) : Resembles v j₀ (j.ask v).2 := by
  obtain hask | ⟨hask, hdone⟩ := ask_snd j v
  · rwa [hask]
  · rw [h.status?_eq] at hdone
    obtain rfl | ⟨rfl, -⟩ := h
    · exact Or.inr ⟨hask, hdone⟩
    · exact Or.inr ⟨hask, hdone⟩

theorem mono (h : Resembles v j₀ j)
    (hexit : (j₀.exit? v).isSome → (j₀.exit? v').isSome)
    (hended : ∀ key ∈ j₀.harvester, v.harvesterEnded key → v'.harvesterEnded key) :
    Resembles v' j₀ j := by
  obtain rfl | ⟨rfl, hdone⟩ := h
  · exact Or.inl rfl
  · obtain ⟨hharvester, hcode⟩ := isSome_status?_iff.mp hdone
    refine Or.inr ⟨rfl, isSome_status?_iff.mpr ⟨?_, hexit hcode⟩⟩
    rw [Option.all_eq_true] at hharvester ⊢
    exact fun key hkey ↦ hended key hkey (hharvester key hkey)

end Resembles

end Job

namespace JobTable

variable (t : JobTable) (v : Supervision)

theorem map_id_look_fst : (t.look v).1.map JobSummary.id = t.jobs.map Job.id := by
  rw [look, List.map_map]
  rfl

theorem map_id_look_snd : (t.look v).2.jobs.map Job.id = t.jobs.map Job.id := by
  rw [look, List.map_map]
  refine List.map_congr_left fun j _ ↦ ?_
  obtain h | ⟨h, -⟩ := j.ask_snd v <;> rw [Function.comp_apply, h]

theorem map_id_reap_fst : (t.reap v).1.map JobSummary.id
    = (t.jobs.filter fun j ↦ (j.status? v).isSome).map Job.id := by
  rw [reap, List.map_map]
  rfl

theorem perm_reap : ((t.reap v).1.map JobSummary.id ++ (t.reap v).2.jobs.map Job.id).Perm
    (t.jobs.map Job.id) := by
  have hsplit := List.filter_append_perm (fun j : Job ↦ (j.status? v).isSome) t.jobs
  simp only [Option.not_isSome] at hsplit
  rw [map_id_reap_fst, reap, ← List.map_append]
  exact hsplit.map _

end JobTable

/-! ## Events -/

/-- What a job is registered with: the process id of its traced child, if it has one, and whether it
has a harvester. -/
structure Registration where
  text : String
  pid : Option Int
  harvested : Bool
  deriving DecidableEq, Inhabited

/-- The job as it is entered; its child and its harvester go by its own id. -/
def Registration.job (g : Registration) (id : Nat) : Job :=
  { id
    text := g.text
    child := if g.pid.isSome then some id else none
    harvester := if g.harvested then some id else none }

/-- What happens to a table, or to the child or harvester of the job with some id. A harvester that
panics has ended too. -/
inductive JobEvent
  | register (g : Registration)
  | publish (id : Nat) (code : Int)
  | dropPublisher (id : Nat)
  | endHarvester (id : Nat)
  | list
  | reap
  deriving DecidableEq

/-- What the event tells. -/
inductive JobAnswer
  | registered (id : Nat)
  | told (answer : Bool)
  | listed (jobs : List JobSummary)
  | reaped (jobs : List JobSummary)
  | done
  deriving DecidableEq

namespace JobAnswer

def registered? : JobAnswer → Option Nat
  | registered id => some id
  | _ => none

/-- The ids of the jobs that are taken out of the table. -/
def reapedIds : JobAnswer → List Nat
  | reaped jobs => jobs.map JobSummary.id
  | _ => []

def summaries : JobAnswer → List JobSummary
  | listed jobs => jobs
  | reaped jobs => jobs
  | _ => []

def isListed : JobAnswer → Bool
  | listed _ => true
  | _ => false

end JobAnswer

/-- A job table with what belongs to its jobs. -/
structure Roster where
  table : JobTable := {}
  child : Nat → Option TracedChild := fun _ ↦ none
  ended : Nat → Bool := fun _ ↦ false

namespace Roster

def view (r : Roster) : Supervision :=
  { child := fun id ↦
      ((r.child id).map fun c ↦ { pid := some c.pid, code := c.status? : ChildView }).getD {}
    harvesterEnded := r.ended }

/-- Does something with the child of a job; without one there is nobody to tell. -/
def withChild (r : Roster) (id : Nat) (f : TracedChild → Bool × TracedChild) :
    JobAnswer × Roster :=
  (.told ((r.child id).any fun c ↦ (f c).1),
    { r with child := Function.update r.child id ((r.child id).map fun c ↦ (f c).2) })

def step (r : Roster) : JobEvent → JobAnswer × Roster
  | .register g =>
    let id := r.table.lastId + 1
    let entered := r.table.register g.text (g.job id).child (g.job id).harvester
    (.registered entered.1,
      { table := entered.2
        child := Function.update r.child id (g.pid.map fun pid ↦ { pid })
        ended := Function.update r.ended id false })
  | .publish id code => r.withChild id (·.publish code)
  | .dropPublisher id => r.withChild id TracedChild.dropPublisher
  | .endHarvester id => (.done, { r with ended := Function.update r.ended id true })
  | .list => (.listed (r.table.look r.view).1, { r with table := (r.table.look r.view).2 })
  | .reap => (.reaped (r.table.reap r.view).1, { r with table := (r.table.reap r.view).2 })

/-- What the events tell, one after the other, and where they lead. -/
def run (r : Roster) : List JobEvent → List JobAnswer × Roster
  | [] => ([], r)
  | e :: es => ((r.step e).1 :: ((r.step e).2.run es).1, ((r.step e).2.run es).2)

def answers (es : List JobEvent) : List JobAnswer := (run {} es).1

/-- Where the events lead that begin with an empty table. -/
def after (es : List JobEvent) : Roster := (run {} es).2

/-- The jobs that were registered, in their order. -/
def registrations (es : List JobEvent) : List Registration :=
  es.filterMap fun | .register g => some g | _ => none

def ids (r : Roster) : List Nat := r.table.jobs.map Job.id

theorem run_concat (r : Roster) (es : List JobEvent) (e : JobEvent) :
    r.run (es ++ [e]) = ((r.run es).1 ++ [((r.run es).2.step e).1], ((r.run es).2.step e).2) := by
  induction es generalizing r with
  | nil => rfl
  | cons e' es ih => rw [List.cons_append, run, ih, run, List.cons_append]

theorem answers_concat (es : List JobEvent) (e : JobEvent) :
    answers (es ++ [e]) = answers es ++ [((after es).step e).1] := by
  rw [answers, run_concat]
  rfl

theorem after_concat (es : List JobEvent) (e : JobEvent) :
    after (es ++ [e]) = ((after es).step e).2 := by
  rw [after, run_concat]
  rfl

/-! ## One event -/

section Step

variable (r : Roster) (e : JobEvent) {id : Nat} {j : Job}

/-- Where a job in the table comes from. -/
theorem mem_jobs_step (h : j ∈ (r.step e).2.table.jobs) :
    (∃ g, e = .register g ∧ j = g.job (r.table.lastId + 1)) ∨
      ∃ j' ∈ r.table.jobs, j = j' ∨ j = (j'.ask r.view).2 := by
  cases e with
  | register g =>
    obtain h | h := List.mem_append.mp h
    · exact Or.inr ⟨j, h, Or.inl rfl⟩
    · exact Or.inl ⟨g, rfl, List.mem_singleton.mp h⟩
  | publish => exact Or.inr ⟨j, h, Or.inl rfl⟩
  | dropPublisher => exact Or.inr ⟨j, h, Or.inl rfl⟩
  | endHarvester => exact Or.inr ⟨j, h, Or.inl rfl⟩
  | list =>
    obtain ⟨j', hj', rfl⟩ := List.mem_map.mp h
    exact Or.inr ⟨j', hj', Or.inr rfl⟩
  | reap => exact Or.inr ⟨j, List.mem_of_mem_filter h, Or.inl rfl⟩

theorem lastId_step :
    (r.step e).2.table.lastId = r.table.lastId + (registrations [e]).length := by
  cases e <;> rfl

theorem registered?_step : (r.step e).1.registered?.toList
    = List.range' (r.table.lastId + 1) (registrations [e]).length := by
  cases e <;> rfl

theorem code_withChild (key : Nat) (f : TracedChild → Bool × TracedChild)
    (hf : ∀ c : TracedChild, c.status?.isSome → (f c).2.status?.isSome)
    (h : (r.view.child id).code.isSome) :
    ((r.withChild key f).2.view.child id).code.isSome := by
  by_cases hkey : id = key
  · subst hkey
    cases hchild : r.child id with
    | none => simp [view, hchild] at h
    | some c => simpa [view, withChild, hchild] using hf c (by simpa [view, hchild] using h)
  · simpa [view, withChild, Function.update_of_ne hkey] using h

/-- A child that has a code keeps one; only the key of a new job is given anew. -/
theorem code_step (hid : id ≠ r.table.lastId + 1) (h : (r.view.child id).code.isSome) :
    ((r.step e).2.view.child id).code.isSome := by
  cases e with
  | register g => simpa [step, view, Function.update_of_ne hid] using h
  | publish key code =>
    refine code_withChild r key _ (fun c hc ↦ ?_) h
    rw [TracedChild.publish]
    split
    · rfl
    · exact hc
  | dropPublisher key => exact code_withChild r key _ (fun _ hc ↦ hc) h
  | endHarvester => exact h
  | list => exact h
  | reap => exact h

theorem ended_step (hid : id ≠ r.table.lastId + 1) (h : r.ended id = true) :
    (r.step e).2.ended id = true := by
  cases e with
  | register g => simpa only [step, Function.update_of_ne hid] using h
  | endHarvester key =>
    by_cases hkey : id = key
    · simp [step, hkey]
    · simpa only [step, Function.update_of_ne hkey] using h
  | publish => exact h
  | dropPublisher => exact h
  | list => exact h
  | reap => exact h

theorem pid_withChild {key : Nat} {f : TracedChild → Bool × TracedChild}
    (hf : ∀ c, (f c).2.pid = c.pid) :
    ((r.withChild key f).2.child id).map TracedChild.pid = (r.child id).map TracedChild.pid := by
  by_cases hkey : id = key
  · subst hkey
    simp [withChild, hf, Function.comp_def]
  · simp [withChild, Function.update_of_ne hkey]

theorem pid_step (hid : id ≠ r.table.lastId + 1) :
    ((r.step e).2.child id).map TracedChild.pid = (r.child id).map TracedChild.pid := by
  cases e with
  | register g => simp [step, Function.update_of_ne hid]
  | publish key code =>
    refine pid_withChild r fun c ↦ ?_
    rw [TracedChild.publish]
    split <;> rfl
  | dropPublisher => exact pid_withChild r fun _ ↦ rfl
  | endHarvester => rfl
  | list => rfl
  | reap => rfl

/-- Every job that is in the table, and the one that is registered, goes on in the table or is
reaped. -/
theorem perm_step : ((r.step e).1.reapedIds ++ (r.step e).2.ids).Perm
    (r.ids ++ (r.step e).1.registered?.toList) := by
  cases e with
  | register g => simp [step, ids, JobTable.register, JobAnswer.reapedIds, JobAnswer.registered?]
  | publish => simp [step, withChild, ids, JobAnswer.reapedIds, JobAnswer.registered?]
  | dropPublisher => simp [step, withChild, ids, JobAnswer.reapedIds, JobAnswer.registered?]
  | endHarvester => simp [step, ids, JobAnswer.reapedIds, JobAnswer.registered?]
  | list => simp [step, ids, JobTable.map_id_look_snd, JobAnswer.reapedIds, JobAnswer.registered?]
  | reap => simpa [step, ids, JobAnswer.reapedIds, JobAnswer.registered?] using r.table.perm_reap _

/-- What is left in the table keeps its order. -/
theorem ids_step_sublist :
    (r.step e).2.ids.Sublist (r.ids ++ (r.step e).1.registered?.toList) := by
  cases e with
  | register g => simp [step, ids, JobTable.register, JobAnswer.registered?]
  | publish => simp [step, withChild, ids, JobAnswer.registered?]
  | dropPublisher => simp [step, withChild, ids, JobAnswer.registered?]
  | endHarvester => simp [step, ids, JobAnswer.registered?]
  | list => simp [step, ids, JobTable.map_id_look_snd, JobAnswer.registered?]
  | reap =>
    simpa [step, ids, JobTable.reap, JobAnswer.registered?] using List.filter_sublist.map Job.id

/-- Jobs are presented in the order of the table. -/
theorem summaries_step_sublist : ((r.step e).1.summaries.map JobSummary.id).Sublist r.ids := by
  cases e with
  | list => simp [step, ids, JobTable.map_id_look_fst, JobAnswer.summaries]
  | reap =>
    rw [step, JobAnswer.summaries, JobTable.map_id_reap_fst]
    exact List.filter_sublist.map Job.id
  | register => exact List.nil_sublist _
  | publish => exact List.nil_sublist _
  | dropPublisher => exact List.nil_sublist _
  | endHarvester => exact List.nil_sublist _

end Step

/-! ## The jobs of a table are those that were registered -/

def entry (gs : List Registration) (id : Nat) : Job := (gs.getD (id - 1) default).job id

/-- The table holds jobs that were registered, in the order of registration, up to what asking them
changes. -/
structure Sound (gs : List Registration) (r : Roster) : Prop where
  lastId : r.table.lastId = gs.length
  ascending : r.ids.Pairwise (· < ·)
  mem : ∀ id ∈ r.ids, 0 < id ∧ id ≤ gs.length
  resembles : ∀ j ∈ r.table.jobs, (entry gs j.id).Resembles r.view j
  pid : ∀ id, 0 < id → id ≤ gs.length →
    (r.child id).map TracedChild.pid = (gs.getD (id - 1) default).pid

theorem getD_append_registration {gs : List Registration} {id : Nat} (hid : 0 < id)
    (h : id ≤ gs.length) (more : List Registration) :
    (gs ++ more).getD (id - 1) default = gs.getD (id - 1) default :=
  List.getD_append _ _ _ _ (by omega)

theorem getD_concat_registration (gs : List Registration) (g : Registration) :
    (gs ++ [g]).getD (gs.length + 1 - 1) default = g := by
  simp

theorem exit?_entry (gs : List Registration) (id : Nat) (v : Supervision) :
    (entry gs id).exit? v
      = if (gs.getD (id - 1) default).pid.isSome then (v.child id).code else some 0 := by
  rw [Job.exit?, entry, Registration.job]
  cases (gs.getD (id - 1) default).pid <;> rfl

namespace Sound

variable {gs : List Registration} {r r' : Roster} {e : JobEvent}

theorem initially : Sound [] {} where
  lastId := rfl
  ascending := List.Pairwise.nil
  mem := fun _ h ↦ absurd h List.not_mem_nil
  resembles := fun _ h ↦ absurd h List.not_mem_nil
  pid := fun _ hpos hle ↦ absurd hpos (Nat.not_lt.mpr hle)

/-- What a job was registered as, it stays while something happens. -/
theorem resembles_of_resembles (h : Sound gs r) (e : JobEvent) {id : Nat} (hle : id ≤ gs.length)
    {j : Job} (hj : (entry gs id).Resembles r.view j) :
    (entry gs id).Resembles (r.step e).2.view j := by
  have hid : id ≠ r.table.lastId + 1 := by
    have hlast := h.lastId
    omega
  refine hj.mono ?_ ?_
  · rw [exit?_entry, exit?_entry]
    split
    · exact code_step r e hid
    · exact fun hcode ↦ hcode
  · intro key hkey
    have hharvester : (gs.getD (id - 1) default).harvested = true ∧ id = key := by
      simpa [entry, Registration.job] using hkey
    rw [← hharvester.2]
    exact ended_step r e hid

theorem mem_step (h : Sound gs r) (e : JobEvent) {id : Nat} (hid : id ∈ (r.step e).2.ids) :
    0 < id ∧ id ≤ (gs ++ registrations [e]).length := by
  rw [List.length_append]
  obtain hid | hid := List.mem_append.mp ((ids_step_sublist r e).mem hid)
  · obtain ⟨hpos, hle⟩ := h.mem id hid
    exact ⟨hpos, hle.trans (Nat.le_add_right _ _)⟩
  · rw [registered?_step, List.mem_range'_1, h.lastId] at hid
    omega

theorem ascending_step (h : Sound gs r) (e : JobEvent) : (r.step e).2.ids.Pairwise (· < ·) := by
  refine List.Pairwise.sublist (ids_step_sublist r e) ?_
  refine List.pairwise_append.mpr ⟨h.ascending, ?_, fun id hid new hnew ↦ ?_⟩
  · rw [registered?_step]
    exact List.pairwise_lt_range'
  · rw [registered?_step, List.mem_range'_1, h.lastId] at hnew
    have hle := (h.mem id hid).2
    omega

theorem resembles_step (h : Sound gs r) (e : JobEvent) {j : Job}
    (hj : j ∈ (r.step e).2.table.jobs) :
    (entry (gs ++ registrations [e]) j.id).Resembles (r.step e).2.view j := by
  obtain ⟨g, rfl, rfl⟩ | ⟨j', hj', hj⟩ := mem_jobs_step r e hj
  · left
    rw [entry, Registration.job, h.lastId]
    exact congrArg (Registration.job · _) (getD_concat_registration gs g).symm
  · obtain ⟨hpos, hle⟩ := h.mem j'.id (List.mem_map_of_mem hj')
    have hnow : (entry gs j'.id).Resembles r.view j := by
      obtain rfl | rfl := hj
      · exact h.resembles j hj'
      · exact (h.resembles j' hj').ask
    rw [show j.id = j'.id from hnow.id_eq, entry, getD_append_registration hpos hle, ← entry]
    exact h.resembles_of_resembles e hle hnow

theorem pid_step (h : Sound gs r) (e : JobEvent) {id : Nat} (hpos : 0 < id)
    (hle : id ≤ (gs ++ registrations [e]).length) :
    ((r.step e).2.child id).map TracedChild.pid
      = ((gs ++ registrations [e]).getD (id - 1) default).pid := by
  by_cases hold : id ≤ gs.length
  · have hlast := h.lastId
    rw [Roster.pid_step r e (by omega), getD_append_registration hpos hold, h.pid id hpos hold]
  · cases e with
    | register g =>
      obtain rfl : id = gs.length + 1 := by simp [registrations] at hle; omega
      simp [Roster.step, h.lastId, registrations, Function.comp_def]
    | publish => simp [registrations] at hle; omega
    | dropPublisher => simp [registrations] at hle; omega
    | endHarvester => simp [registrations] at hle; omega
    | list => simp [registrations] at hle; omega
    | reap => simp [registrations] at hle; omega

theorem step (h : Sound gs r) (e : JobEvent) :
    Sound (gs ++ registrations [e]) (r.step e).2 where
  lastId := by rw [lastId_step, h.lastId, List.length_append]
  ascending := h.ascending_step e
  mem := fun _ ↦ h.mem_step e
  resembles := fun _ ↦ h.resembles_step e
  pid := fun _ ↦ h.pid_step e

end Sound

theorem registrations_concat (es : List JobEvent) (e : JobEvent) :
    registrations (es ++ [e]) = registrations es ++ registrations [e] :=
  List.filterMap_append

theorem sound_after (es : List JobEvent) : Sound (registrations es) (after es) := by
  induction es using List.reverseRecOn with
  | nil => exact Sound.initially
  | append_singleton es e ih =>
    rw [registrations_concat, after_concat]
    exact ih.step e

end Roster
end ShellEngine
