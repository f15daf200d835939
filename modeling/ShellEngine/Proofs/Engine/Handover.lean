import ShellEngine.Machine.Installation
import ShellEngine.Proofs.Engine.Custody

/-!
# What goes on without the engine

When the loop over a plan is done, its stages hold on to the children and harvesters that were
started for them. A cancelled line joins all of these harvesters; then each stage is released. One
that goes on is handed to the job table, and with it a harvester that still has something to trace;
any other harvester is joined (`Session.Releases`).

So every harvester comes to one end: it is joined, or one job has it. And every stage is entered at
most once, because a stage that was detached holds on to nothing that would go on
(`accounted_of_execute`).
-/

namespace ShellEngine

open Machine

namespace Session

/-- Whether a stage goes on without the engine: it has a harvester that still has something to
trace, or nobody waits for it, and nobody reads what it writes. -/
def goesOn (s : Session) (r : RunningStage) : Bool :=
  s.traces r || (!r.stage.waits && r.stage.stdout != .pipe && r.child.isSome)

def entry (s : Session) (r : RunningStage) (harvester : Option Nat) : Job :=
  { id := s.jobs.lastId + 1, text := r.stage.text, child := r.child, harvester }

/-- Some jobs were entered, and some harvesters were joined. -/
structure Releases (s : Session) (js : List Job) (keys : List Nat) (t : Session) : Prop where
  jobs : s.jobs.Entered js t.jobs
  joins : ∀ key : Nat, t.joins[key]? =
    if key ∈ keys then s.joins[key]?.map fun _ ↦ true else s.joins[key]?
  traces : t.traces = s.traces

namespace Releases

variable {s t u : Session} {js js' : List Job} {keys keys' : List Nat}

theorem refl (s : Session) : Releases s [] [] s := ⟨.refl, fun _ ↦ rfl, rfl⟩

theorem trans (h : Releases s js keys t) (h' : Releases t js' keys' u) :
    Releases s (js ++ js') (keys ++ keys') u where
  jobs := h.jobs.trans h'.jobs
  joins key := by
    rw [h'.joins, h.joins]
    simp only [List.mem_append]
    by_cases hkey : key ∈ keys <;> by_cases hkey' : key ∈ keys' <;> simp [hkey, hkey']
  traces := h'.traces.trans h.traces

theorem goesOn (h : Releases s js keys t) : t.goesOn = s.goesOn := by
  funext r
  rw [Session.goesOn, Session.goesOn, h.traces]

theorem join (s : Session) (key : Nat) : Releases s [] [key] (s.join key) where
  jobs := .refl
  joins k := by
    simp only [Session.joins, Session.join, Array.getElem?_map, Array.getElem?_modify,
      List.mem_singleton, eq_comm (a := key)]
    split
    · rw [Option.map_map, Option.map_map]
      rfl
    · rfl
  traces := by
    funext r
    unfold Session.traces
    cases r.harvester with
    | none => rfl
    | some k =>
      have hended : ((s.join key).harvesters[k]?).map Harvester.ended
          = (s.harvesters[k]?).map Harvester.ended := by
        rw [Session.join, Array.getElem?_modify]
        split
        · rw [Option.map_map]
          rfl
        · rfl
      dsimp only
      rw [hended]
      rfl

theorem joinOf (s : Session) (harvester : Option Nat) :
    Releases s [] harvester.toList (harvester.elim s s.join) := by
  cases harvester with
  | none => exact .refl s
  | some key => exact .join s key

theorem joinStages (s : Session) (stages : List RunningStage) :
    Releases s [] (stages.filterMap RunningStage.harvester) (s.joinStages stages) := by
  induction stages generalizing s with
  | nil => exact .refl s
  | cons r stages ih =>
    have hrest := (joinOf s r.harvester).trans (ih (r.harvester.elim s s.join))
    have hkeys : (r :: stages).filterMap RunningStage.harvester
        = r.harvester.toList ++ stages.filterMap RunningStage.harvester := by
      rw [List.filterMap_cons]
      cases r.harvester <;> rfl
    rw [hkeys]
    exact hrest

theorem enter (s : Session) (r : RunningStage) (harvester : Option Nat) :
    Releases s [s.entry r harvester] [] (s.enter r harvester) :=
  ⟨.register .refl _ _ _, fun _ ↦ rfl, rfl⟩

end Releases

end Session

/-! ## Releasing the stages of a plan -/

namespace PlanAction

open Session

/-- Some stages, the first of them with an index, were released, with these entries in the job
table. -/
structure Releasing (first : Nat) (stages : List RunningStage) (s : Session)
    (js : List (Nat × Job)) (t : Session) : Prop where
  releases : s.Releases (js.map Prod.snd)
    ((stages.filter fun r ↦ !s.traces r).filterMap RunningStage.harvester) t
  entries : js.map (fun e ↦ (e.1, e.2.text, e.2.child)) =
    ((stages.zipIdx first).filter fun e ↦ s.goesOn e.1).map fun e ↦
      (e.2, e.1.stage.text, e.1.child)
  handles : js.filterMap (·.2.harvester) = (stages.filter s.traces).filterMap RunningStage.harvester

theorem Releasing.nil (first : Nat) (s : Session) : Releasing first [] s [] s :=
  ⟨.refl s, rfl, rfl⟩

theorem Releasing.cons {first : Nat} {r : RunningStage} {stages : List RunningStage}
    {s t u : Session} {js js' : List (Nat × Job)} (h : Releasing first [r] s js t)
    (h' : Releasing (first + 1) stages t js' u) : Releasing first (r :: stages) s (js ++ js') u where
  releases := by
    have htrans := h.releases.trans h'.releases
    rwa [h.releases.traces, ← List.map_append, ← List.filterMap_append,
      ← List.filter_append] at htrans
  entries := by
    rw [List.map_append, h.entries, h'.entries, h.releases.goesOn, ← List.map_append,
      ← List.filter_append]
    rfl
  handles := by
    rw [List.filterMap_append, h.handles, h'.handles, h.releases.traces, ← List.filterMap_append,
      ← List.filter_append]
    rfl

theorem releasing_released {b : Situation} {index : Nat} {r : RunningStage}
    (hr : b.1.plan.stages[index]? = some r) :
    ∃ js, Releasing index [r] b.2 js (released b index).2 := by
  unfold released
  rw [hr]
  dsimp only
  split
  · rename_i htraces
    refine ⟨[(index, b.2.entry r r.harvester)], ?_, ?_, ?_⟩
    · simpa [htraces] using Releases.enter b.2 r r.harvester
    · simp [Session.goesOn, Session.entry, htraces]
    · cases hharvester : r.harvester <;> simp [Session.entry, htraces, hharvester]
  · rename_i htraces
    have hjoined := Releases.joinOf b.2 r.harvester
    have hkeys : ([r].filter fun r ↦ !b.2.traces r).filterMap RunningStage.harvester
        = r.harvester.toList := by
      cases hharvester : r.harvester <;> simp [htraces, hharvester]
    have hhandles : ([r].filter b.2.traces).filterMap RunningStage.harvester = [] := by
      simp [htraces]
    generalize r.harvester.elim b.2 b.2.join = joined at hjoined ⊢
    split
    · rename_i hleft
      refine ⟨[(index, joined.entry r none)], ?_, ?_, ?_⟩
      · rw [hkeys]
        simpa using hjoined.trans (Releases.enter joined r none)
      · simp [Session.goesOn, Session.entry, hleft]
      · simp [hhandles, Session.entry]
    · rename_i hleft
      refine ⟨[], hkeys ▸ hjoined, ?_, hhandles.symm⟩
      simp [Session.goesOn, htraces, hleft]

theorem stages_released_of_ne (b : Situation) {index i : Nat} (hne : i ≠ index) :
    (released b index).1.plan.stages[i]? = b.1.plan.stages[i]? := by
  have hset (r : RunningStage) : (withStage b.1 index r).plan.stages[i]? = b.1.plan.stages[i]? := by
    rw [withStage, Array.getElem?_modify, if_neg hne.symm]
  unfold released
  split
  · rfl
  · dsimp only
    split
    · exact hset _
    · split <;> exact hset _

/-- Releasing some stages in a row. The induction is on them; what was released before them does not
touch them. -/
theorem releasing_foldl_released (stages : List RunningStage) (first : Nat) (b : Situation)
    (hstages : ∀ i : Nat, i < stages.length → b.1.plan.stages[first + i]? = stages[i]?) :
    ∃ js, Releasing first stages b.2 js
      ((List.range' first stages.length).foldl released b).2 := by
  induction stages generalizing first b with
  | nil => exact ⟨[], .nil first b.2⟩
  | cons r stages ih =>
    have hhere : b.1.plan.stages[first]? = some r := by simpa using hstages 0 (Nat.zero_lt_succ _)
    obtain ⟨js, hfirst⟩ := releasing_released hhere
    obtain ⟨js', hrest⟩ := ih (first + 1) (released b first) fun i hi ↦ by
      rw [stages_released_of_ne b (by omega), Nat.add_assoc, Nat.add_comm 1 i]
      exact hstages (i + 1) (Nat.succ_lt_succ hi)
    refine ⟨js ++ js', hfirst.cons ?_⟩
    rw [List.length_cons, List.range'_succ, List.foldl_cons]
    exact hrest

theorem releasing_of_gives {a b : Situation} (h : release.Gives a () b) :
    ∃ js, Releasing 0 a.1.plan.stages.toList a.2 js b.2 := by
  obtain rfl := (h.unique (gives_release a)).2
  rw [List.range_eq_range', ← Array.length_toList]
  exact releasing_foldl_released _ 0 a fun i _ ↦ by rw [Nat.zero_add, Array.getElem?_toList]

/-- Whether a stage goes on when the line is done: as `goesOn`, but that a line that was cancelled
has joined all harvesters. -/
def outlives (driven : Situation) (r : RunningStage) : Bool :=
  (!driven.2.cancellation.signaled && driven.2.traces r) ||
    (!r.stage.waits && r.stage.stdout != .pipe && r.child.isSome)

/-- What is handed over behind the loop, with these entries in the job table. -/
structure HandsOver (driven : Situation) (js : List (Nat × Job)) (t : Session) : Prop where
  jobs : driven.2.jobs.Entered (js.map Prod.snd) t.jobs
  entries : js.map (fun e ↦ (e.1, e.2.text, e.2.child)) =
    (driven.1.plan.stages.toList.zipIdx.filter fun e ↦ outlives driven e.1).map fun e ↦
      (e.2, e.1.stage.text, e.1.child)
  exists_joined : ∃ joined : List Nat,
    (js.filterMap (·.2.harvester) ++ joined).Perm driven.1.held ∧ ∀ key : Nat, t.joins[key]? =
      if key ∈ joined then driven.2.joins[key]?.map fun _ ↦ true else driven.2.joins[key]?

theorem held_eq (p : PlanState) : p.held = p.plan.stages.toList.filterMap RunningStage.harvester := by
  rw [PlanState.held, PlanState.holdings, List.filterMap_map]
  rfl

theorem adds_endStages (s : Session) (stages : List RunningStage) :
    s.Adds 0 [] (s.endStages stages) := by
  have hsignal (s : Session) (number : Nat) : s.Adds 0 [] (s.signal stages number) := by
    refine adds_foldl s (fun s r ↦ ?_) stages
    cases r.child with
    | none => exact .refl s
    | some c => exact Adds.lapse.kill (fun _ _ ↦ .of_eq rfl rfl) s c number false
  refine (hsignal s _).before ((Adds.lapse.passUntil _ _).before ((hsignal _ _).before
    (adds_foldl _ (fun s r ↦ ?_) stages)))
  cases r.harvester with
  | none => exact .refl s
  | some key => exact Adds.lapse.killTraced s key r.record

/-- Behind the loop, whatever goes on is handed over, and every other harvester is joined. -/
theorem handsOver_of_completes {driven stopped done : Situation}
    (h : Completes driven stopped done) : ∃ js, HandsOver driven js done.2 := by
  obtain ⟨js, hreleasing⟩ := releasing_of_gives h.releases
  have hstops := h.stops
  split at hstops
  · -- A cancelled line joins all harvesters, so that none is left to hand over.
    rename_i hsignaled
    obtain rfl := (hstops.unique (gives_cancelStages driven)).2
    have hended := adds_endStages driven.2 driven.1.plan.stages.toList
    have hjoined := Releases.joinStages (driven.2.endStages driven.1.plan.stages.toList)
      driven.1.plan.stages.toList
    have hstages : driven.1.withoutHarvesters.plan.stages.toList
        = driven.1.plan.stages.toList.map fun r ↦ { r with harvester := none } := Array.toList_map
    have hbare (keeps : RunningStage → Bool) :
        (driven.1.withoutHarvesters.plan.stages.toList.filter keeps).filterMap
          RunningStage.harvester = [] := by
      rw [hstages, List.filter_map, List.filterMap_map]
      exact List.filterMap_eq_nil_iff.mpr fun _ _ ↦ rfl
    have hdone := hjoined.trans hreleasing.releases
    rw [hbare, List.append_nil, List.nil_append, ← held_eq] at hdone
    refine ⟨js, ⟨by simpa using hended.jobs.trans hdone.jobs, ?_, driven.1.held, ?_, fun key ↦ ?_⟩⟩
    · rw [hreleasing.entries, hstages, List.zipIdx_map, List.filter_map, List.map_map]
      have hgoesOn (s : Session) : ((fun e ↦ s.goesOn e.1) ∘
          Prod.map (fun r : RunningStage ↦ { r with harvester := none }) id : RunningStage × Nat → Bool)
          = fun e ↦ outlives driven e.1 := by
        funext e
        simp [Session.goesOn, Session.traces, outlives, hsignaled]
      rw [hgoesOn]
      rfl
    · rw [hreleasing.handles, hbare, List.nil_append]
    · have hjoins := hended.joins
      rw [Array.replicate_zero, Array.append_empty] at hjoins
      rw [hdone.joins, hjoins]
  · rename_i hsignaled
    subst hstops
    refine ⟨js, ⟨hreleasing.releases.jobs, ?_, _, ?_, hreleasing.releases.joins⟩⟩
    · rw [hreleasing.entries]
      simp only [Session.goesOn, outlives, hsignaled, Bool.not_false, Bool.true_and]
    · rw [hreleasing.handles, held_eq, ← List.filterMap_append]
      exact (List.filter_append_perm _ _).filterMap _

end PlanAction

/-! ## A whole run -/

/-- The rounds of a plan that is run here. An empty one has none. -/
def Session.Drives (s : Session) (plan : Plan) (visits : List Visit) (driven : Situation) : Prop :=
  if plan.stages = [] then visits = [] ∧ driven = s.starting plan
  else Rounds plan.rules 0 (s.starting plan) visits driven

/-- How a run of a plan accounts for what it started: by jobs, each with the index of its stage. -/
structure Accounted (plan : Plan) (s : Session) (visits : List Visit) (driven : Situation)
    (t : Session) (js : List (Nat × Job)) : Prop where
  /-- These are all the jobs that were entered. -/
  entered : s.jobs.Entered (js.map Prod.snd) t.jobs
  /-- No stage was entered twice. -/
  once : (js.map Prod.fst).Nodup
  /-- A stage was entered exactly if it was detached, or has a harvester that still had something to
  trace and was not joined for a cancellation, or has a child for which nobody waits and whose output
  nobody reads. -/
  entered_iff : ∀ i, i ∈ js.map Prod.fst ↔
    (∃ v ∈ visits, v.stage = i ∧ v.IsDetached) ∨
      ∃ r, driven.1.plan.stages[i]? = some r ∧
        (driven.2.cancellation.signaled = false ∧ driven.2.traces r = true ∨
          r.child.isSome = true ∧ r.stage.waits = false ∧ r.stage.stdout ≠ .pipe)
  /-- It was entered with its text, -/
  text : ∀ e ∈ js, plan.stages[e.1]?.map Stage.text = some e.2.text
  /-- and with its child. A stage that was detached has let go of that. -/
  child : ∀ e ∈ js, (e.2.child.isSome = true ∧ ∃ v ∈ visits, v.stage = e.1 ∧ v.IsDetached) ∨
    ∃ r, driven.1.plan.stages[e.1]? = some r ∧ e.2.child = r.child
  /-- No harvester was handed to two jobs. -/
  handed_once : (js.filterMap (·.2.harvester)).Nodup
  /-- The harvesters that were started were joined, but for those that were handed to a job. -/
  handed_iff : ∀ key, key ∈ js.filterMap (·.2.harvester) ↔
    s.harvesters.size ≤ key ∧ t.joins[key]? = some false
  /-- Harvesters from before were left alone. -/
  earlier : ∀ key < s.harvesters.size, t.joins[key]? = s.joins[key]?

section Accounted

open PlanAction Session PlanState

variable {plan : Plan} {s t : Session} {visits : List Visit} {driven : Situation}
  {js js' : List (Nat × Job)}

theorem holdings_starting (s : Session) (plan : Plan) :
    (s.starting plan).1.holdings.map Holding.text = plan.stages.map Stage.text := by
  rw [holdings, List.map_map, ← s.stages_begin plan, List.map_map]
  rfl

theorem adds_starting (s : Session) (plan : Plan) : s.Adds 0 [] (s.starting plan).2 := by
  obtain ⟨records, hbegin⟩ := s.exists_begin_eq plan
  rw [starting, hbegin]
  exact .of_eq rfl rfl

theorem isIdle_starting {i : Nat} {holding : Holding}
    (h : (s.starting plan).1.holdings[i]? = some holding) : holding.IsIdle := by
  rw [getElem?_holdings, Option.map_eq_some_iff] at h
  obtain ⟨r, hr, rfl⟩ := h
  exact s.idle_starting plan r (Array.mem_of_getElem? hr)

theorem held_starting (s : Session) (plan : Plan) : (s.starting plan).1.held = [] := by
  refine List.filterMap_eq_nil_iff.mpr fun holding h ↦ ?_
  obtain ⟨i, hi⟩ := List.mem_iff_getElem?.mp h
  exact (isIdle_starting hi).2

theorem mem_entries_iff (h : HandsOver driven js t) (i : Nat) :
    i ∈ js.map Prod.fst ↔ ∃ r, driven.1.plan.stages[i]? = some r ∧ outlives driven r = true := by
  have hentries := congrArg (List.map Prod.fst) h.entries
  rw [List.map_map, List.map_map] at hentries
  rw [show js.map Prod.fst = _ from hentries]
  simp only [List.mem_map, List.mem_filter, List.mem_zipIdx_iff_getElem?, Array.getElem?_toList,
    Function.comp_apply, Prod.exists]
  constructor
  · rintro ⟨r, k, ⟨hr, hgoes⟩, rfl⟩
    exact ⟨r, hr, hgoes⟩
  · rintro ⟨r, hr, hgoes⟩
    exact ⟨r, i, ⟨hr, hgoes⟩, rfl⟩

theorem nodup_entries (h : HandsOver driven js t) : (js.map Prod.fst).Nodup := by
  have hentries := congrArg (List.map Prod.fst) h.entries
  rw [List.map_map, List.map_map] at hentries
  rw [show js.map Prod.fst = _ from hentries]
  have hsublist : List.Sublist ((driven.1.plan.stages.toList.zipIdx.filter
      fun e ↦ outlives driven e.1).map Prod.snd) (driven.1.plan.stages.toList.zipIdx.map Prod.snd) :=
    List.filter_sublist.map _
  rw [List.zipIdx_map_snd] at hsublist
  exact hsublist.nodup (List.nodup_range' ..)

theorem outlives_iff (driven : Situation) (r : RunningStage) : outlives driven r = true ↔
    driven.2.cancellation.signaled = false ∧ driven.2.traces r = true ∨
      r.child.isSome = true ∧ r.stage.waits = false ∧ r.stage.stdout ≠ .pipe := by
  simp [outlives, and_assoc, and_comm]

/-- A stage that holds on to nothing does not go on. -/
theorem outlives_of_isIdle {r : RunningStage} (h : r.holding.IsIdle) : outlives driven r = false := by
  obtain ⟨hchild, hharvester⟩ := h
  have htraces : driven.2.traces r = false := by
    rw [Session.traces, show r.harvester = none from hharvester]
  rw [outlives, htraces, show r.child = none from hchild]
  simp

/-- What was detached holds on to nothing, so it is not entered once more. -/
theorem disjoint_entries {a : Situation} (hcustody : Custody 0 visits a driven js)
    (hover : HandsOver driven js' t) {i : Nat} (hi : i ∈ js.map Prod.fst) :
    i ∉ js'.map Prod.fst := by
  intro hi'
  obtain ⟨e, he, rfl⟩ := List.mem_map.mp hi
  obtain ⟨-, holding, hget, hidle, -⟩ := hcustody.freed e he
  obtain ⟨r, hr, hgoes⟩ := (mem_entries_iff hover _).mp hi'
  rw [getElem?_holdings, hr] at hget
  obtain rfl := Option.some.inj hget
  rw [outlives_of_isIdle hidle] at hgoes
  cases hgoes

/-- A stage that is handed over is entered with its text and its child. -/
theorem entry_of_handsOver (hover : HandsOver driven js t) {e : Nat × Job} (he : e ∈ js) :
    ∃ r, driven.1.plan.stages[e.1]? = some r ∧ e.2.text = r.stage.text ∧ e.2.child = r.child := by
  have hmem := List.mem_map_of_mem (f := fun e ↦ (e.1, e.2.text, e.2.child)) he
  rw [hover.entries] at hmem
  obtain ⟨⟨r, i⟩, hmem, heq⟩ := List.mem_map.mp hmem
  obtain ⟨rfl, htext, hchild⟩ : i = e.1 ∧ r.stage.text = e.2.text ∧ r.child = e.2.child := by
    simpa using heq
  refine ⟨r, ?_, htext.symm, hchild.symm⟩
  rw [← Array.getElem?_toList]
  exact List.mem_zipIdx_iff_getElem?.mp (List.mem_filter.mp hmem).1

/-! ### What becomes of the harvesters -/

section Harvesters

variable {u : Session} {started : Nat} {added : List Job} {handed joined : List Nat}

/-- Of what was started, each harvester once, exactly what was not joined was handed over. -/
theorem mem_handed_iff (hadds : s.Adds started added u)
    (hall : (handed ++ joined).Perm (List.range' s.harvesters.size started))
    (hjoins : ∀ key : Nat, t.joins[key]? =
      if key ∈ joined then u.joins[key]?.map fun _ ↦ true else u.joins[key]?) (key : Nat) :
    key ∈ handed ↔ s.harvesters.size ≤ key ∧ t.joins[key]? = some false := by
  obtain ⟨-, -, hapart⟩ := List.nodup_append.mp (hall.nodup_iff.mpr (List.nodup_range' ..))
  have hrange : key ∈ handed ∨ key ∈ joined ↔
      s.harvesters.size ≤ key ∧ key < s.harvesters.size + started := by
    rw [← List.mem_append, hall.mem_iff, List.mem_range'_1]
  rw [hjoins, hadds.getElem?_joins]
  by_cases hkey : key ∈ joined
  · rw [if_pos hkey]
    refine iff_of_false (fun h ↦ hapart key h key hkey rfl) fun ⟨_, hget⟩ ↦ ?_
    obtain ⟨_, -, hfalse⟩ := Option.map_eq_some_iff.mp hget
    cases hfalse
  · rw [if_neg hkey]
    simp only [hkey, or_false] at hrange
    refine hrange.trans (and_congr_right fun hle ↦ ?_)
    rw [if_neg (Nat.not_lt.mpr hle)]
    split <;> simp_all

theorem getElem?_joins_of_lt (hadds : s.Adds started added u)
    (hall : (handed ++ joined).Perm (List.range' s.harvesters.size started))
    (hjoins : ∀ key : Nat, t.joins[key]? =
      if key ∈ joined then u.joins[key]?.map fun _ ↦ true else u.joins[key]?) {key : Nat}
    (hkey : key < s.harvesters.size) : t.joins[key]? = s.joins[key]? := by
  have hnot : key ∉ joined := fun h ↦ by
    have hmem := hall.mem_iff.mp (List.mem_append_right handed h)
    exact Nat.not_le.mpr hkey (List.mem_range'_1.mp hmem).1
  rw [hjoins, if_neg hnot, hadds.getElem?_joins, if_pos hkey]

end Harvesters

/-- The books of the rounds and of what follows them, put together. -/
theorem accounted_of_custody (hcustody : Custody 0 visits (s.starting plan) driven js)
    (hover : HandsOver driven js' t) : Accounted plan s visits driven t (js ++ js') := by
  obtain ⟨started, hadds, hhandles⟩ := hcustody.exists_adds
  obtain ⟨joined, hheld, hjoins⟩ := hover.exists_joined
  rw [held_starting, List.nil_append, (adds_starting s plan).size] at hhandles
  replace hadds := (adds_starting s plan).before hadds
  -- what was started was handed over or joined, each of it once
  have hall : (((js ++ js').filterMap (·.2.harvester)) ++ joined).Perm
      (List.range' s.harvesters.size started) := by
    rw [List.filterMap_append, List.append_assoc]
    exact (hheld.append_left _).trans hhandles
  have htexts : driven.1.holdings.map Holding.text = plan.stages.map Stage.text :=
    hcustody.texts.trans (holdings_starting s plan)
  exact {
    entered := by
      rw [List.map_append]
      exact hadds.jobs.trans hover.jobs
    once := by
      rw [List.map_append, List.nodup_append]
      refine ⟨hcustody.ascends.1.imp Nat.ne_of_lt, nodup_entries hover, fun i hi j hj hij ↦ ?_⟩
      exact disjoint_entries hcustody hover hi (hij ▸ hj)
    entered_iff i := by
      rw [List.map_append, List.mem_append, hcustody.entered_iff, mem_entries_iff hover]
      simp only [outlives_iff]
    text e he := by
      rw [← List.getElem?_map, ← htexts, List.getElem?_map]
      rcases List.mem_append.mp he with he | he
      · obtain ⟨-, holding, hget, -, htext⟩ := hcustody.freed e he
        rw [hget, ← htext]
        rfl
      · obtain ⟨r, hr, htext, -⟩ := entry_of_handsOver hover he
        rw [getElem?_holdings, hr, htext]
        rfl
    child e he := by
      rcases List.mem_append.mp he with he | he
      · have hfreed := hcustody.freed e he
        exact Or.inl ⟨hfreed.1, (hcustody.entered_iff _).mp (List.mem_map_of_mem he)⟩
      · obtain ⟨r, hr, -, hchild⟩ := entry_of_handsOver hover he
        exact Or.inr ⟨r, hr, hchild⟩
    handed_once :=
      (List.nodup_append.mp (hall.nodup_iff.mpr (List.nodup_range' ..))).1
    handed_iff := mem_handed_iff hadds hall hjoins
    earlier _ hkey := getElem?_joins_of_lt hadds hall hjoins hkey }

end Accounted

namespace Action

variable {s t : Session} {plan : Plan} {wantsOutput : Bool} {buffer : Option Nat}
  {ended : RunningPlan}

/-- **Every started process is accounted for once.** When a plan that is run here is done, and none
of its stages was handed to a new instance, its stages were entered in the job table at most once
each, exactly those that were detached or go on without the engine; and each harvester that was
started was joined, or handed to one job. -/
theorem accounted_of_execute (hhere : plan.isHandedOver wantsOutput s.isSubshell = false)
    (h : (execute plan wantsOutput).outcome s = (.ok (buffer, ended), t)) :
    ∃ visits driven, s.Drives plan visits driven ∧
      ((∃ v ∈ visits, v.IsDelegated) ∨ ∃ js, Accounted plan s visits driven t js) := by
  by_cases hne : plan.stages = []
  · rw [outcome_execute_nil hne] at h
    obtain ⟨-, rfl⟩ := Prod.mk.inj h
    refine ⟨[], s.starting plan, ?_, Or.inr ⟨[] ++ [], ?_⟩⟩
    · rw [Session.Drives, if_pos hne]
      exact ⟨rfl, rfl⟩
    · have hstages : (s.starting plan).1.plan.stages.toList = [] := by
        have hlength := congrArg List.length (s.stages_begin plan)
        rw [hne, List.length_map] at hlength
        exact List.eq_nil_of_length_eq_zero hlength
      refine accounted_of_custody (.of_holdings_eq 0 (.refl _) rfl) ⟨.refl, ?_, [], ?_, fun _ ↦ rfl⟩
      · rw [hstages]
        rfl
      · rw [held_starting]
        rfl
  · obtain ⟨visits, driven, hrounds, hends⟩ := rounds_of_execute hne hhere h
    refine ⟨visits, driven, ?_, ?_⟩
    · rwa [Session.Drives, if_neg hne]
    · rcases hends with hdelegated | ⟨stopped, p, hcompletes, -⟩
      · exact Or.inl hdelegated
      · by_cases hdelegated : ∃ v ∈ visits, v.IsDelegated
        · exact Or.inl hdelegated
        · obtain ⟨js, hcustody⟩ := PlanAction.custody_of_rounds hrounds
            (fun _ _ _ hget ↦ isIdle_starting hget) fun v hv hd ↦ hdelegated ⟨v, hv, hd⟩
          obtain ⟨js', hover⟩ := PlanAction.handsOver_of_completes hcompletes
          exact Or.inr ⟨js ++ js', accounted_of_custody hcustody hover⟩

/-- A session on a machine with a single program. -/
def equipped : Session where
  settings := {}
  host :=
    { world := { tree := FileTree.empty.withNode "/run" (.program .alwaysTrue) 0o755 }
      cwd := FileTree.root
      descriptors := { table := [] } }

/-- The plan of `/run &`. -/
def runUnwaited : Plan :=
  .ofStages "/run &" [
    { argv := ["/run"], text := "/run", next := .concurrent, waits := false, graceful := true }]

/-- The only stage of `/run &` goes on without the engine, as job one. -/
theorem accounted_of_runUnwaited :
    runUnwaited.isHandedOver false equipped.isSubshell = false ∧
      ∃ visits driven t, (∃ r, (execute runUnwaited false).outcome equipped = (.ok r, t)) ∧
        equipped.Drives runUnwaited visits driven ∧ t.jobs.jobs.map Job.text = ["/run"] ∧
        ((∃ v ∈ visits, v.IsDelegated) ∨
          ∃ js, Accounted runUnwaited equipped visits driven t js) := by
  have hok : ((execute runUnwaited false).outcome equipped).1.isOk = true := by decide +kernel
  have hjobs : ((execute runUnwaited false).outcome equipped).2.jobs.jobs.map Job.text = ["/run"] := by
    decide +kernel
  rcases hexecute : (execute runUnwaited false).outcome equipped with ⟨e | ⟨buffer, ended⟩, t⟩
  · rw [hexecute] at hok
    cases hok
  · rw [hexecute] at hjobs
    obtain ⟨visits, driven, hdrives, haccounted⟩ := accounted_of_execute rfl hexecute
    exact ⟨rfl, visits, driven, t, ⟨_, rfl⟩, hdrives, hjobs, haccounted⟩

end Action

end ShellEngine
