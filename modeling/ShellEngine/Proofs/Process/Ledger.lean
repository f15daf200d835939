import ShellEngine.Proofs.Process.History

/-!
# What becomes of jobs

A table tells the same as one that keeps nothing but the ids of its jobs. That table is a plain one:
a look leaves it alone, and a reap splits it (`Roster.ledger_of_events`).

A child counts as finished once a code was published for it, and that is the code that is told. A
child whose tracer ended without a code is not running any more, and has no code to come: its job
stays in the table (`Roster.reaped_iff_of_gone`).
-/

open scoped List

namespace ShellEngine.Roster

/-! ## What is told of a job -/

section Telling

variable {gs : List Registration} {r r' : Roster}

/-- What the registration of a job and the state of its child and harvester tell of it. -/
def told (gs : List Registration) (v : Supervision) (ids : List Nat) : List JobSummary :=
  ids.map fun id ↦ (entry gs id).summary v

def finished (gs : List Registration) (v : Supervision) (id : Nat) : Bool :=
  ((entry gs id).status? v).isSome

theorem Sound.list_eq (h : Sound gs r) : (r.step .list).1 = .listed (told gs r.view r.ids) := by
  rw [told, ids, List.map_map]
  refine congrArg JobAnswer.listed (List.map_congr_left fun j hj ↦ ?_)
  exact (h.resembles j hj).summary_eq

theorem Sound.finished_eq (h : Sound gs r) {j : Job} (hj : j ∈ r.table.jobs) :
    (j.status? r.view).isSome = finished gs r.view j.id := by
  rw [finished, (h.resembles j hj).status?_eq]

theorem Sound.reap_eq (h : Sound gs r) :
    (r.step .reap).1 = .reaped (told gs r.view (r.ids.filter (finished gs r.view))) := by
  rw [told, ids, List.filter_map, List.map_map]
  refine congrArg JobAnswer.reaped ?_
  rw [JobTable.reap, List.filter_congr fun j hj ↦ h.finished_eq hj]
  refine List.map_congr_left fun j hj ↦ ?_
  exact (h.resembles j (List.mem_of_mem_filter hj)).summary_eq

theorem Sound.ids_reap (h : Sound gs r) :
    (r.step .reap).2.ids = r.ids.filter fun id ↦ !finished gs r.view id := by
  rw [ids, ids, List.filter_map]
  refine congrArg (List.map Job.id) (List.filter_congr fun j hj ↦ ?_)
  rw [← Option.not_isSome, h.finished_eq hj]
  rfl

theorem Sound.mem_reapedIds_iff (h : Sound gs r) {id : Nat} :
    id ∈ (r.step .reap).1.reapedIds ↔ id ∈ r.ids ∧ finished gs r.view id = true := by
  rw [h.reap_eq, JobAnswer.reapedIds, told, List.map_map, ← List.mem_filter]
  exact iff_of_eq (congrArg (id ∈ ·) (List.map_id' (r.ids.filter (finished gs r.view))))

/-- When a roster says that a job is finished, and with which exit code. -/
structure Finished (r : Roster) (g : Registration) (id : Nat) (code : Int) : Prop where
  child : ∀ pid, g.pid = some pid → ∃ c, r.child id = some c ∧ c.pid = pid ∧ c.status? = some code
  childless : g.pid = none → code = 0
  harvester : g.harvested = true → r.ended id = true

variable {g : Registration} {id : Nat} {code : Int}

theorem Sound.pid_of_getElem? (h : Sound gs r) (hid : 0 < id) (hg : gs[id - 1]? = some g) :
    (r.child id).map TracedChild.pid = g.pid := by
  obtain ⟨hlt, -⟩ := List.getElem?_eq_some_iff.mp hg
  rw [h.pid id hid (by omega), List.getD_eq_getElem?_getD, hg, Option.getD_some]

theorem entry_of_getElem? (hg : gs[id - 1]? = some g) : entry gs id = g.job id := by
  rw [entry, List.getD_eq_getElem?_getD, hg, Option.getD_some]

theorem all_harvester_iff (g : Registration) (id : Nat) (v : Supervision) :
    (g.job id).harvester.all v.harvesterEnded = true ↔
      (g.harvested = true → v.harvesterEnded id = true) := by
  rw [Registration.job]
  cases g.harvested <;> simp

theorem Sound.exit?_eq_some_iff (h : Sound gs r) (hid : 0 < id) (hg : gs[id - 1]? = some g)
    (code : Int) : (g.job id).exit? r.view = some code ↔
      (∀ pid, g.pid = some pid → ∃ c, r.child id = some c ∧ c.pid = pid ∧ c.status? = some code) ∧
        (g.pid = none → code = 0) := by
  have hpid := h.pid_of_getElem? hid hg
  rw [Job.exit?, Registration.job]
  cases hp : g.pid with
  | none => simp [eq_comm]
  | some pid =>
    rw [hp] at hpid
    obtain ⟨c, hc, rfl⟩ := Option.map_eq_some_iff.mp hpid
    simp [view, hc]

theorem Sound.status?_eq_some_iff (h : Sound gs r) (hid : 0 < id) (hg : gs[id - 1]? = some g) :
    (entry gs id).status? r.view = some code ↔ Finished r g id code := by
  have hexit := h.exit?_eq_some_iff hid hg code
  have hharvester := all_harvester_iff g id r.view
  rw [entry_of_getElem? hg, Job.status?_eq, Option.ite_none_right_eq_some, hexit, hharvester]
  exact ⟨fun ⟨hended, hchild, hchildless⟩ ↦ ⟨hchild, hchildless, hended⟩,
    fun hfin ↦ ⟨hfin.harvester, hfin.child, hfin.childless⟩⟩

/-- A job is shown with the process id that it was registered with. -/
theorem Sound.summary_eq (h : Sound gs r) (hid : 0 < id) (hg : gs[id - 1]? = some g)
    (hstatus : (entry gs id).status? r.view = some code) :
    (entry gs id).summary r.view = { id, text := g.text, pid := g.pid, exit := some code } := by
  have hpid := h.pid_of_getElem? hid hg
  rw [Job.summary, hstatus, entry_of_getElem? hg, Registration.job]
  cases hp : g.pid with
  | none => rfl
  | some pid =>
    rw [hp] at hpid
    obtain ⟨c, hc, rfl⟩ := Option.map_eq_some_iff.mp hpid
    simp [view, hc]

theorem Sound.mem_told_iff (h : Sound gs r) {s : JobSummary} :
    s ∈ told gs r.view (r.ids.filter (finished gs r.view)) ↔
      s.id ∈ r.ids ∧ ∃ g code, gs[s.id - 1]? = some g ∧ Finished r g s.id code ∧
        s = { id := s.id, text := g.text, pid := g.pid, exit := some code } := by
  constructor
  · intro hs
    obtain ⟨id, hid, rfl⟩ := List.mem_map.mp hs
    obtain ⟨hid, hfin⟩ := List.mem_filter.mp hid
    obtain ⟨hpos, hle⟩ := h.mem id hid
    obtain ⟨code, hcode⟩ := Option.isSome_iff_exists.mp hfin
    have hg : gs[id - 1]? = some gs[id - 1] := List.getElem?_eq_getElem (by omega)
    exact ⟨hid, _, code, hg, (h.status?_eq_some_iff hpos hg).mp hcode,
      h.summary_eq hpos hg hcode⟩
  · rintro ⟨hid, g, code, hg, hfin, hs⟩
    have hpos := (h.mem _ hid).1
    have hcode := (h.status?_eq_some_iff hpos hg).mpr hfin
    rw [hs, ← h.summary_eq hpos hg hcode]
    exact List.mem_map_of_mem (List.mem_filter.mpr ⟨hid, Option.isSome_iff_exists.mpr ⟨_, hcode⟩⟩)

end Telling

/-! ## Looking at the table changes nothing -/

/-- Two rosters whose tables differ at most by jobs that were asked. -/
structure Alike (gs : List Registration) (r r' : Roster) : Prop where
  sound : Sound gs r
  sound' : Sound gs r'
  ids : r'.ids = r.ids
  child : r'.child = r.child
  ended : r'.ended = r.ended

namespace Alike

variable {gs : List Registration} {r r' : Roster} {e : JobEvent}

theorem view (h : Alike gs r r') : r'.view = r.view := by
  rw [Roster.view, Roster.view, h.child, h.ended]

theorem lastId (h : Alike gs r r') : r'.table.lastId = r.table.lastId :=
  h.sound'.lastId.trans h.sound.lastId.symm

theorem answer (h : Alike gs r r') (e : JobEvent) : (r'.step e).1 = (r.step e).1 := by
  cases e with
  | register g => simp only [step, JobTable.register, h.lastId]
  | publish => simp only [step, withChild, h.child]
  | dropPublisher => simp only [step, withChild, h.child]
  | endHarvester => rfl
  | list => rw [h.sound.list_eq, h.sound'.list_eq, h.view, h.ids]
  | reap => rw [h.sound.reap_eq, h.sound'.reap_eq, h.view, h.ids]

theorem step (h : Alike gs r r') (e : JobEvent) :
    Alike (gs ++ registrations [e]) (r.step e).2 (r'.step e).2 where
  sound := h.sound.step e
  sound' := h.sound'.step e
  ids := by
    have hids := h.ids
    cases e with
    | register g => simpa [Roster.step, Roster.ids, JobTable.register, h.lastId] using hids
    | publish => exact hids
    | dropPublisher => exact hids
    | endHarvester => exact hids
    | list => simpa only [Roster.step, Roster.ids, JobTable.map_id_look_snd] using hids
    | reap => rw [h.sound.ids_reap, h.sound'.ids_reap, h.view, hids]
  child := by
    cases e <;> simp only [Roster.step, withChild, h.child, h.lastId]
  ended := by
    cases e <;> simp only [Roster.step, withChild, h.ended, h.lastId]

/-- Looking at one of the tables leaves them alike. -/
theorem look (h : Alike gs r r') : Alike gs (r.step .list).2 r' where
  sound := by simpa [registrations] using h.sound.step .list
  sound' := h.sound'
  ids := by rw [h.ids, Roster.step, Roster.ids, Roster.ids, JobTable.map_id_look_snd]
  child := h.child
  ended := h.ended

end Alike

theorem isListed_step (r : Roster) {e : JobEvent} (he : e ≠ .list) :
    (r.step e).1.isListed = false := by
  cases e <;> first | rfl | exact absurd rfl he

/-- Events lead to the same, up to jobs that were asked, and tell the same, if the looks among them
are left out. -/
theorem alike_without_looks (es : List JobEvent) :
    Alike (registrations es) (after es) (after (es.filter (· ≠ .list))) ∧
      answers (es.filter (· ≠ .list)) = (answers es).filter (!·.isListed) := by
  induction es using List.reverseRecOn with
  | nil => exact ⟨⟨.initially, .initially, rfl, rfl, rfl⟩, rfl⟩
  | append_singleton es e ih =>
    obtain ⟨halike, hanswers⟩ := ih
    rw [registrations_concat, after_concat, answers_concat, List.filter_append,
      List.filter_append]
    by_cases he : e = .list
    · subst he
      have hleft : [((after es).step .list).1].filter (!·.isListed) = [] := rfl
      have hnone : registrations [.list] = [] := rfl
      rw [hleft, hnone, List.append_nil, List.append_nil]
      exact ⟨by simpa using halike.look, by simpa using hanswers⟩
    · have hkept : [e].filter (· ≠ .list) = [e] := by simpa using he
      rw [hkept, after_concat, answers_concat, hanswers, halike.answer e, List.filter_singleton,
        isListed_step _ he]
      exact ⟨halike.step e, rfl⟩

/-! ## The ledger -/

/-- When events finish a job, and with which exit code: that code was published for its child, or it
has no child and the code is zero; and its harvester, if it has one, has ended. -/
structure FinishedBy (es : List JobEvent) (g : Registration) (id : Nat) (code : Int) : Prop where
  child : g.pid.isSome → published es id = some code
  childless : g.pid = none → code = 0
  harvester : g.harvested = true → .endHarvester id ∈ since id es

theorem finished_after_iff {es : List JobEvent} {g : Registration} {id : Nat} {code : Int}
    (hpos : 0 < id) (hg : (registrations es)[id - 1]? = some g) :
    Finished (after es) g id code ↔ FinishedBy es g id code := by
  have hchild := child_after hpos hg
  have hended := ended_after hpos hg
  constructor
  · intro h
    refine ⟨fun hpid ↦ ?_, h.childless, fun hharvested ↦ ?_⟩
    · obtain ⟨pid, hpid⟩ := Option.isSome_iff_exists.mp hpid
      obtain ⟨c, hc, -, hcode⟩ := h.child pid hpid
      rw [hchild, childOf, hpid, Option.map_some, Option.some_inj] at hc
      subst hc
      exact hcode
    · exact of_decide_eq_true (hended ▸ h.harvester hharvested)
  · intro h
    refine ⟨fun pid hpid ↦ ?_, h.childless, fun hharvested ↦ ?_⟩
    · rw [hchild, childOf, hpid]
      exact ⟨_, rfl, rfl, h.child (hpid ▸ rfl)⟩
    · exact hended.trans (decide_eq_true (h.harvester hharvested))

/-- What a table promises of the jobs in it, after some events. -/
structure Ledger (es : List JobEvent) : Prop where
  /-- Ids count up from one in the order of registration. -/
  given : (answers es).filterMap JobAnswer.registered?
    = List.range' 1 (registrations es).length
  /-- Every job that was registered is in the table or was reaped, and that once. -/
  once : ((answers es).flatMap JobAnswer.reapedIds ++ (after es).ids).Perm
    (List.range' 1 (registrations es).length)
  /-- Jobs are presented in order of registration. -/
  ordered : ∀ a ∈ answers es, (a.summaries.map JobSummary.id).Pairwise (· < ·)
  /-- A look shows the whole table and takes nothing out of it. -/
  shown : ((after es).step .list).1.summaries.map JobSummary.id = (after es).ids
  kept : ((after es).step .list).2.ids = (after es).ids
  /-- Whatever is told, reaped jobs among it, is told as well without the looks in between. -/
  unaffected : answers (es.filter (· ≠ .list)) = (answers es).filter (!·.isListed)
  /-- What is reaped now. -/
  reaped_iff : ∀ s, s ∈ ((after es).step .reap).1.summaries ↔
    s.id ∈ (after es).ids ∧ ∃ g code, (registrations es)[s.id - 1]? = some g ∧
      FinishedBy es g s.id code ∧
      s = { id := s.id, text := g.text, pid := g.pid, exit := some code }

theorem filterMap_registered?_concat (told : List JobAnswer) (a : JobAnswer) :
    (told ++ [a]).filterMap JobAnswer.registered?
      = told.filterMap JobAnswer.registered? ++ a.registered?.toList := by
  rw [List.filterMap_append]
  cases a <;> rfl

theorem filterMap_registered? (es : List JobEvent) :
    (answers es).filterMap JobAnswer.registered? = List.range' 1 (registrations es).length := by
  induction es using List.reverseRecOn with
  | nil => rfl
  | append_singleton es e ih =>
    have hlast := (sound_after es).lastId
    have hnew := registered?_step (after es) e
    rw [answers_concat, registrations_concat, filterMap_registered?_concat, ih,
      List.length_append, hnew, hlast, ← List.range'_append_1, Nat.add_comm 1]

theorem perm_ids (es : List JobEvent) :
    ((answers es).flatMap JobAnswer.reapedIds ++ (after es).ids).Perm
      ((answers es).filterMap JobAnswer.registered?) := by
  induction es using List.reverseRecOn with
  | nil => exact List.Perm.nil
  | append_singleton es e ih =>
    rw [answers_concat, after_concat, List.flatMap_append, List.flatMap_singleton,
      filterMap_registered?_concat, List.append_assoc]
    calc (answers es).flatMap JobAnswer.reapedIds
            ++ (((after es).step e).1.reapedIds ++ ((after es).step e).2.ids)
        _ ~ (answers es).flatMap JobAnswer.reapedIds
            ++ ((after es).ids ++ ((after es).step e).1.registered?.toList) :=
          (perm_step (after es) e).append_left _
        _ = (answers es).flatMap JobAnswer.reapedIds ++ (after es).ids
            ++ ((after es).step e).1.registered?.toList := (List.append_assoc ..).symm
        _ ~ (answers es).filterMap JobAnswer.registered?
            ++ ((after es).step e).1.registered?.toList := ih.append_right _

theorem pairwise_summaries (es : List JobEvent) :
    ∀ a ∈ answers es, (a.summaries.map JobSummary.id).Pairwise (· < ·) := by
  induction es using List.reverseRecOn with
  | nil => exact fun a ha ↦ absurd ha List.not_mem_nil
  | append_singleton es e ih =>
    intro a ha
    rw [answers_concat] at ha
    obtain ha | ha := List.mem_append.mp ha
    · exact ih a ha
    · obtain rfl := List.mem_singleton.mp ha
      exact (sound_after es).ascending.sublist (summaries_step_sublist _ e)

/-- **Jobs are neither lost nor told of twice.** -/
theorem ledger_of_events (es : List JobEvent) : Ledger es where
  given := filterMap_registered? es
  once := filterMap_registered? es ▸ perm_ids es
  ordered := pairwise_summaries es
  shown := JobTable.map_id_look_fst _ _
  kept := JobTable.map_id_look_snd _ _
  unaffected := (alike_without_looks es).2
  reaped_iff := fun s ↦ by
    rw [(sound_after es).reap_eq]
    refine (sound_after es).mem_told_iff.trans (and_congr_right fun hid ↦ ?_)
    have hpos := ((sound_after es).mem _ hid).1
    refine exists_congr fun g ↦ exists_congr fun code ↦ and_congr_right fun hg ↦ ?_
    rw [finished_after_iff hpos hg]

/-- Of two jobs, the first one's child ends with code 4. -/
def oneEnded : List JobEvent :=
  [.register ⟨"quick", some 5, true⟩, .register ⟨"slow", some 6, false⟩, .publish 1 4, .list,
    .endHarvester 1]

/-- The code that was published is the one that is told, and the other job stays. -/
theorem reaped_of_published :
    { id := 1, text := "quick", pid := some 5, exit := some 4 } ∈
        ((after oneEnded).step .reap).1.summaries ∧
      ∀ s ∈ ((after oneEnded).step .reap).1.summaries, s.id ≠ 2 := by
  have h := (ledger_of_events oneEnded).reaped_iff
  constructor
  · exact (h _).mpr ⟨by decide, ⟨"quick", some 5, true⟩, 4, rfl,
      ⟨fun _ ↦ by decide, nofun, fun _ ↦ by decide⟩, rfl⟩
  · rintro s hs hid
    obtain ⟨-, g, code, hg, hfin, -⟩ := (h s).mp hs
    rw [hid] at hg hfin
    obtain rfl : ⟨"slow", some 6, false⟩ = g := Option.some.inj hg
    have hnone : published oneEnded 2 = none := by decide
    cases hnone.symm.trans (hfin.child rfl)

/-! ## Children whose tracer has ended -/

section Gone

variable {gs : List Registration} {r : Roster} {id : Nat} {c : TracedChild}

/-- The harvester of a job has ended, if there is one. -/
def HarvesterGone (gs : List Registration) (r : Roster) (id : Nat) : Prop :=
  ∀ g, gs[id - 1]? = some g → g.harvested = true → r.ended id = true

theorem Sound.exists_registration (h : Sound gs r) (hid : id ∈ r.ids) (hchild : r.child id = some c) :
    ∃ g, 0 < id ∧ gs[id - 1]? = some g ∧ g.pid = some c.pid := by
  obtain ⟨hpos, hle⟩ := h.mem id hid
  have hg : gs[id - 1]? = some gs[id - 1] := List.getElem?_eq_getElem (by omega)
  have hpid := h.pid_of_getElem? hpos hg
  rw [hchild, Option.map_some] at hpid
  exact ⟨_, hpos, hg, hpid.symm⟩

theorem Sound.isSome_of_finished (h : Sound gs r) (hid : id ∈ r.ids) (hchild : r.child id = some c)
    (hfin : finished gs r.view id = true) : c.status?.isSome := by
  obtain ⟨g, hpos, hg, hpid⟩ := h.exists_registration hid hchild
  obtain ⟨code, hcode⟩ := Option.isSome_iff_exists.mp hfin
  obtain ⟨c', hc', -, hcode'⟩ := ((h.status?_eq_some_iff hpos hg).mp hcode).child c.pid hpid
  rw [hchild] at hc'
  rw [Option.some.inj hc', hcode']
  rfl

/-- A job whose harvester is gone is finished once its child has a code. -/
theorem Sound.finished_of_isSome (h : Sound gs r) (hid : id ∈ r.ids) (hchild : r.child id = some c)
    (hharvester : HarvesterGone gs r id) (hcode : c.status?.isSome) :
    finished gs r.view id = true := by
  obtain ⟨g, hpos, hg, hpid⟩ := h.exists_registration hid hchild
  obtain ⟨code, hcode⟩ := Option.isSome_iff_exists.mp hcode
  refine Option.isSome_iff_exists.mpr ⟨code, (h.status?_eq_some_iff hpos hg).mpr
    ⟨fun pid hp ↦ ⟨c, hchild, ?_, hcode⟩, fun hp ↦ ?_, hharvester _ hg⟩⟩
  · exact Option.some.inj (hpid.symm.trans hp)
  · cases hpid.symm.trans hp

/-- A child without a code whose tracer has ended stays so, and its job is not taken out. -/
theorem Sound.lost_step (h : Sound gs r) (e : JobEvent) (hid : id ∈ r.ids)
    (hchild : r.child id = some c) (hcode : c.status? = none) (hpub : c.publisher = false) :
    id ∈ (r.step e).2.ids ∧ (r.step e).2.child id = some c := by
  have hsame : ∀ (key : Nat) (f : TracedChild → Bool × TracedChild), (f c).2 = c →
      (r.withChild key f).2.child id = some c := by
    intro key f hf
    by_cases hkey : id = key
    · subst hkey
      simp [withChild, hchild, hf]
    · simp [withChild, Function.update_of_ne hkey, hchild]
  cases e with
  | register g =>
    have hne : id ≠ r.table.lastId + 1 := by
      have hle := (h.mem id hid).2
      have hlast := h.lastId
      omega
    refine ⟨?_, by simpa [Roster.step, Function.update_of_ne hne] using hchild⟩
    rw [Roster.step, ids, JobTable.register, List.map_append]
    exact List.mem_append_left _ hid
  | publish key code => exact ⟨hid, hsame key _ (by simp [TracedChild.publish, hpub])⟩
  | dropPublisher key => exact ⟨hid, hsame key _ (by rw [TracedChild.dropPublisher, ← hpub])⟩
  | endHarvester => exact ⟨hid, hchild⟩
  | list => exact ⟨by rwa [Roster.step, ids, JobTable.map_id_look_snd], hchild⟩
  | reap =>
    refine ⟨?_, hchild⟩
    rw [h.ids_reap, List.mem_filter]
    refine ⟨hid, ?_⟩
    by_contra hfin
    have hsome := h.isSome_of_finished hid hchild (by simpa using hfin)
    rw [hcode] at hsome
    cases hsome

theorem lost_after (es es' : List JobEvent) (hid : id ∈ (after es).ids)
    (hchild : (after es).child id = some c) (hcode : c.status? = none) (hpub : c.publisher = false) :
    id ∈ (after (es ++ es')).ids ∧ (after (es ++ es')).child id = some c := by
  induction es' using List.reverseRecOn with
  | nil =>
    rw [List.append_nil]
    exact ⟨hid, hchild⟩
  | append_singleton es' e ih =>
    rw [← List.append_assoc, after_concat]
    exact (sound_after _).lost_step e ih.1 ih.2 hcode hpub

end Gone

/-- **A job whose child is gone** and whose harvester, if it has one, has ended is taken out by the
next reap exactly if its child has published a code. Without one it is never taken out. -/
theorem reaped_iff_of_gone (es : List JobEvent) (id : Nat) (c : TracedChild)
    (hid : id ∈ (after es).ids) (hchild : (after es).child id = some c)
    (hgone : c.isRunning = false) (hharvester : HarvesterGone (registrations es) (after es) id) :
    (id ∈ ((after es).step .reap).1.reapedIds ↔ c.status?.isSome) ∧
      (id ∉ ((after es).step .reap).2.ids ↔ c.status?.isSome) ∧
      (c.status? = none → ∀ es', id ∈ (after (es ++ es')).ids) := by
  have h := sound_after es
  have hfin : finished (registrations es) (after es).view id = true ↔ c.status?.isSome :=
    ⟨h.isSome_of_finished hid hchild, h.finished_of_isSome hid hchild hharvester⟩
  refine ⟨?_, ?_, fun hcode es' ↦ (lost_after es es' hid hchild hcode ?_).1⟩
  · rw [h.mem_reapedIds_iff, ← hfin]
    exact and_iff_right hid
  · rw [h.ids_reap, List.mem_filter, ← hfin]
    simp [hid]
  · rw [TracedChild.status?] at hcode
    simpa [TracedChild.isRunning, hcode] using hgone

/-- A child that publishes a code before its tracer ends, and one whose tracer just ends. -/
def twoChildren : List JobEvent :=
  [.register ⟨"told", some 5, true⟩, .register ⟨"lost", some 6, false⟩, .publish 1 4,
    .dropPublisher 1, .dropPublisher 2, .endHarvester 1]

/-- Of two jobs whose children are gone, the one whose child left no code stays for ever. -/
theorem reaped_and_kept_of_gone :
    1 ∈ ((after twoChildren).step .reap).1.reapedIds ∧
      ∀ es, 2 ∈ (after (twoChildren ++ es)).ids := by
  have htold := reaped_iff_of_gone twoChildren 1 { pid := 5, code := some 4, publisher := false }
    (by decide) (by decide) (by decide) (fun _ _ _ ↦ by decide)
  have hlost := reaped_iff_of_gone twoChildren 2 { pid := 6, publisher := false }
    (by decide) (by decide) (by decide) (by
      intro g hg hharvested
      obtain rfl : ⟨"lost", some 6, false⟩ = g := Option.some.inj hg
      cases hharvested)
  exact ⟨htold.1.mpr rfl, hlost.2.2 rfl⟩

/-- So it is not true that a job whose child is gone is taken out by the next reap. -/
theorem not_forall_reaped_of_gone :
    ¬ ∀ (es : List JobEvent) (id : Nat) (c : TracedChild), id ∈ (after es).ids →
      (after es).child id = some c → c.isRunning = false →
      HarvesterGone (registrations es) (after es) id →
      id ∈ ((after es).step .reap).1.reapedIds := by
  intro h
  have hreaped := h [.register ⟨"a", some 5, false⟩, .dropPublisher 1] 1
    { pid := 5, publisher := false } (by decide) (by decide) (by decide) (by
      intro g hg hharvested
      obtain rfl : ⟨"a", some 5, false⟩ = g := Option.some.inj hg
      cases hharvested)
  exact absurd hreaped (by decide)

end ShellEngine.Roster
