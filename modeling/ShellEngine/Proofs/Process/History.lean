import Mathlib.Data.List.TakeWhile
import ShellEngine.Proofs.Process.Roster

/-!
# What events make of a child

The state of the child of a job, read off the events alone: only those behind the registration of
the job count (`Roster.since`). The child has the code that was published last, as long as its
tracer was there (`Roster.published`), and its harvester has ended if one of the events says so.
-/

namespace ShellEngine.Roster

/-! ## The events behind a registration -/

/-- The events behind the registration of the job with an id. -/
def since : Nat → List JobEvent → List JobEvent
  | 0, es => es
  | _ + 1, [] => []
  | id + 1, .register _ :: es => since id es
  | id + 1, _ :: es => since (id + 1) es

/-- The codes that are published for a child. -/
def codes (id : Nat) (es : List JobEvent) : List Int :=
  es.filterMap fun
    | .publish key code => if key = id then some code else none
    | _ => none

/-- The code that the child of a job has published last, before its tracer ended. -/
def published (es : List JobEvent) (id : Nat) : Option Int :=
  (codes id ((since id es).takeWhile (· ≠ .dropPublisher id))).getLast?

section

variable {es : List JobEvent} {e : JobEvent} {id : Nat}

theorem since_concat (hid : id ≤ (registrations es).length) (e : JobEvent) :
    since id (es ++ [e]) = since id es ++ [e] := by
  induction es generalizing id with
  | nil =>
    obtain rfl : id = 0 := Nat.le_zero.mp hid
    rfl
  | cons e' es ih =>
    cases id with
    | zero => rfl
    | succ id =>
      cases e' with
      | register g => exact ih (Nat.le_of_succ_le_succ hid)
      | publish | dropPublisher | endHarvester | list | reap => exact ih hid

theorem since_concat_register (es : List JobEvent) (g : Registration) :
    since ((registrations es).length + 1) (es ++ [.register g]) = [] := by
  induction es with
  | nil => rfl
  | cons e es ih => cases e <;> exact ih

theorem published_concat (hid : id ≤ (registrations es).length) (e : JobEvent) :
    published (es ++ [e]) id =
      if .dropPublisher id ∈ since id es then published es id
      else (codes id [e]).getLast?.or (published es id) := by
  rw [published, since_concat hid, List.takeWhile_append]
  by_cases hdropped : .dropPublisher id ∈ since id es
  · have hshort : ((since id es).takeWhile (· ≠ .dropPublisher id)).length ≠ (since id es).length := by
      intro hlength
      have hall := List.takeWhile_eq_self_iff.mp ((List.takeWhile_prefix _).eq_of_length hlength)
      exact absurd (hall _ hdropped) (by simp)
    rw [if_neg hshort, if_pos hdropped, published]
  · have hall : (since id es).takeWhile (· ≠ .dropPublisher id) = since id es :=
      List.takeWhile_eq_self_iff.mpr fun e' he' ↦
        decide_eq_true fun h ↦ hdropped (h ▸ he')
    have hlast : codes id ([e].takeWhile (· ≠ .dropPublisher id)) = codes id [e] := by
      by_cases he : e = .dropPublisher id
      · subst he
        simp [codes]
      · simp [he]
    rw [if_pos (by rw [hall]), if_neg hdropped, published, hall, codes, List.filterMap_append,
      List.getLast?_append, ← codes, ← codes, hlast]

end

/-! ## The child and the harvester of a job -/

/-- What events make of the child of a job. -/
def childOf (es : List JobEvent) (id : Nat) (g : Registration) : Option TracedChild :=
  g.pid.map fun pid ↦
    { pid, code := published es id, publisher := decide (.dropPublisher id ∉ since id es) }

section

variable {es : List JobEvent} {id : Nat} {g : Registration}

theorem mem_since_concat (hid : id ≤ (registrations es).length) (e e' : JobEvent) :
    e' ∈ since id (es ++ [e]) ↔ e' ∈ since id es ∨ e' = e := by
  rw [since_concat hid, List.mem_append, List.mem_singleton]

theorem childOf_concat (hid : id ≤ (registrations es).length) (e : JobEvent) :
    childOf (es ++ [e]) id g =
      match e with
      | .publish key code =>
        if key = id then (childOf es id g).map fun c ↦ (c.publish code).2 else childOf es id g
      | .dropPublisher key =>
        if key = id then (childOf es id g).map fun c ↦ c.dropPublisher.2 else childOf es id g
      | _ => childOf es id g := by
  have hpublished := published_concat hid e
  have hmem := mem_since_concat hid e (.dropPublisher id)
  rw [childOf, hpublished]
  simp only [hmem]
  cases e with
  | register | endHarvester | list | reap => simp [childOf, codes]
  | publish key code =>
    by_cases hkey : key = id
    · by_cases hgone : .dropPublisher id ∈ since id es <;>
        simp [childOf, codes, hkey, TracedChild.publish, hgone, Function.comp_def]
    · simp [childOf, codes, hkey]
  | dropPublisher key =>
    by_cases hkey : key = id
    · simp [childOf, codes, hkey, TracedChild.dropPublisher, Function.comp_def]
    · simp [childOf, codes, hkey, Ne.symm hkey]

/-- The registration of a job is an earlier one, or the one that has just been made. -/
theorem registration_cases {e : JobEvent} (hpos : 0 < id)
    (hg : (registrations (es ++ [e]))[id - 1]? = some g) :
    (id ≤ (registrations es).length ∧ (registrations es)[id - 1]? = some g) ∨
      id = (registrations es).length + 1 ∧ e = .register g := by
  rw [registrations_concat] at hg
  by_cases hid : id ≤ (registrations es).length
  · rw [List.getElem?_append_left (by omega)] at hg
    exact Or.inl ⟨hid, hg⟩
  · rw [List.getElem?_append_right (by omega)] at hg
    cases e with
    | register g' =>
      obtain ⟨hzero, rfl⟩ : id - 1 - (registrations es).length = 0 ∧ g' = g := by
        simpa [registrations, List.getElem?_singleton] using hg
      exact Or.inr ⟨by omega, rfl⟩
    | publish | dropPublisher | endHarvester | list | reap => cases hg

/-- Induction along the events from the registration of a job on. -/
@[elab_as_elim]
theorem registered_induction {motive : List JobEvent → Prop} (hpos : 0 < id)
    (hg : (registrations es)[id - 1]? = some g)
    (register : ∀ es, id = (registrations es).length + 1 → motive (es ++ [.register g]))
    (step : ∀ es e, id ≤ (registrations es).length → motive es → motive (es ++ [e])) :
    motive es := by
  induction es using List.reverseRecOn with
  | nil => cases hg
  | append_singleton es e ih =>
    obtain ⟨hid, hold⟩ | ⟨hid, rfl⟩ := registration_cases hpos hg
    · exact step es e hid (ih hold)
    · exact register es hid

/-- **The child of a job** is what the events behind its registration make of it. -/
theorem child_after (hpos : 0 < id) (hg : (registrations es)[id - 1]? = some g) :
    (after es).child id = childOf es id g := by
  refine registered_induction hpos hg (fun es hid ↦ ?_) fun es e hid ih ↦ ?_
  · subst hid
    rw [after_concat]
    simp [step, (sound_after es).lastId, childOf, published, since_concat_register, codes]
  · have hlast := (sound_after es).lastId
    rw [after_concat, childOf_concat hid, ← ih]
    cases e with
    | register =>
      have hne : id ≠ (after es).table.lastId + 1 := by omega
      simp [step, Function.update_of_ne hne]
    | publish key | dropPublisher key =>
      by_cases hkey : key = id
      · subst hkey
        simp [step, withChild]
      · simp [step, withChild, Function.update_of_ne (Ne.symm hkey), hkey]
    | endHarvester | list | reap => rfl

/-- **The harvester of a job** has ended if one of the events behind the registration says so. -/
theorem ended_after (hpos : 0 < id) (hg : (registrations es)[id - 1]? = some g) :
    (after es).ended id = decide (.endHarvester id ∈ since id es) := by
  refine registered_induction hpos hg (fun es hid ↦ ?_) fun es e hid ih ↦ ?_
  · subst hid
    rw [after_concat]
    simp [step, (sound_after es).lastId, since_concat_register]
  · have hlast := (sound_after es).lastId
    rw [after_concat]
    simp only [mem_since_concat hid]
    cases e with
    | register =>
      have hne : id ≠ (after es).table.lastId + 1 := by omega
      simp [step, Function.update_of_ne hne, ih]
    | endHarvester key =>
      by_cases hkey : key = id
      · simp [step, hkey]
      · simp [step, Ne.symm hkey, ih]
    | publish | dropPublisher | list | reap => simpa [step, withChild] using ih

end

end ShellEngine.Roster
