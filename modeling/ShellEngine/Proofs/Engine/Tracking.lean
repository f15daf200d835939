import Mathlib.Data.List.Nodup
import ShellEngine.Engine.Foreground

/-!
# What a tracer keeps track of

Four collections say what a tracer knows: its tracees, those of them that are fresh, whether the
root has started, and the children that it shares with the stage. All of them follow from what the
tracer was told and from one another (`Tracks`), and a notice about a tracee keeps it so
(`Tracks.handle`).

What a tracer does about a notice follows as well: which stops it keeps from a tracee
(`Tracks.stopped_cases`), and when it tells a code or reads the root (`Tracer.actions_cases`).
-/

namespace ShellEngine

/-! ## What notices tell -/

/-- The code of the end that a notice tells of. -/
def Notice.code? : Notice → Option Int
  | .exited _ code => some code
  | .killed _ signal => some (signaledCode signal)
  | .lost _ => some exitFailure
  | _ => none

def codesOf (pid : Int) (told : List Notice) : List Int :=
  (told.filter (·.subject == pid)).filterMap Notice.code?

/-- Whether a process was forked and its first stop since then is still to come. -/
def AwaitsStop (told : List Notice) (pid : Int) : Prop :=
  ∃ earlier parent later, told = earlier ++ .forked parent (some pid) :: later ∧
    .stopped pid Tracer.stopSignal ∉ later

/-- The stops that tracing itself brings about: the first trap of the root, and the first stop of a
process that was forked. -/
def Induced (root : Int) (told : List Notice) (pid signal : Int) : Prop :=
  pid = root ∧ signal = Tracer.trapSignal ∧ .stopped root Tracer.trapSignal ∉ told ∨
    signal = Tracer.stopSignal ∧ AwaitsStop told pid

/-- Where one of some notices stands when one more has come: it is that one, or before it. -/
theorem concat_eq_append_cons_iff {α : Type} {l earlier later : List α} {a b : α} :
    l ++ [b] = earlier ++ a :: later ↔
      (l = earlier ∧ b = a ∧ later = []) ∨
        ∃ between, later = between ++ [b] ∧ l = earlier ++ a :: between := by
  constructor
  · intro h
    rcases List.eq_nil_or_concat' later with rfl | ⟨between, last, rfl⟩
    · obtain ⟨rfl, rfl⟩ := List.append_singleton_inj.mp h
      exact Or.inl ⟨rfl, rfl, rfl⟩
    · rw [← List.cons_append, ← List.append_assoc] at h
      obtain ⟨rfl, rfl⟩ := List.append_singleton_inj.mp h
      exact Or.inr ⟨between, rfl, rfl⟩
  · rintro (⟨rfl, rfl, rfl⟩ | ⟨between, rfl, rfl⟩)
    · rfl
    · simp

theorem codesOf_append (pid : Int) (told later : List Notice) :
    codesOf pid (told ++ later) = codesOf pid told ++ codesOf pid later := by
  rw [codesOf, List.filter_append, List.filterMap_append]
  rfl

theorem codesOf_singleton (pid : Int) (n : Notice) :
    codesOf pid [n] = (if n.subject = pid then n.code? else none).toList := by
  by_cases h : n.subject = pid
  · cases hcode : n.code? <;> simp [codesOf, h, hcode]
  · simp [codesOf, h]

theorem codesOf_eq_flatMap (pid : Int) (told : List Notice) :
    codesOf pid told = told.flatMap fun n ↦ codesOf pid [n] := by
  induction told with
  | nil => rfl
  | cons n told ih => rw [← List.singleton_append, codesOf_append, ih, List.flatMap_append,
      List.flatMap_singleton]

theorem awaitsStop_concat {told : List Notice} {n : Notice} {pid : Int} :
    AwaitsStop (told ++ [n]) pid ↔ (∃ parent, n = .forked parent (some pid)) ∨
      AwaitsStop told pid ∧ n ≠ .stopped pid Tracer.stopSignal := by
  constructor
  · rintro ⟨earlier, parent, later, htold, hlater⟩
    rcases concat_eq_append_cons_iff.mp htold with ⟨rfl, rfl, rfl⟩ | ⟨between, rfl, rfl⟩
    · exact Or.inl ⟨parent, rfl⟩
    · rw [List.mem_append, List.mem_singleton, not_or] at hlater
      exact Or.inr ⟨⟨earlier, parent, between, rfl, hlater.1⟩, Ne.symm hlater.2⟩
  · rintro (⟨parent, rfl⟩ | ⟨⟨earlier, parent, later, rfl, hlater⟩, hn⟩)
    · exact ⟨told, parent, [], rfl, List.not_mem_nil⟩
    · refine ⟨earlier, parent, later ++ [n], by simp, ?_⟩
      rw [List.mem_append, List.mem_singleton, not_or]
      exact ⟨hlater, Ne.symm hn⟩

namespace Tracer

theorem trapSignal_ne_stopSignal : trapSignal ≠ stopSignal := by decide

/-- A notice about a tracee. A new process is none that is traced, and not the root again. -/
structure Expects (t : Tracer) (n : Notice) : Prop where
  traced : n.subject ∈ t.tracees
  new : ∀ parent child, n = .forked parent (some child) → child ∉ t.tracees ∧ child ≠ t.root

/-! ### The branches of `handle` -/

/-- Whether a stop is the first trap of the root. -/
def IsFirst (t : Tracer) (pid signal : Int) : Prop :=
  (signal = trapSignal ∧ pid = t.root) ∧ t.rootStarted = false

theorem handle_stopped_cases (t : Tracer) (r : StageRecord) (pid signal : Int) :
    (t.IsFirst pid signal ∧ t.handle r (.stopped pid signal)
        = ({ t with rootStarted := true }, r, [.resume pid none])) ∨
      (¬t.IsFirst pid signal ∧ (signal = stopSignal ∧ pid ∈ t.fresh) ∧
        t.handle r (.stopped pid signal)
          = ({ t with fresh := t.fresh.filter (· != pid) }, r, [.resume pid none])) ∨
      ¬t.IsFirst pid signal ∧ ¬(signal = stopSignal ∧ pid ∈ t.fresh) ∧
        t.handle r (.stopped pid signal) = (t, r, [.resume pid (some signal)]) := by
  simp only [handle, Bool.and_eq_true, decide_eq_true_iff, Bool.not_eq_true',
    List.contains_iff_mem]
  split
  · rename_i hfirst
    exact Or.inl ⟨hfirst, rfl⟩
  · rename_i hfirst
    split
    · rename_i hfresh
      exact Or.inr (Or.inl ⟨hfirst, hfresh, rfl⟩)
    · rename_i hfresh
      exact Or.inr (Or.inr ⟨hfirst, hfresh, rfl⟩)

theorem forget_eq (t : Tracer) (r : StageRecord) (pid : Int) (code : Option Int) :
    t.forget r pid code =
      ({ t with tracees := t.tracees.filter (· != pid), fresh := t.fresh.filter (· != pid) },
        { r with debugged := if pid = t.root then r.debugged else r.debugged.filter (· != pid) },
        if pid = t.root then [.publish (code.getD exitFailure)] else []) := by
  unfold forget
  dsimp only
  split <;> rfl

end Tracer

/-! ## The invariant -/

/-- A tracer of a root that was told some notices, with the children that it shares. -/
structure Tracks (root : Int) (told : List Notice) (t : Tracer) (debugged : List Int) : Prop where
  root_eq : t.root = root
  nodup : t.tracees.Nodup
  debugged_eq : debugged = t.tracees.filter (· != root)
  fresh_iff : ∀ pid, pid ∈ t.fresh ↔ pid ∈ t.tracees ∧ AwaitsStop told pid
  started_iff : t.rootStarted = true ↔ .stopped root Tracer.trapSignal ∈ told
  not_forked : ∀ parent, .forked parent (some root) ∉ told
  /-- The root ends once, and is traced until then. -/
  codes : (codesOf root told).length = if root ∈ t.tracees then 0 else 1

namespace Tracks

variable {root : Int} {told : List Notice} {t : Tracer} {debugged : List Int}

theorem start (root : Int) : Tracks root [] (.start root) [] where
  root_eq := rfl
  nodup := List.nodup_singleton root
  debugged_eq := by simp [Tracer.start]
  fresh_iff pid := by simp [Tracer.start, AwaitsStop]
  started_iff := by simp [Tracer.start]
  not_forked parent := List.not_mem_nil
  codes := by simp [Tracer.start, codesOf]

/-- The root is no fresh tracee, and is not shared. -/
theorem fresh_subset (h : Tracks root told t debugged) : ∀ pid ∈ t.fresh, pid ∈ debugged := by
  intro pid hpid
  obtain ⟨htracee, earlier, parent, later, rfl, -⟩ := (h.fresh_iff pid).mp hpid
  rw [h.debugged_eq, List.mem_filter, bne_iff_ne]
  refine ⟨htracee, ?_⟩
  rintro rfl
  exact h.not_forked parent (by simp)

theorem applied (h : Tracks root told t debugged) (applied : Bool) :
    Tracks root told { t with applied } debugged :=
  ⟨h.root_eq, h.nodup, h.debugged_eq, h.fresh_iff, h.started_iff, h.not_forked, h.codes⟩

/-! ### One notice -/

theorem quiet (h : Tracks root told t debugged) {n : Notice} (hcode : n.code? = none)
    (hfork : ∀ parent child, n ≠ .forked parent (some child)) {fresh : List Int}
    {rootStarted : Bool}
    (hfresh : ∀ pid, pid ∈ fresh ↔ pid ∈ t.fresh ∧ n ≠ .stopped pid Tracer.stopSignal)
    (hstarted : rootStarted = true ↔
      t.rootStarted = true ∨ n = .stopped root Tracer.trapSignal) :
    Tracks root (told ++ [n]) { t with fresh, rootStarted } debugged where
  root_eq := h.root_eq
  nodup := h.nodup
  debugged_eq := h.debugged_eq
  fresh_iff pid := by
    rw [hfresh, h.fresh_iff, awaitsStop_concat]
    have hnone : ¬∃ parent, n = .forked parent (some pid) := by
      rintro ⟨parent, hn⟩
      exact hfork parent pid hn
    rw [or_iff_right hnone, and_assoc]
  started_iff := by
    rw [hstarted, h.started_iff, List.mem_append, List.mem_singleton, eq_comm (a := n)]
  not_forked parent := by
    rw [List.mem_append, List.mem_singleton, not_or]
    exact ⟨h.not_forked parent, Ne.symm (hfork parent root)⟩
  codes := by
    rw [codesOf_append, codesOf_singleton, hcode, ite_self, Option.toList_none, List.append_nil]
    exact h.codes

theorem passing (h : Tracks root told t debugged) {n : Notice} (hcode : n.code? = none)
    (hfork : ∀ parent child, n ≠ .forked parent (some child))
    (hstop : ∀ pid signal, n ≠ .stopped pid signal) : Tracks root (told ++ [n]) t debugged :=
  h.quiet hcode hfork (fun pid ↦ (and_iff_left (hstop pid _)).symm)
    (or_iff_left (hstop root _)).symm

theorem forked (h : Tracks root told t debugged) (parent : Int) {child : Int}
    (htracee : child ∉ t.tracees) (hroot : child ≠ root) :
    Tracks root (told ++ [.forked parent (some child)])
      { t with tracees := t.tracees ++ [child], fresh := child :: t.fresh.filter (· != child) }
      (debugged ++ [child]) where
  root_eq := h.root_eq
  nodup := by
    rw [List.nodup_append]
    refine ⟨h.nodup, List.nodup_singleton child, ?_⟩
    rintro a ha b hb rfl
    exact htracee (List.mem_singleton.mp hb ▸ ha)
  debugged_eq := by simp [h.debugged_eq, hroot]
  fresh_iff pid := by
    by_cases hpid : pid = child
    · simp [hpid, awaitsStop_concat]
    · simp [hpid, awaitsStop_concat, h.fresh_iff, Ne.symm hpid]
  started_iff := by simp [h.started_iff]
  not_forked other := by simp [h.not_forked, Ne.symm hroot]
  codes := by
    rw [codesOf_append, codesOf_singleton]
    simp [Notice.code?, h.codes, Ne.symm hroot]

theorem forget (h : Tracks root told t debugged) {n : Notice} {code : Int}
    (hcode : n.code? = some code) (htraced : n.subject ∈ t.tracees)
    (hfork : ∀ parent child, n ≠ .forked parent child)
    (hstop : ∀ pid signal, n ≠ .stopped pid signal) :
    Tracks root (told ++ [n])
      { t with
        tracees := t.tracees.filter (· != n.subject), fresh := t.fresh.filter (· != n.subject) }
      (debugged.filter (· != n.subject)) where
  root_eq := h.root_eq
  nodup := h.nodup.filter _
  debugged_eq := by
    rw [h.debugged_eq, List.filter_filter, List.filter_filter]
    exact List.filter_congr fun pid _ ↦ Bool.and_comm _ _
  fresh_iff pid := by
    simp [awaitsStop_concat, h.fresh_iff, hfork, hstop, and_right_comm]
  started_iff := by simp [h.started_iff, Ne.symm (hstop root _)]
  not_forked parent := by simp [h.not_forked, Ne.symm (hfork parent _)]
  codes := by
    rw [codesOf_append, codesOf_singleton, hcode, List.length_append, h.codes]
    by_cases hroot : n.subject = root
    · simp [← hroot, htraced]
    · simp [hroot, Ne.symm hroot]

/-- Which stops a tracee does not get to know of. -/
theorem stopped_cases (h : Tracks root told t debugged) (r : StageRecord) {pid : Int}
    (htraced : pid ∈ t.tracees) (signal : Int) :
    (t.handle r (.stopped pid signal)).2.2 = [.resume pid none] ∧ Induced root told pid signal ∨
      (t.handle r (.stopped pid signal)).2.2 = [.resume pid (some signal)] ∧
        ¬Induced root told pid signal := by
  have hinduced : Induced root told pid signal ↔
      (signal = Tracer.trapSignal ∧ pid = t.root) ∧ t.rootStarted = false ∨
        signal = Tracer.stopSignal ∧ pid ∈ t.fresh := by
    rw [Induced, ← h.started_iff, h.fresh_iff, and_iff_right htraced, h.root_eq,
      Bool.not_eq_true, and_assoc, and_left_comm]
  rw [hinduced]
  rcases t.handle_stopped_cases r pid signal with
    ⟨hfirst, hhandle⟩ | ⟨-, hfresh, hhandle⟩ | ⟨hfirst, hfresh, hhandle⟩
  · exact Or.inl ⟨by rw [hhandle], Or.inl hfirst⟩
  · exact Or.inl ⟨by rw [hhandle], Or.inr hfresh⟩
  · exact Or.inr ⟨by rw [hhandle], not_or.mpr ⟨hfirst, hfresh⟩⟩

theorem handle_stopped {r : StageRecord} (h : Tracks root told t r.debugged) (pid signal : Int) :
    Tracks root (told ++ [.stopped pid signal]) (t.handle r (.stopped pid signal)).1
      (t.handle r (.stopped pid signal)).2.1.debugged := by
  have hfork : ∀ parent child, Notice.stopped pid signal ≠ .forked parent (some child) := by
    rintro parent child ⟨⟩
  -- a trap of a root that has not started is the first one
  have hstarted (hfirst : ¬t.IsFirst pid signal) : t.rootStarted = true ↔
      t.rootStarted = true ∨ Notice.stopped pid signal = .stopped root Tracer.trapSignal := by
    refine (or_iff_left_of_imp fun heq ↦ ?_).symm
    obtain ⟨rfl, rfl⟩ := Notice.stopped.inj heq
    by_contra hnot
    exact hfirst ⟨⟨rfl, h.root_eq.symm⟩, Bool.eq_false_iff.mpr hnot⟩
  rcases t.handle_stopped_cases r pid signal with
    ⟨hfirst, hhandle⟩ | ⟨hfirst, ⟨rfl, -⟩, hhandle⟩ | ⟨hfirst, hfresh, hhandle⟩ <;> rw [hhandle]
  · obtain ⟨⟨rfl, rfl⟩, -⟩ := hfirst
    refine h.quiet rfl hfork ?_ ?_
    · simp [Tracer.trapSignal_ne_stopSignal]
    · simp [h.root_eq]
  · refine h.quiet rfl hfork (fun other ↦ ?_) (hstarted hfirst)
    simp [eq_comm (a := pid)]
  · refine h.quiet rfl hfork (fun other ↦ (and_iff_left_of_imp fun hother heq ↦ ?_).symm)
      (hstarted hfirst)
    obtain ⟨rfl, rfl⟩ := Notice.stopped.inj heq
    exact hfresh ⟨rfl, hother⟩

theorem handle_forget {r : StageRecord} (h : Tracks root told t r.debugged) {n : Notice}
    {code : Int} (hcode : n.code? = some code) (htraced : n.subject ∈ t.tracees)
    (hfork : ∀ parent child, n ≠ .forked parent child)
    (hstop : ∀ pid signal, n ≠ .stopped pid signal) (reported : Option Int) :
    Tracks root (told ++ [n]) (t.forget r n.subject reported).1
      (t.forget r n.subject reported).2.1.debugged := by
  have hforget := h.forget hcode htraced hfork hstop
  rw [Tracer.forget_eq]
  dsimp only
  split
  · rename_i hroot
    -- the root is not among the children that are shared
    have hkept : r.debugged.filter (· != n.subject) = r.debugged := by
      rw [List.filter_eq_self, h.debugged_eq, hroot, h.root_eq]
      exact fun pid hpid ↦ (List.mem_filter.mp hpid).2
    rwa [hkept] at hforget
  · exact hforget

/-- **A notice about a tracee is taken note of everywhere.** -/
theorem handle {r : StageRecord} (h : Tracks root told t r.debugged) {n : Notice}
    (hn : t.Expects n) :
    Tracks root (told ++ [n]) (t.handle r n).1 (t.handle r n).2.1.debugged := by
  cases n with
  | stopped pid signal => exact h.handle_stopped pid signal
  | forked parent child =>
    match child with
    | none => exact h.passing rfl (by rintro _ _ ⟨⟩) (by rintro _ _ ⟨⟩)
    | some child =>
      obtain ⟨htracee, hroot⟩ := hn.new parent child rfl
      exact h.forked parent htracee (h.root_eq ▸ hroot)
  | exiting pid => exact h.passing rfl (by rintro _ _ ⟨⟩) (by rintro _ _ ⟨⟩)
  | passing pid => exact h.passing rfl (by rintro _ _ ⟨⟩) (by rintro _ _ ⟨⟩)
  | exited pid code =>
    exact h.handle_forget rfl hn.traced (by rintro _ _ ⟨⟩) (by rintro _ _ ⟨⟩) _
  | killed pid signal =>
    exact h.handle_forget rfl hn.traced (by rintro _ _ ⟨⟩) (by rintro _ _ ⟨⟩) _
  | lost pid => exact h.handle_forget rfl hn.traced (by rintro _ _ ⟨⟩) (by rintro _ _ ⟨⟩) _

end Tracks

/-! ## What is done about a notice -/

theorem Tracer.tracingEnded_handle (t : Tracer) (r : StageRecord) (n : Notice) :
    (t.handle r n).2.1.tracingEnded = r.tracingEnded := by
  have hforget (pid : Int) (code : Option Int) :
      (t.forget r pid code).2.1.tracingEnded = r.tracingEnded := by rw [forget_eq]
  cases n with
  | stopped pid signal =>
    rcases t.handle_stopped_cases r pid signal with ⟨-, h⟩ | ⟨-, -, h⟩ | ⟨-, -, h⟩ <;> rw [h]
  | forked parent child => cases child <;> rfl
  | exiting pid => rfl
  | passing pid => rfl
  | exited pid code => exact hforget pid _
  | killed pid signal => exact hforget pid _
  | lost pid => exact hforget pid _

/-- A tracee goes on, the root is read first, or an end is told of if it is that of the root. -/
theorem Tracer.actions_cases (t : Tracer) (r : StageRecord) (n : Notice) :
    (n.code? = none ∧ ∃ pid signal, (t.handle r n).2.2 = [.resume pid signal]) ∨
      (n.code? = none ∧ (t.handle r n).2.2 = [.takeOver, .resume t.root none] ∧
        n = .exiting t.root ∧ r.capture = true) ∨
      ∃ code, n.code? = some code ∧
        (t.handle r n).2.2 = if n.subject = t.root then [.publish code] else [] := by
  have hforget (pid : Int) (code : Option Int) :
      (t.forget r pid code).2.2
        = if pid = t.root then [.publish (code.getD exitFailure)] else [] := by rw [forget_eq]
  cases n with
  | stopped pid signal =>
    refine Or.inl ⟨rfl, ?_⟩
    rcases t.handle_stopped_cases r pid signal with ⟨-, h⟩ | ⟨-, -, h⟩ | ⟨-, -, h⟩ <;> rw [h]
    · exact ⟨_, _, rfl⟩
    · exact ⟨_, _, rfl⟩
    · exact ⟨_, _, rfl⟩
  | forked parent child => cases child <;> exact Or.inl ⟨rfl, _, _, rfl⟩
  | exiting pid =>
    simp only [handle]
    split
    · rename_i hroot
      simp only [Bool.and_eq_true, decide_eq_true_iff] at hroot
      obtain ⟨rfl, hcapture⟩ := hroot
      exact Or.inr (Or.inl ⟨rfl, rfl, rfl, hcapture⟩)
    · exact Or.inl ⟨rfl, _, _, rfl⟩
  | passing pid => exact Or.inl ⟨rfl, _, _, rfl⟩
  | exited pid code => exact Or.inr (Or.inr ⟨_, rfl, hforget pid _⟩)
  | killed pid signal => exact Or.inr (Or.inr ⟨_, rfl, hforget pid _⟩)
  | lost pid => exact Or.inr (Or.inr ⟨_, rfl, hforget pid _⟩)

/-- The parameters are taken over when the root is about to exit, if they are wanted then. -/
theorem Tracer.takeOver_mem_iff {t : Tracer} {r : StageRecord} {n : Notice} :
    .takeOver ∈ (t.handle r n).2.2 ↔ n = .exiting t.root ∧ r.capture = true := by
  constructor
  · intro hmem
    rcases t.actions_cases r n with ⟨-, pid, signal, hactions⟩ | ⟨-, -, htaken⟩ |
      ⟨code, -, hactions⟩
    · rw [hactions] at hmem
      simp at hmem
    · exact htaken
    · rw [hactions] at hmem
      split at hmem
      · simp at hmem
      · simp at hmem
  · rintro ⟨rfl, hcapture⟩
    simp [handle, hcapture]

def TraceAction.code? : TraceAction → Option Int
  | .publish code => some code
  | _ => none

theorem Tracer.filterMap_code? (t : Tracer) (r : StageRecord) (n : Notice) :
    (t.handle r n).2.2.filterMap TraceAction.code? = codesOf t.root [n] := by
  rw [codesOf_singleton]
  rcases t.actions_cases r n with ⟨hcode, pid, signal, hactions⟩ | ⟨hcode, hactions, -⟩ |
    ⟨code, hcode, hactions⟩
  · rw [hactions, hcode, ite_self]
    rfl
  · rw [hactions, hcode, ite_self]
    rfl
  · rw [hactions, hcode]
    split
    · rfl
    · rfl

end ShellEngine
