import ShellEngine.Proofs.Engine.Plumbing

/-!
# Redirections leave no trace

Every descriptor that is made for a redirection is held by somebody as long as it is open: by the
snapshot, by the stage, or by the step that has just made it. So it can be said at each moment that
it was either closed, once, or is held, once, and open (`Ledger`), and that the standard streams can
be put back from their copies (`Redirecting.Kept`). Each step of a redirection keeps this, however it
ends.

What is left when the streams were put back, or when a redirection failed, is what was moved out of
the snapshot (`Redirect.apply_traceless`).
-/

namespace ShellEngine

open Machine

/-- The descriptors that a stage holds: the input that it was handed, and those that are to be
drained into buffers. -/
def RunningStage.holds (r : RunningStage) : List Nat :=
  r.pipedInput.toList ++ r.pendingDrains.map (·.2)

def Snapshot.holds (s : Snapshot) : List Nat := s.created ++ s.nextInput.toList ++ s.copies

/-! ## The ledger of descriptors -/

namespace Machine.Descriptors

variable {d d₀ : Descriptors} {handed : Option Nat} {held fds : List Nat} {fd file source : Nat}

/-- A descriptor that has to be accounted for: one that was made since, or one that was handed over
with it. -/
def Owes (d₀ : Descriptors) (handed : Option Nat) (fd : Nat) : Prop :=
  d₀.next ≤ fd ∨ handed = some fd

/-- What became of the descriptors since they were `d₀`: those that have to be accounted for are held
and open, or were closed, and all others but the standard streams are what they were. -/
structure Ledger (d₀ : Descriptors) (handed : Option Nat) (held : List Nat) (d : Descriptors) :
    Prop where
  next : d₀.next ≤ d.next
  /-- Either it is held or it was closed, and that once. -/
  once : ∀ fd, d₀.Owes handed fd → fd < d.next → d.closed.count fd + held.count fd = 1
  fresh : ∀ fd, d.next ≤ fd → d.file? fd = none ∧ fd ∉ d.closed ∧ fd ∉ held
  opened : ∀ fd, d₀.Owes handed fd → ((d.file? fd).isSome ↔ fd ∈ held)
  others : ∀ fd, 3 ≤ fd → ¬ d₀.Owes handed fd →
    d.file? fd = d₀.file? fd ∧ d.closed.count fd = d₀.closed.count fd

namespace Ledger

/-- It does not matter who holds a descriptor. -/
theorem perm {held' : List Nat} (h : Ledger d₀ handed held d) (hperm : held.Perm held') :
    Ledger d₀ handed held' d where
  next := h.next
  once fd howes hlt := by rw [← hperm.count_eq]; exact h.once fd howes hlt
  fresh fd hle := by rw [← hperm.mem_iff]; exact h.fresh fd hle
  opened fd howes := by rw [← hperm.mem_iff]; exact h.opened fd howes
  others := h.others

theorem of_eq {d' : Descriptors} (h : Ledger d₀ handed held d) (hnext : d'.next = d.next)
    (hfile : ∀ fd, 3 ≤ fd → d'.file? fd = d.file? fd) (hclosed : d'.closed = d.closed)
    (hstandard : ∀ fd, d₀.Owes handed fd → 3 ≤ fd) (hnextStandard : 3 ≤ d₀.next) :
    Ledger d₀ handed held d' where
  next := hnext ▸ h.next
  once fd howes hlt := by rw [hclosed]; exact h.once fd howes (hnext ▸ hlt)
  fresh fd hle := by
    rw [hnext] at hle
    rw [hclosed, hfile fd (Nat.le_trans hnextStandard (Nat.le_trans h.next hle))]
    exact h.fresh fd hle
  opened fd howes := by rw [hfile fd (hstandard fd howes)]; exact h.opened fd howes
  others fd hfd howes := by rw [hfile fd hfd, hclosed]; exact h.others fd hfd howes

theorem give (h : Ledger d₀ handed held d) (file : Nat) :
    Ledger d₀ handed (d.next :: held) (d.give file).2 where
  next := Nat.le_succ_of_le h.next
  once fd howes hlt := by
    change d.closed.count fd + _ = 1
    rcases Nat.lt_succ_iff_lt_or_eq.mp hlt with hlt | rfl
    · rw [List.count_cons_of_ne (Nat.ne_of_gt hlt)]
      exact h.once fd howes hlt
    · obtain ⟨-, hclosed, hheld⟩ := h.fresh d.next (Nat.le_refl _)
      rw [List.count_cons_self, List.count_eq_zero.mpr hclosed, List.count_eq_zero.mpr hheld]
  fresh fd hle := by
    have hlt : d.next < fd := hle
    obtain ⟨hfile, hclosed, hheld⟩ := h.fresh fd (Nat.le_of_lt hlt)
    rw [file?_give, if_neg (Nat.ne_of_gt hlt)]
    exact ⟨hfile, hclosed, List.not_mem_cons_of_ne_of_not_mem (Nat.ne_of_gt hlt) hheld⟩
  opened fd howes := by
    rw [file?_give, List.mem_cons]
    by_cases hfd : fd = d.next
    · simp [hfd]
    · simp [hfd, h.opened fd howes]
  others fd hfd howes := by
    have hne : fd ≠ d.next := fun heq ↦ howes (Or.inl (heq ▸ h.next))
    rw [file?_give, if_neg hne]
    exact h.others fd hfd howes

theorem closeAll (h : Ledger d₀ handed (fds ++ held) d) (howed : ∀ fd ∈ fds, d₀.Owes handed fd) :
    Ledger d₀ handed held (d.closeAll fds) where
  next := by rw [next_closeAll]; exact h.next
  once fd howes hlt := by
    rw [next_closeAll] at hlt
    have honce := h.once fd howes hlt
    rw [List.count_append] at honce
    rw [closed_closeAll, List.count_append, List.count_reverse]
    omega
  fresh fd hle := by
    rw [next_closeAll] at hle
    obtain ⟨hfile, hclosed, hheld⟩ := h.fresh fd hle
    rw [List.mem_append, not_or] at hheld
    rw [file?_closeAll, if_neg hheld.1, closed_closeAll, List.mem_append, List.mem_reverse, not_or]
    exact ⟨hfile, ⟨hheld.1, hclosed⟩, hheld.2⟩
  opened fd howes := by
    rw [file?_closeAll]
    by_cases hfd : fd ∈ fds
    · -- It was held once, so that it is not held any more.
      have hlt : fd < d.next := Nat.lt_of_not_le fun hle ↦
        (h.fresh fd hle).2.2 (List.mem_append_left _ hfd)
      have honce := h.once fd howes hlt
      have hpos := List.count_pos_iff.mpr hfd
      rw [List.count_append] at honce
      have hheld : fd ∉ held := List.count_eq_zero.mp (by omega)
      simp [hfd, hheld]
    · rw [if_neg hfd, h.opened fd howes, List.mem_append]
      simp [hfd]
  others fd hfd howes := by
    have hmem : fd ∉ fds := fun hmem ↦ howes (howed fd hmem)
    rw [file?_closeAll, if_neg hmem, closed_closeAll, List.count_append, List.count_reverse,
      List.count_eq_zero.mpr hmem, Nat.zero_add]
    exact h.others fd hfd howes

end Ledger

end Machine.Descriptors

/-! ## Redirections in the making -/

/-- When a redirection begins, the standard streams are open, no number was given that is to come,
and the stage holds descriptors that were given. -/
structure Redirect.Begins (h : Host) (stage : RunningStage) : Prop where
  standard : 3 ≤ h.descriptors.next
  streams : ∀ fd < 3, (h.descriptors.file? fd).isSome
  unused : ∀ fd, h.descriptors.next ≤ fd → h.descriptors.file? fd = none ∧ fd ∉ h.descriptors.closed
  input : ∀ fd, stage.pipedInput = some fd → 3 ≤ fd ∧ fd < h.descriptors.next ∧
    (h.descriptors.file? fd).isSome ∧ fd ∉ h.descriptors.closed
  apart : ∀ e ∈ stage.pendingDrains, e.2 < h.descriptors.next ∧ stage.pipedInput ≠ some e.2

theorem Redirect.Begins.of_orderly {h : Host} {stage : RunningStage} (horderly : h.Orderly)
    (hstreams : ∀ fd < 3, (h.descriptors.file? fd).isSome)
    (hclosed : ∀ fd ∈ h.descriptors.closed, fd < h.descriptors.next)
    (hinput : ∀ fd ∈ stage.pipedInput, 3 ≤ fd ∧ (h.descriptors.file? fd).isSome ∧
      fd ∉ h.descriptors.closed)
    (hdrains : ∀ e ∈ stage.pendingDrains, e.2 < h.descriptors.next ∧ stage.pipedInput ≠ some e.2) :
    Redirect.Begins h stage := by
  have hopen (fd : Nat) (hfile : (h.descriptors.file? fd).isSome) : fd < h.descriptors.next := by
    obtain ⟨file, hfile⟩ := Option.isSome_iff_exists.mp hfile
    exact (horderly.known _ (Descriptors.mem_of_file? hfile)).1
  refine ⟨horderly.standard, hstreams, fun fd hle ↦ ⟨?_, fun hmem ↦ ?_⟩, fun fd hfd ↦ ?_, hdrains⟩
  · exact Option.not_isSome_iff_eq_none.mp fun hfile ↦ Nat.not_lt.mpr hle (hopen fd hfile)
  · exact Nat.not_lt.mpr hle (hclosed fd hmem)
  · obtain ⟨hthree, hfile, hclosed⟩ := hinput fd hfd
    exact ⟨hthree, hopen fd hfile, hfile, hclosed⟩

namespace Redirecting

open Redirect

variable {h : Host} {stage : RunningStage} {r : Redirecting} {loose left : List Nat}
  {fd stream : Nat}

/-- A descriptor that has to be accounted for. -/
abbrev Owes (h : Host) (stage : RunningStage) (fd : Nat) : Prop :=
  h.descriptors.Owes stage.pipedInput fd

theorem three_le_of_owes (hbegins : Begins h stage) (howes : Owes h stage fd) : 3 ≤ fd :=
  howes.elim (Nat.le_trans hbegins.standard) fun hfd ↦ (hbegins.input fd hfd).1

/-- Nothing is lost: each descriptor is held, by the snapshot, by the stage or by the step that is at
it, or was closed. The standard streams can be put back. -/
structure Kept (h : Host) (stage : RunningStage) (loose : List Nat) (r : Redirecting) : Prop where
  ledger : Descriptors.Ledger h.descriptors stage.pipedInput
    (loose ++ r.snapshot.holds ++ r.stage.holds) r.host.descriptors
  owed : ∀ fd ∈ loose ++ r.snapshot.holds, Owes h stage fd
  input : ∀ fd, r.stage.pipedInput = some fd → stage.pipedInput = some fd
  drains : ∀ e ∈ r.stage.pendingDrains, e ∈ stage.pendingDrains ∨ Owes h stage e.2
  /-- A standard stream that was not replaced is what it was. -/
  plain : ∀ fd < 3, fd ∉ r.snapshot.overridden →
    r.host.descriptors.file? fd = h.descriptors.file? fd
  /-- There is a copy of what each standard stream was. -/
  copy : ∀ fd < 3, ∃ copy, r.snapshot.saved.lookup fd = some (some copy) ∧
    copy ∈ r.snapshot.copies ∧ r.host.descriptors.file? copy = h.descriptors.file? fd
  routing : r.snapshot.routing = none

/-! ## What happens to descriptors -/

/-- The host went on, and left the standard streams and their copies alone. -/
theorem Kept.withHost {k : Host} (hkept : Kept h stage loose r)
    (hledger : Descriptors.Ledger h.descriptors stage.pipedInput
      (left ++ r.snapshot.holds ++ r.stage.holds) k.descriptors)
    (howed : ∀ fd ∈ left, Owes h stage fd)
    (hfile : ∀ fd, fd < 3 ∨ fd ∈ r.snapshot.copies →
      k.descriptors.file? fd = r.host.descriptors.file? fd) :
    Kept h stage left { r with host := k } where
  ledger := hledger
  owed fd hfd := (List.mem_append.mp hfd).elim (howed fd) fun hfd ↦
    hkept.owed fd (List.mem_append_right _ hfd)
  input := hkept.input
  drains := hkept.drains
  plain fd hfd hplain := (hfile fd (Or.inl hfd)).trans (hkept.plain fd hfd hplain)
  copy fd hfd := by
    obtain ⟨copy, hsaved, hcopies, hcopy⟩ := hkept.copy fd hfd
    exact ⟨copy, hsaved, hcopies, (hfile copy (Or.inr hcopies)).trans hcopy⟩
  routing := hkept.routing

theorem Kept.mem_of_mem_copies (hcopies : fd ∈ r.snapshot.copies) :
    fd ∈ loose ++ r.snapshot.holds ++ r.stage.holds := by
  simp [Snapshot.holds, hcopies]

theorem Kept.lt_next (hkept : Kept h stage loose r)
    (hfd : fd ∈ loose ++ r.snapshot.holds ++ r.stage.holds) : fd < r.host.descriptors.next :=
  Nat.lt_of_not_le fun hle ↦ (hkept.ledger.fresh fd hle).2.2 hfd

theorem Kept.call (hbegins : Begins h stage) (hkept : Kept h stage loose r) {k : Host}
    (hk : k.descriptors = r.host.descriptors.call.2) : Kept h stage loose { r with host := k } := by
  refine hkept.withHost ?_ (fun fd hfd ↦ hkept.owed fd (List.mem_append_left _ hfd)) fun fd _ ↦ ?_
  · refine hkept.ledger.of_eq ?_ (fun fd _ ↦ ?_) ?_ (fun _ ↦ three_le_of_owes hbegins) hbegins.standard
    · rw [hk, Descriptors.next_call]
    · rw [hk, Descriptors.file?_call]
    · rw [hk, Descriptors.closed_call]
  · rw [hk, Descriptors.file?_call]

theorem Kept.give (hbegins : Begins h stage) (hkept : Kept h stage loose r) {k : Host} {file : Nat}
    (hk : k.descriptors = (r.host.descriptors.give file).2) :
    Kept h stage (r.host.descriptors.next :: loose) { r with host := k } := by
  refine hkept.withHost (hk ▸ hkept.ledger.give file) (fun fd hfd ↦ ?_) fun fd hfd ↦ ?_
  · rcases List.mem_cons.mp hfd with rfl | hfd
    · exact Or.inl hkept.ledger.next
    · exact hkept.owed fd (List.mem_append_left _ hfd)
  · have hlt : fd < r.host.descriptors.next := by
      rcases hfd with hfd | hcopies
      · exact Nat.lt_of_lt_of_le hfd (Nat.le_trans hbegins.standard hkept.ledger.next)
      · exact hkept.lt_next (Kept.mem_of_mem_copies hcopies)
    rw [hk, Descriptors.file?_give, if_neg (Nat.ne_of_lt hlt)]

theorem Kept.closeAll (hbegins : Begins h stage) (hkept : Kept h stage loose r) :
    Kept h stage []
      { r with host := { r.host with descriptors := r.host.descriptors.closeAll loose } } := by
  have howed (fd : Nat) (hfd : fd ∈ loose) : Owes h stage fd :=
    hkept.owed fd (List.mem_append_left _ hfd)
  have hledger := hkept.ledger
  rw [List.append_assoc] at hledger
  refine hkept.withHost (hledger.closeAll howed) (fun fd hfd ↦ nomatch hfd) fun fd hfd ↦ ?_
  have hmem : fd ∉ loose := by
    intro hmem
    rcases hfd with hfd | hcopies
    · exact Nat.not_le.mpr hfd (three_le_of_owes hbegins (howed fd hmem))
    · -- A copy is held by the snapshot, and by nobody else.
      have hmember : fd ∈ loose ++ r.snapshot.holds ++ r.stage.holds :=
        Kept.mem_of_mem_copies hcopies
      have hlt := hkept.lt_next hmember
      have honce := hledger.once fd (howed fd hmem) hlt
      have hloose := List.count_pos_iff.mpr hmem
      have hheld : 0 < (r.snapshot.holds ++ r.stage.holds).count fd :=
        List.count_pos_iff.mpr (by simp [Snapshot.holds, hcopies])
      rw [List.count_append] at honce
      omega
  exact (Descriptors.file?_closeAll _ _ _).trans (if_neg hmem)

theorem file?_replaced {d : Descriptors} {source : Nat} (hne : fd ≠ stream) :
    (d.call.2.replace source stream).file? fd = d.file? fd :=
  (Descriptors.file?_replace_of_ne hne).trans (Descriptors.file?_call d fd)

theorem closed_replaced {d : Descriptors} {source : Nat} :
    (d.call.2.replace source stream).closed = d.closed :=
  (Descriptors.closed_replace _ _ _).trans (Descriptors.closed_call d)

/-- A standard stream that is replaced is not among the copies. -/
theorem Kept.copy_replaced (hbegins : Begins h stage) (hkept : Kept h stage loose r)
    (hstream : stream < 3) (source : Nat) (hfd : fd < 3) :
    ∃ copy, r.snapshot.saved.lookup fd = some (some copy) ∧ copy ∈ r.snapshot.copies ∧
      (r.host.descriptors.call.2.replace source stream).file? copy = h.descriptors.file? fd := by
  obtain ⟨copy, hsaved, hcopies, hcopy⟩ := hkept.copy fd hfd
  have hle := three_le_of_owes hbegins (hkept.owed copy (by simp [Snapshot.holds, hcopies]))
  exact ⟨copy, hsaved, hcopies, (file?_replaced (by omega)).trans hcopy⟩

theorem perm_installed (fd stream : Nat) : (fd :: loose ++ r.snapshot.holds).Perm
    (loose ++ (r.installed fd stream).snapshot.holds) := by
  refine List.perm_iff_count.mpr fun x ↦ ?_
  simp only [installed, Snapshot.holds, Snapshot.copies, List.count_append, List.count_cons,
    List.count_nil]
  omega

/-- A standard stream was made a copy of a descriptor, which the snapshot holds from now on. -/
theorem Kept.installed (hbegins : Begins h stage) (hkept : Kept h stage (fd :: loose) r)
    (hstream : stream < 3) : Kept h stage loose (r.installed fd stream) where
  ledger := (hkept.ledger.perm ((perm_installed fd stream).append_right _)).of_eq
    ((Descriptors.next_replace _ _ _).trans (Descriptors.next_call _))
    (fun x hx ↦ file?_replaced (by omega)) closed_replaced (fun _ ↦ three_le_of_owes hbegins)
    hbegins.standard
  owed x hx := hkept.owed x ((perm_installed fd stream).mem_iff.mpr hx)
  input := hkept.input
  drains := hkept.drains
  plain x hx hplain := by
    simp only [Redirecting.installed, List.mem_append, List.mem_singleton, not_or] at hplain
    exact (file?_replaced hplain.2).trans (hkept.plain x hx hplain.1)
  copy x hx := hkept.copy_replaced hbegins hstream fd hx
  routing := hkept.routing

theorem Kept.copied (hbegins : Begins h stage) (hkept : Kept h stage loose r) {source : Nat}
    (hstream : stream < 3) : Kept h stage loose (r.copied source stream) where
  ledger := hkept.ledger.of_eq ((Descriptors.next_replace _ _ _).trans (Descriptors.next_call _))
    (fun x hx ↦ file?_replaced (by omega)) closed_replaced (fun _ ↦ three_le_of_owes hbegins)
    hbegins.standard
  owed := hkept.owed
  input := hkept.input
  drains := hkept.drains
  plain x hx hplain := by
    simp only [Redirecting.copied, List.mem_append, List.mem_singleton, not_or] at hplain
    exact (file?_replaced hplain.2).trans (hkept.plain x hx hplain.1)
  copy x hx := hkept.copy_replaced hbegins hstream source hx
  routing := hkept.routing

theorem Kept.takeInput (hkept : Kept h stage [] r) (hinput : r.stage.pipedInput = some fd) :
    Kept h stage [fd] { r with stage := { r.stage with pipedInput := none } } where
  ledger := by
    refine hkept.ledger.perm (List.perm_iff_count.mpr fun x ↦ ?_)
    simp only [RunningStage.holds, hinput, Option.toList_some, Option.toList_none,
      List.count_append, List.count_nil]
    omega
  owed x hx := by
    rcases List.mem_append.mp hx with hx | hx
    · exact Or.inr (List.mem_singleton.mp hx ▸ hkept.input fd hinput)
    · exact hkept.owed x hx
  input x hx := by cases hx
  drains := hkept.drains
  plain := hkept.plain
  copy := hkept.copy
  routing := hkept.routing

theorem Kept.passOn (hkept : Kept h stage [fd] r) (hnone : r.snapshot.nextInput = none) :
    Kept h stage [] { r with snapshot := { r.snapshot with nextInput := some fd } } where
  ledger := by
    refine hkept.ledger.perm (List.perm_iff_count.mpr fun x ↦ ?_)
    simp only [Snapshot.holds, Snapshot.copies, hnone, Option.toList_some, Option.toList_none,
      List.count_append, List.count_nil]
    omega
  owed x hx := by
    refine hkept.owed x ?_
    simp only [Snapshot.holds, Snapshot.copies, hnone, Option.toList_some, Option.toList_none,
      List.nil_append, List.append_nil, List.mem_append, List.mem_singleton] at hx ⊢
    rcases hx with (hx | hx) | hx
    · exact Or.inr (Or.inl hx)
    · exact Or.inl hx
    · exact Or.inr (Or.inr hx)
  input := hkept.input
  drains := hkept.drains
  plain := hkept.plain
  copy := hkept.copy
  routing := hkept.routing

theorem Kept.drain (hkept : Kept h stage [fd] r) (key : Nat) :
    Kept h stage [] { r with stage :=
      { r.stage with pendingDrains := r.stage.pendingDrains ++ [(key, fd)] } } where
  ledger := by
    refine hkept.ledger.perm (List.perm_iff_count.mpr fun x ↦ ?_)
    simp only [RunningStage.holds, List.map_append, List.map_cons, List.map_nil, List.count_append,
      List.count_nil]
    omega
  owed x hx := hkept.owed x (List.mem_append_right _ hx)
  input := hkept.input
  drains e he := by
    rcases List.mem_append.mp he with he | he
    · exact hkept.drains e he
    · rw [List.mem_singleton.mp he]
      exact Or.inr (hkept.owed fd List.mem_cons_self)
  plain := hkept.plain
  copy := hkept.copy
  routing := hkept.routing

/-- Which buffers a stage has is of no account. -/
theorem Kept.rebuffer (hkept : Kept h stage loose r) (stdout stderr : Option Nat) (nextBuffer : Nat) :
    Kept h stage loose { r with
      stage := { r.stage with stdoutBuffer := stdout, stderrBuffer := stderr }, nextBuffer } :=
  ⟨hkept.ledger, hkept.owed, hkept.input, hkept.drains, hkept.plain, hkept.copy, hkept.routing⟩

end Redirecting

namespace Redirect

open Redirecting

variable {α β : Type} {h : Host} {stage : RunningStage} {r : Redirecting} {loose others : List Nat}
  {fd stream : Nat}

/-- A step of a redirection ends in a state of the one kind, or fails in one of the other. -/
def Ends (x : Redirect α) (r : Redirecting) (Q : α → Redirecting → Prop) (E : Redirecting → Prop) :
    Prop :=
  match x.run.run r with
  | (.ok a, r') => Q a r'
  | (.error _, r') => E r'

theorem Ends.bind {x : Redirect α} {f : α → Redirect β} {Q : α → Redirecting → Prop}
    {Q' : β → Redirecting → Prop} {E : Redirecting → Prop} (hx : Ends x r Q E)
    (hf : ∀ a r', Q a r' → Ends (f a) r' Q' E) : Ends (x >>= f) r Q' E := by
  unfold Ends at hx ⊢
  rcases hr : x.run.run r with ⟨e | a, r'⟩ <;> rw [hr] at hx
  · rw [run_run_bind_of_error hr]
    exact hx
  · rw [run_run_bind_of_ok hr]
    exact hf a r' hx

theorem Ends.imp {x : Redirect α} {Q Q' : α → Redirecting → Prop} {E : Redirecting → Prop}
    (hx : Ends x r Q E) (hQ : ∀ a r', Q a r' → Q' a r') : Ends x r Q' E := by
  unfold Ends at hx ⊢
  rcases hr : x.run.run r with ⟨e | a, r'⟩ <;> rw [hr] at hx
  · exact hx
  · exact hQ a r' hx

theorem ends_get_bind {f : Redirecting → Redirect β} {Q : β → Redirecting → Prop}
    {E : Redirecting → Prop} (h : Ends (f r) r Q E) : Ends (get >>= f) r Q E := h

theorem ends_modify {g : Redirecting → Redirecting} {Q : Redirecting → Prop}
    {E : Redirecting → Prop} (hQ : Q (g r)) : Ends (modify g) r (fun _ ↦ Q) E := hQ

theorem ends_attempt {f : Host → Except Errno α × Host} {Q : α → Redirecting → Prop}
    {E : Redirecting → Prop} (target : String)
    (hf : (∃ e k, f r.host = (.error e, k) ∧ E { r with host := k }) ∨
      ∃ a k, f r.host = (.ok a, k) ∧ Q a { r with host := k }) : Ends (attempt target f) r Q E := by
  unfold Ends
  rcases hf with ⟨e, k, hf, hE⟩ | ⟨a, k, hf, hQ⟩
  · rw [run_attempt_of_error target hf]
    exact hE
  · rw [run_attempt_of_ok target hf]
    exact hQ

/-! ## Steps -/

/-- What a step changes is the host. -/
def SameBooks (r r' : Redirecting) : Prop := r'.snapshot = r.snapshot ∧ r'.stage = r.stage

theorem ends_openPath (hbegins : Begins h stage) (hkept : Kept h stage [] r) (path : String)
    (mode : OpenMode) :
    Ends (openPath path mode) r
      (fun fd r' ↦ Kept h stage [fd] r' ∧ SameBooks r r') (Kept h stage []) := by
  unfold openPath
  split
  · exact hkept
  · refine ends_attempt path ?_
    rcases Host.descriptors_openWith (fun w s ↦ w.openPath s _ mode) r.host with
      ⟨e, k, hopen, hk⟩ | ⟨file, k, hopen, hk⟩
    · exact Or.inl ⟨e, k, hopen, hkept.call hbegins hk⟩
    · have hcalled : Kept h stage []
          { r with host := { r.host with descriptors := r.host.descriptors.call.2 } } :=
        hkept.call hbegins rfl
      have hgiven := hcalled.give hbegins hk
      rw [Descriptors.next_call] at hgiven
      exact Or.inr ⟨_, k, hopen, hgiven, rfl, rfl⟩

/-- The end to write to stands in front of the one to read from. -/
theorem ends_pipe (hbegins : Begins h stage) (hkept : Kept h stage [] r) (target : String) :
    Ends (attempt target Host.pipe) r
      (fun ends r' ↦ Kept h stage [ends.2, ends.1] r' ∧ SameBooks r r') (Kept h stage []) := by
  refine ends_attempt target ?_
  rcases Host.descriptors_pipe r.host with ⟨e, k, hpipe, hk⟩ | ⟨file, file', k, hpipe, hk⟩
  · exact Or.inl ⟨e, k, hpipe, hkept.call hbegins hk⟩
  · let called : Host := { r.host with descriptors := r.host.descriptors.call.2 }
    let first : Host := { called with descriptors := (called.descriptors.give file).2 }
    have hcalled : Kept h stage [] { r with host := called } := hkept.call hbegins rfl
    have hfirst : Kept h stage [called.descriptors.next] { r with host := first } :=
      hcalled.give hbegins rfl
    have hsecond := hfirst.give hbegins hk
    have hnext : called.descriptors.next = r.host.descriptors.next := Descriptors.next_call _
    have hlast : first.descriptors.next = r.host.descriptors.next + 1 := congrArg (· + 1) hnext
    rw [hnext, hlast] at hsecond
    exact Or.inr ⟨_, k, hpipe, hsecond, rfl, rfl⟩

theorem ends_install (hbegins : Begins h stage) {others : List Nat}
    (hkept : Kept h stage (fd :: others) r) (hstream : stream < 3) (target : String) :
    Ends (install fd stream target others) r
      (fun _ r' ↦ Kept h stage others r' ∧ r'.snapshot.nextInput = r.snapshot.nextInput)
      (Kept h stage []) := by
  unfold Ends
  rcases run_install fd stream target others r with ⟨e, -, hrun⟩ | hrun <;> rw [hrun]
  · have hcalled : Kept h stage (fd :: others)
        { r with host := { r.host with descriptors := r.host.descriptors.call.2 } } :=
      hkept.call hbegins rfl
    exact hcalled.closeAll hbegins
  · exact ⟨hkept.installed hbegins hstream, rfl⟩

theorem ends_copyStream (hbegins : Begins h stage) (hkept : Kept h stage [] r) (source : Nat)
    (hstream : stream < 3) :
    Ends (copyStream source stream) r (fun _ ↦ Kept h stage []) (Kept h stage []) := by
  unfold Ends
  rcases run_copyStream source stream r with ⟨e, -, hrun⟩ | hrun <;> rw [hrun]
  · exact hkept.call hbegins rfl
  · exact hkept.copied hbegins hstream

theorem ends_opened (hbegins : Begins h stage) (hkept : Kept h stage [] r) (path : String)
    (mode : OpenMode) (hstream : stream < 3) (target : String) :
    Ends (openPath path mode >>= fun fd ↦ install fd stream target []) r
      (fun _ r' ↦ Kept h stage [] r' ∧ r'.snapshot.nextInput = r.snapshot.nextInput)
      (Kept h stage []) := by
  refine (ends_openPath hbegins hkept path mode).bind fun fd r' hr' ↦ ?_
  obtain ⟨hopened, hbooks⟩ := hr'
  rw [← hbooks.1]
  exact ends_install hbegins hopened hstream target

theorem ends_placeInput (hbegins : Begins h stage) (hkept : Kept h stage [] r) :
    Ends placeInput r (fun _ r' ↦ Kept h stage [] r' ∧ r'.snapshot.nextInput = r.snapshot.nextInput)
      (Kept h stage []) := by
  refine ends_get_bind ?_
  split
  · exact ⟨hkept, rfl⟩
  · exact ends_opened hbegins hkept _ .input (by decide) _
  · exact ends_opened hbegins hkept nullDevice .input (by decide) _
  · refine ends_get_bind ?_
    split
    · rename_i reader hreader
      exact ends_install hbegins (hkept.takeInput hreader) (by decide) _
    · exact ends_opened hbegins hkept nullDevice .input (by decide) _

theorem ends_bufferOf (hkept : Kept h stage loose r) (stream : Nat) {E : Redirecting → Prop} :
    Ends (bufferOf stream) r (fun _ ↦ Kept h stage loose) E := by
  refine ends_get_bind ?_
  dsimp only
  split
  · exact hkept
  · by_cases hstream : stream = 1
    · simp only [hstream, if_true]
      exact hkept.rebuffer _ _ _
    · simp only [hstream, if_false]
      exact hkept.rebuffer _ _ _

theorem ends_placeOutput (hbegins : Begins h stage) (hkept : Kept h stage [] r)
    (hstream : stream < 3) (hnone : stream = 1 → r.snapshot.nextInput = none) (target : Output) :
    Ends (placeOutput target stream) r (fun _ ↦ Kept h stage []) (Kept h stage []) := by
  have hopened (path : String) (appends : Bool) :
      Ends (openOutput path appends >>= fun fd ↦ install fd stream path []) r
        (fun _ ↦ Kept h stage []) (Kept h stage []) :=
    (ends_opened hbegins hkept path (.output appends) hstream path).imp fun _ _ hr' ↦ hr'.1
  have hpipe (target : String) : Ends (attempt "pipe" Host.pipe >>= fun ends ↦
      install ends.2 stream target [ends.1] >>= fun _ ↦ pure ends.1) r
        (fun reader r' ↦ Kept h stage [reader] r' ∧ r'.snapshot.nextInput = r.snapshot.nextInput)
        (Kept h stage []) := by
    refine (ends_pipe hbegins hkept "pipe").bind fun ends r₁ ⟨hpiped, hbooks⟩ ↦ ?_
    refine (ends_install hbegins hpiped hstream target).bind fun _ r₂ ⟨hinstalled, hnext⟩ ↦ ?_
    exact ⟨hinstalled, hnext.trans (congrArg Snapshot.nextInput hbooks.1)⟩
  unfold placeOutput
  split
  · exact hkept
  · exact hkept
  · exact hopened _ false
  · exact hopened _ true
  · exact hopened nullDevice true
  · split
    · rename_i hout
      have hthen := (hpipe "pipe").bind fun reader r' ⟨hkept, hnext⟩ ↦
        ends_modify (g := fun r ↦ { r with snapshot := { r.snapshot with nextInput := some reader } })
          (Q := Kept h stage []) (hkept.passOn (hnext.trans (hnone hout)))
      simpa only [bind_assoc, pure_bind] using hthen
    · exact hkept
  · have hthen := (hpipe "buffer").bind fun reader r' ⟨hkept, _⟩ ↦
      (ends_bufferOf hkept stream).bind fun key r'' hr'' ↦
        ends_modify (g := fun r ↦ { r with stage := { r.stage with
          pendingDrains := r.stage.pendingDrains ++ [(key, reader)] } })
          (Q := Kept h stage []) (hr''.drain key)
    simpa only [bind_assoc, pure_bind] using hthen

/-- All streams are put in place. -/
theorem ends_placeStreams (hbegins : Begins h stage) (hkept : Kept h stage [] r)
    (hnone : r.snapshot.nextInput = none) :
    Ends placeStreams r (fun _ ↦ Kept h stage []) (Kept h stage []) := by
  refine (ends_placeInput hbegins hkept).bind fun _ r₁ ⟨hkept₁, hnext⟩ ↦ ?_
  have hplace {r : Redirecting} (hkept : Kept h stage [] r) (target : Output) :
      Ends (placeOutput target 2) r (fun _ ↦ Kept h stage []) (Kept h stage []) :=
    ends_placeOutput hbegins hkept (by decide) (fun h ↦ absurd h (by decide)) target
  have hfirst (target : Output) :
      Ends (placeOutput target 1) r₁ (fun _ ↦ Kept h stage []) (Kept h stage []) :=
    ends_placeOutput hbegins hkept₁ (by decide) (fun _ ↦ hnext.trans hnone) target
  refine ends_get_bind ?_
  dsimp only
  split
  · exact hkept₁
  · exact (hplace hkept₁ _).bind fun _ r₂ hkept₂ ↦ ends_copyStream hbegins hkept₂ 2 (by decide)
  · exact (hfirst _).bind fun _ r₂ hkept₂ ↦ ends_copyStream hbegins hkept₂ 1 (by decide)
  · exact (hfirst _).bind fun _ r₂ hkept₂ ↦ hplace hkept₂ _

end Redirect

/-! ## The beginning -/

namespace Redirect

open Redirecting

variable {h k l : Host} {c : Cancellation} {stage : RunningStage} {nextBuffer : Nat} {routes : Bool}
  {s : Snapshot} {moved pending : List Nat} {fd file : Nat}

theorem Begins.not_mem_holds (hbegins : Begins h stage) (hle : h.descriptors.next ≤ fd) :
    fd ∉ stage.holds := by
  intro hmem
  rcases List.mem_append.mp hmem with hmem | hmem
  · exact Nat.not_lt.mpr hle (hbegins.input fd (Option.mem_toList.mp hmem)).2.1
  · obtain ⟨e, he, rfl⟩ := List.mem_map.mp hmem
    exact Nat.not_lt.mpr hle (hbegins.apart e he).1

/-- At the beginning, the stage holds all that has to be accounted for. -/
theorem Begins.ledger (hbegins : Begins h stage) :
    Descriptors.Ledger h.descriptors stage.pipedInput stage.holds h.descriptors where
  next := Nat.le_refl _
  once fd howes hlt := by
    have hinput := howes.resolve_left (Nat.not_le.mpr hlt)
    have hdrains : fd ∉ stage.pendingDrains.map (·.2) := by
      intro hmem
      obtain ⟨e, he, rfl⟩ := List.mem_map.mp hmem
      exact (hbegins.apart e he).2 hinput
    rw [List.count_eq_zero.mpr (hbegins.input fd hinput).2.2.2, RunningStage.holds, hinput,
      List.count_append, List.count_eq_zero.mpr hdrains]
    simp
  fresh fd hle := ⟨(hbegins.unused fd hle).1, (hbegins.unused fd hle).2, hbegins.not_mem_holds hle⟩
  opened fd howes := by
    rcases howes with hle | hinput
    · rw [(hbegins.unused fd hle).1]
      exact iff_of_false (by simp) (hbegins.not_mem_holds hle)
    · exact iff_of_true (hbegins.input fd hinput).2.2.1
        (List.mem_append_left _ (Option.mem_toList.mpr hinput))
  others _ _ _ := ⟨rfl, rfl⟩

theorem duplicate_eq (hfile : k.descriptors.file? fd = some file) :
    k.duplicate fd = (some k.descriptors.next,
      { k with descriptors := (k.descriptors.give file).2 }) := by
  unfold Host.duplicate
  rw [hfile]
  rfl

theorem exists_capture_eq (hbegins : Begins h stage) : ∃ d,
    Snapshot.capture h =
      ({ saved := [(0, some h.descriptors.next), (1, some (h.descriptors.next + 1)),
          (2, some (h.descriptors.next + 2))] }, { h with descriptors := d }) ∧
      Descriptors.Ledger h.descriptors stage.pipedInput
        ([h.descriptors.next + 2, h.descriptors.next + 1, h.descriptors.next] ++ stage.holds) d ∧
      ∀ fd < 3, d.file? fd = h.descriptors.file? fd ∧
        d.file? (h.descriptors.next + fd) = h.descriptors.file? fd := by
  obtain ⟨in_, hin⟩ := Option.isSome_iff_exists.mp (hbegins.streams 0 (by decide))
  obtain ⟨out, hout⟩ := Option.isSome_iff_exists.mp (hbegins.streams 1 (by decide))
  obtain ⟨err, herr⟩ := Option.isSome_iff_exists.mp (hbegins.streams 2 (by decide))
  have hstandard := hbegins.standard
  let d₁ := (h.descriptors.give in_).2
  let d₂ := (d₁.give out).2
  let d₃ := (d₂.give err).2
  have hfile₁ (fd : Nat) : d₁.file? fd =
      if fd = h.descriptors.next then some in_ else h.descriptors.file? fd :=
    Descriptors.file?_give _ _ _
  have hfile₂ (fd : Nat) : d₂.file? fd =
      if fd = h.descriptors.next + 1 then some out else d₁.file? fd :=
    Descriptors.file?_give _ _ _
  have hfile₃ (fd : Nat) : d₃.file? fd =
      if fd = h.descriptors.next + 2 then some err else d₂.file? fd :=
    Descriptors.file?_give _ _ _
  have hout₁ : d₁.file? 1 = some out := by rw [hfile₁, if_neg (by omega), hout]
  have herr₂ : d₂.file? 2 = some err := by
    rw [hfile₂, if_neg (by omega), hfile₁, if_neg (by omega), herr]
  refine ⟨d₃, ?_, ((hbegins.ledger.give in_).give out).give err, fun fd hfd ↦ ⟨?_, ?_⟩⟩
  · unfold Snapshot.capture
    rw [duplicate_eq hin]
    dsimp only
    rw [duplicate_eq (k := { h with descriptors := d₁ }) hout₁]
    dsimp only
    rw [duplicate_eq (k := { h with descriptors := d₂ }) herr₂]
    rfl
  · rw [hfile₃, if_neg (by omega), hfile₂, if_neg (by omega), hfile₁, if_neg (by omega)]
  · rw [hfile₃, hfile₂, hfile₁]
    obtain rfl | rfl | rfl : fd = 0 ∨ fd = 1 ∨ fd = 2 := by omega
    · simp [hin]
    · simp [hout]
    · simp [herr]

/-- When a redirection begins, the snapshot holds the copies of the standard streams. -/
theorem kept_capture (hbegins : Begins h stage) (nextBuffer : Nat) :
    Kept h stage []
      { host := (Snapshot.capture h).2, stage, snapshot := (Snapshot.capture h).1, nextBuffer } ∧
      (Snapshot.capture h).1.nextInput = none := by
  obtain ⟨d, hcapture, hledger, hfile⟩ := exists_capture_eq hbegins
  rw [hcapture]
  refine ⟨⟨?_, fun fd hfd ↦ Or.inl ?_, fun _ hfd ↦ hfd, fun _ he ↦ Or.inl he,
    fun fd hfd _ ↦ (hfile fd hfd).1, fun fd hfd ↦ ⟨h.descriptors.next + fd, ?_, ?_, (hfile fd hfd).2⟩,
    rfl⟩, rfl⟩
  · refine hledger.perm (List.perm_iff_count.mpr fun x ↦ ?_)
    simp only [Snapshot.holds, Snapshot.copies, List.filterMap_cons, List.filterMap_nil,
      Option.toList_none, List.nil_append, List.cons_append, List.count_cons]
    omega
  · simp only [Snapshot.holds, Snapshot.copies, List.filterMap_cons, List.filterMap_nil,
      Option.toList_none, List.nil_append, List.append_nil, List.mem_cons, List.not_mem_nil,
      or_false] at hfd
    omega
  · obtain rfl | rfl | rfl : fd = 0 ∨ fd = 1 ∨ fd = 2 := by omega
    · rfl
    · rfl
    · rfl
  · obtain rfl | rfl | rfl : fd = 0 ∨ fd = 1 ∨ fd = 2 := by omega
    all_goals simp [Snapshot.copies]

/-! ## The end -/

/-- Between two streams that are put back: those that are done, or were not replaced, are what they
were, and there are copies for the others. -/
structure Restores (h : Host) (s : Snapshot) (pending : List Nat) (l : Host) : Prop where
  plain : ∀ fd < 3, fd ∉ s.overridden ∨ fd ∉ pending →
    l.descriptors.file? fd = h.descriptors.file? fd
  copy : ∀ fd < 3, ∃ copy, s.saved.lookup fd = some (some copy) ∧ 3 ≤ copy ∧
    l.descriptors.file? copy = h.descriptors.file? fd

/-- Of all descriptors, only the stream that is put back changes. -/
theorem Restores.restoreStream {stream : Nat} (hbegins : Begins h stage) (hstream : stream < 3)
    (hrestores : Restores h s (stream :: pending) l) :
    Restores h s pending (s.restoreStream l stream) ∧
      (s.restoreStream l stream).descriptors.next = l.descriptors.next ∧
      (s.restoreStream l stream).descriptors.closed = l.descriptors.closed ∧
      ∀ fd, 3 ≤ fd → (s.restoreStream l stream).descriptors.file? fd = l.descriptors.file? fd := by
  obtain ⟨copy, hsaved, hle, hcopy⟩ := hrestores.copy stream hstream
  obtain ⟨file, hfile⟩ := Option.isSome_iff_exists.mp (hbegins.streams stream hstream)
  unfold Snapshot.restoreStream
  split
  · rw [hsaved]
    dsimp only [Option.getD_some]
    have hself : (l.descriptors.replace copy stream).file? stream = h.descriptors.file? stream :=
      (Descriptors.file?_replace_self (hcopy.trans hfile)).trans hfile.symm
    refine ⟨⟨fun fd hfd hplain ↦ ?_, fun fd hfd ↦ ?_⟩, Descriptors.next_replace _ _ _,
      Descriptors.closed_replace _ _ _, fun fd hfd ↦ Descriptors.file?_replace_of_ne (by omega)⟩
    · by_cases hself' : fd = stream
      · rw [hself']
        exact hself
      · refine (Descriptors.file?_replace_of_ne hself').trans (hrestores.plain fd hfd ?_)
        exact hplain.imp_right fun hnot ↦ List.not_mem_cons_of_ne_of_not_mem hself' hnot
    · obtain ⟨copy', hsaved', hle', hcopy'⟩ := hrestores.copy fd hfd
      exact ⟨copy', hsaved', hle', (Descriptors.file?_replace_of_ne (by omega)).trans hcopy'⟩
  · rename_i hoverridden
    refine ⟨⟨fun fd hfd hplain ↦ hrestores.plain fd hfd ?_, hrestores.copy⟩, rfl, rfl, fun _ _ ↦ rfl⟩
    by_cases hself : fd = stream
    · left
      rw [hself]
      simpa [Snapshot.isOverridden] using hoverridden
    · exact hplain.imp_right fun hnot ↦ List.not_mem_cons_of_ne_of_not_mem hself hnot

/-- A redirection left no trace but the descriptors that were moved out. -/
structure Traceless (h : Host) (stage : RunningStage) (moved : List Nat) (k : Host) : Prop where
  streams : ∀ fd < 3, k.descriptors.file? fd = h.descriptors.file? fd
  /-- What was made since is open and was never closed if it was moved out, -/
  opened : ∀ fd ∈ moved, Owes h stage fd → (k.descriptors.file? fd).isSome ∧ fd ∉ k.descriptors.closed
  /-- and otherwise it was closed once, as is the input that the stage was handed. -/
  closed : ∀ fd, h.descriptors.next ≤ fd ∧ fd < k.descriptors.next ∨ stage.pipedInput = some fd →
    fd ∉ moved → k.descriptors.file? fd = none ∧ k.descriptors.closed.count fd = 1
  known : ∀ fd ∈ moved, fd ∈ stage.holds ∨ h.descriptors.next ≤ fd ∧ fd < k.descriptors.next
  others : ∀ fd, 3 ≤ fd → ¬ Owes h stage fd → k.descriptors.file? fd = h.descriptors.file? fd ∧
    k.descriptors.closed.count fd = h.descriptors.closed.count fd

/-- The streams are put back, and what the snapshot holds is closed. -/
theorem traceless_revertStreams (hbegins : Begins h stage)
    (hledger : Descriptors.Ledger h.descriptors stage.pipedInput (s.holds ++ moved) l.descriptors)
    (hrestores : Restores h s [0, 1, 2] l) (howed : ∀ fd ∈ s.holds, Owes h stage fd)
    (hmoved : ∀ fd ∈ moved, fd ∈ stage.holds ∨ Owes h stage fd) :
    Traceless h stage moved (s.revertStreams l) := by
  let k₁ := s.restoreStream l 0
  let k₂ := s.restoreStream k₁ 1
  let k₃ := s.restoreStream k₂ 2
  obtain ⟨hrestores₁, hnext₁, hclosed₁, hfile₁⟩ := hrestores.restoreStream hbegins (by decide)
  obtain ⟨hrestores₂, hnext₂, hclosed₂, hfile₂⟩ := hrestores₁.restoreStream hbegins (by decide)
  obtain ⟨hrestores₃, hnext₃, hclosed₃, hfile₃⟩ := hrestores₂.restoreStream hbegins (by decide)
  have hrestored : Descriptors.Ledger h.descriptors stage.pipedInput (s.holds ++ moved)
      k₃.descriptors :=
    hledger.of_eq (hnext₃.trans (hnext₂.trans hnext₁))
      (fun fd hfd ↦ (hfile₃ fd hfd).trans ((hfile₂ fd hfd).trans (hfile₁ fd hfd)))
      (hclosed₃.trans (hclosed₂.trans hclosed₁)) (fun _ ↦ three_le_of_owes hbegins) hbegins.standard
  have hdone := hrestored.closeAll howed
  have hdescriptors : (s.revertStreams l).descriptors = k₃.descriptors.closeAll s.holds := rfl
  rw [← hdescriptors] at hdone
  have hlt (fd : Nat) (hfd : fd ∈ moved) : fd < (s.revertStreams l).descriptors.next :=
    Nat.lt_of_not_le fun hle ↦ (hdone.fresh fd hle).2.2 hfd
  refine ⟨fun fd hfd ↦ ?_, fun fd hfd howes ↦ ⟨(hdone.opened fd howes).mpr hfd, ?_⟩,
    fun fd hfd hmem ↦ ?_, fun fd hfd ↦ ?_, hdone.others⟩
  · have hheld : fd ∉ s.holds := fun hmem ↦
      Nat.not_le.mpr hfd (three_le_of_owes hbegins (howed fd hmem))
    rw [hdescriptors, Descriptors.file?_closeAll, if_neg hheld]
    exact hrestores₃.plain fd hfd (Or.inr List.not_mem_nil)
  · have honce := hdone.once fd howes (hlt fd hfd)
    have hpos := List.count_pos_iff.mpr hfd
    exact List.count_eq_zero.mp (by omega)
  · have howes : Owes h stage fd := hfd.imp_left (·.1)
    have hbound : fd < (s.revertStreams l).descriptors.next := by
      rcases hfd with hfd | hinput
      · exact hfd.2
      · exact Nat.lt_of_lt_of_le (hbegins.input fd hinput).2.1 hdone.next
    have honce := hdone.once fd howes hbound
    rw [List.count_eq_zero.mpr hmem] at honce
    exact ⟨Option.not_isSome_iff_eq_none.mp (mt (hdone.opened fd howes).mp hmem), honce⟩
  · rcases hmoved fd hfd with hheld | hle | hinput
    · exact Or.inl hheld
    · exact Or.inr ⟨hle, hlt fd hfd⟩
    · exact Or.inl (List.mem_append_left _ (Option.mem_toList.mpr hinput))

theorem restores_of_kept {r : Redirecting} (hbegins : Begins h stage) (hkept : Kept h stage [] r)
    (hl : l.descriptors = r.host.descriptors) : Restores h r.snapshot [0, 1, 2] l where
  plain fd hfd hplain := by
    rw [hl]
    refine hkept.plain fd hfd (hplain.resolve_right fun hnot ↦ hnot ?_)
    simp only [List.mem_cons, List.not_mem_nil, or_false]
    omega
  copy fd hfd := by
    obtain ⟨copy, hsaved, hcopies, hcopy⟩ := hkept.copy fd hfd
    have howes := hkept.owed copy (by simp [Snapshot.holds, hcopies])
    exact ⟨copy, hsaved, three_le_of_owes hbegins howes, hl ▸ hcopy⟩

theorem mem_holds_of_kept {r : Redirecting} (hkept : Kept h stage [] r) (hfd : fd ∈ r.stage.holds) :
    fd ∈ stage.holds ∨ Owes h stage fd := by
  rcases List.mem_append.mp hfd with hfd | hfd
  · exact Or.inr (Or.inr (hkept.input fd (Option.mem_toList.mp hfd)))
  · obtain ⟨e, he, rfl⟩ := List.mem_map.mp hfd
    exact (hkept.drains e he).imp_left fun he ↦ List.mem_append_right _ (List.mem_map_of_mem he)

/-- **A redirection leaves no trace.** If it fails, nothing is left of it but what the stage holds.
If it is put back later, with the descriptors as it has left them, nothing is left but that and,
if it was taken out of the snapshot, the input of the pipe to the next stage. Either way the
standard streams and the routing of the interrupt key are what they were. -/
theorem apply_traceless {o : Outcome} (hbegins : Begins h stage)
    (ho : apply h c stage nextBuffer routes = o) :
    match o.result with
    | .error _ => Traceless h stage o.stage.holds o.host ∧ o.cancellation = c
    | .ok snapshot => ∀ (l : Host) (c' : Cancellation), l.descriptors = o.host.descriptors →
      (Traceless h stage o.stage.holds (snapshot.revertStreams l) ∧
        (snapshot.revertRouting c').routed = c.routed) ∧
      Traceless h stage (snapshot.nextInput.toList ++ o.stage.holds)
          (snapshot.takeNextInput.2.revertStreams l) ∧
        (snapshot.takeNextInput.2.revertRouting c').routed = c.routed := by
  obtain ⟨hcaptured, hnone⟩ := kept_capture hbegins nextBuffer
  have hplaced := ends_placeStreams hbegins hcaptured hnone
  unfold Ends at hplaced
  have hrevert {r : Redirecting} (hkept : Kept h stage [] r) {l : Host}
      (hl : l.descriptors = r.host.descriptors) :
      Traceless h stage r.stage.holds (r.snapshot.revertStreams l) :=
    traceless_revertStreams hbegins (hl ▸ hkept.ledger) (restores_of_kept hbegins hkept hl) hkept.owed
      fun _ ↦ mem_holds_of_kept hkept
  subst ho
  obtain ⟨r, ⟨e, hrun, happly⟩ | ⟨hrun, happly⟩⟩ := apply_cases h c stage nextBuffer routes <;>
    rw [hrun] at hplaced <;> rw [happly] <;> dsimp only
  · refine ⟨hrevert hplaced rfl, ?_⟩
    rw [Snapshot.revertRouting, hplaced.routing]
  · intro l c' hl
    refine ⟨⟨hrevert hplaced hl, rfl⟩, ?_, rfl⟩
    -- The input of the pipe is held by whoever has taken it.
    have hperm : r.snapshot.holds.Perm
        ((r.snapshot.created ++ r.snapshot.copies) ++ r.snapshot.nextInput.toList) := by
      rw [Snapshot.holds, List.append_assoc, List.append_assoc]
      exact List.perm_append_comm.append_left _
    have htaken : (r.snapshot.takeNextInput.2).holds = r.snapshot.created ++ r.snapshot.copies := by
      simp [Snapshot.holds, Snapshot.takeNextInput, Snapshot.copies]
    have hrestores := restores_of_kept hbegins hplaced hl
    refine traceless_revertStreams (s := r.snapshot.takeNextInput.2) hbegins ?_
      ⟨hrestores.plain, hrestores.copy⟩ (fun fd hfd ↦ ?_) fun fd hfd ↦ ?_
    · rw [hl, htaken, ← List.append_assoc]
      exact hplaced.ledger.perm (hperm.append_right _)
    · rw [htaken] at hfd
      exact hplaced.owed fd (hperm.mem_iff.mpr (List.mem_append_left _ hfd))
    · rcases List.mem_append.mp hfd with hfd | hfd
      · exact Or.inr (hplaced.owed fd (hperm.mem_iff.mpr (List.mem_append_right _ hfd)))
      · exact mem_holds_of_kept hplaced hfd

/-- A host with its standard streams and the input of a pipe, on which the fifth call is refused. -/
def exhausted : Host where
  world := { tree := .empty, files := Array.replicate 4 { target := .node FileTree.root } }
  cwd := FileTree.root
  descriptors :=
    { table := [(0, 0), (1, 1), (2, 2), (3, 3)]
      next := 4
      refusals := [none, none, none, none, some ⟨24⟩] }

/-- A stage between two pipes that keeps its errors in a buffer. -/
def between : RunningStage where
  stage := { argv := ["tee"], text := "tee", stdin := .pipe, stdout := .pipe, stderr := .buffer }
  record := 0
  pipedInput := some 3

/-- The standard input and output were replaced and the pipe for the errors was made, but not
installed: everything is closed again. -/
theorem apply_traceless_exhausted :
    Begins exhausted between ∧ (apply exhausted {} between 0 true).result.isOk = false ∧
      Traceless exhausted between [] (apply exhausted {} between 0 true).host ∧
      (apply exhausted {} between 0 true).host.descriptors.closed.length = 8 := by
  have hbegins : Begins exhausted between := .of_orderly ⟨by decide, by decide, by decide⟩
    (by decide) (by decide) (by decide) (by decide)
  have herror : (apply exhausted {} between 0 true).result.isOk = false := by decide +kernel
  have hholds : (apply exhausted {} between 0 true).stage.holds = [] := by decide +kernel
  have htraceless := apply_traceless hbegins (rfl : apply exhausted {} between 0 true = _)
  refine ⟨hbegins, herror, ?_, by decide +kernel⟩
  cases hresult : (apply exhausted {} between 0 true).result with
  | ok snapshot =>
    rw [hresult] at herror
    cases herror
  | error e =>
    rw [hresult, hholds] at htraceless
    exact htraceless.1

end Redirect

end ShellEngine
