import ShellEngine.Proofs.Engine.Streams
import ShellEngine.Proofs.Machine.Descriptors

/-!
# What putting streams in place does to descriptors

Each stream that is put in place replaces one of the standard streams, and may open a descriptor for
that; the snapshot notes both (`Redirecting.Proceeds`). So whatever is in the table when all streams
are in place was there before, or will be put back or closed again, but for the inputs of pipes that
are handed on.

A standard output that goes to a buffer is the one end of a new pipe, and the other end is all that
is left of that pipe when the streams were put back (`Session.Wires`).
-/

namespace ShellEngine

open Machine

def RunningStage.unfed (r : RunningStage) : RunningStage := { r with pipedInput := none }

def Snapshot.copies (s : Snapshot) : List Nat := s.saved.filterMap (·.2)

namespace Redirecting

variable {streams left : List Nat} {r r' r'' : Redirecting}

/-- Some of the standard streams were replaced, and descriptors were opened for that, of which some
are left open. -/
structure Proceeds (streams left : List Nat) (r r' : Redirecting) : Prop where
  host : r.host.Extends r'.host
  channel : ∀ c < r.host.world.channels.size, r'.host.world.channel c = r.host.world.channel c
  saved : r'.snapshot.saved = r.snapshot.saved
  input : ∀ fd, r'.stage.pipedInput = some fd → r.stage.pipedInput = some fd
  overridden_subset : r.snapshot.overridden ⊆ r'.snapshot.overridden
  created_subset : r.snapshot.created ⊆ r'.snapshot.created
  overridden : ∀ fd ∈ r'.snapshot.overridden, fd ∈ r.snapshot.overridden ∨ fd ∈ streams
  created : ∀ fd ∈ r'.snapshot.created, fd ∈ r.snapshot.created ∨ r.stage.pipedInput = some fd ∨
    r.host.descriptors.next ≤ fd ∧ fd < r'.host.descriptors.next
  /-- What is new in the table is noted. -/
  entries : ∀ e ∈ r'.host.descriptors.table, e ∈ r.host.descriptors.table ∨
    e.1 ∈ streams ∧ e.1 ∈ r'.snapshot.overridden ∨
    r.host.descriptors.next ≤ e.1 ∧ (e.1 ∈ r'.snapshot.created ∨ e.1 ∈ left)
  kept : ∀ e ∈ r.host.descriptors.table, e.1 ∉ streams → e ∈ r'.host.descriptors.table

namespace Proceeds

theorem of_eq (hhost : r'.host = r.host) (hsaved : r'.snapshot.saved = r.snapshot.saved)
    (hoverridden : r'.snapshot.overridden = r.snapshot.overridden)
    (hcreated : r'.snapshot.created = r.snapshot.created)
    (hinput : ∀ fd, r'.stage.pipedInput = some fd → r.stage.pipedInput = some fd) :
    Proceeds streams left r r' where
  host := hhost ▸ .refl _
  channel _ _ := by rw [hhost]
  saved := hsaved
  input := hinput
  overridden_subset := hoverridden ▸ List.Subset.refl _
  created_subset := hcreated ▸ List.Subset.refl _
  overridden _ h := Or.inl (hoverridden ▸ h)
  created _ h := Or.inl (hcreated ▸ h)
  entries _ h := Or.inl (hhost ▸ h)
  kept _ h _ := hhost ▸ h

theorem refl (streams left : List Nat) (r : Redirecting) : Proceeds streams left r r :=
  of_eq rfl rfl rfl rfl fun _ h ↦ h

theorem trans (h : Proceeds streams left r r') (h' : Proceeds streams left r' r'') :
    Proceeds streams left r r'' where
  host := h.host.trans h'.host
  channel c hc := by
    rw [h'.channel c (Nat.lt_of_lt_of_le hc h.host.world.channels), h.channel c hc]
  saved := h'.saved.trans h.saved
  input fd hfd := h.input fd (h'.input fd hfd)
  overridden_subset := List.Subset.trans h.overridden_subset h'.overridden_subset
  created_subset := List.Subset.trans h.created_subset h'.created_subset
  overridden fd hfd := (h'.overridden fd hfd).elim (h.overridden fd) Or.inr
  created fd hfd := by
    rcases h'.created fd hfd with hfd | hfd | ⟨hle, hlt⟩
    · exact (h.created fd hfd).imp_right (·.imp_right fun ⟨hle, hlt⟩ ↦
        ⟨hle, Nat.lt_of_lt_of_le hlt h'.host.next⟩)
    · exact Or.inr (Or.inl (h.input fd hfd))
    · exact Or.inr (Or.inr ⟨Nat.le_trans h.host.next hle, hlt⟩)
  entries e he := by
    rcases h'.entries e he with he | he | ⟨hle, he⟩
    · exact (h.entries e he).imp_right (·.imp (·.imp_right (h'.overridden_subset ·))
        (·.imp_right (·.imp_left (h'.created_subset ·))))
    · exact Or.inr (Or.inl he)
    · exact Or.inr (Or.inr ⟨Nat.le_trans h.host.next hle, he⟩)
  kept e he hne := h'.kept e (h.kept e he hne) hne

theorem mono {streams' left' : List Nat} (h : Proceeds streams left r r') (hstreams : streams ⊆ streams')
    (hleft : left ⊆ left') : Proceeds streams' left' r r' :=
  { h with
    overridden := fun fd hfd ↦ (h.overridden fd hfd).imp_right (hstreams ·)
    entries := fun e he ↦ (h.entries e he).imp_right (·.imp (·.imp_left (hstreams ·))
      (·.imp_right (·.imp_right (hleft ·))))
    kept := fun e he hne ↦ h.kept e he fun hmem ↦ hne (hstreams hmem) }

end Proceeds

/-- What a redirection notes beside its descriptors. -/
def books (r : Redirecting) : RunningStage × Option Nat × Nat :=
  (r.stage.unfed, r.snapshot.nextInput, r.nextBuffer)

theorem books_eq_iff : r'.books = r.books ↔ r'.stage.unfed = r.stage.unfed ∧
    r'.snapshot.nextInput = r.snapshot.nextInput ∧ r'.nextBuffer = r.nextBuffer := by
  simp [books]

/-- A standard stream was made a copy of a descriptor that was opened for that. -/
def installed (r : Redirecting) (fd stream : Nat) : Redirecting :=
  { r with
    host := { r.host with descriptors := r.host.descriptors.call.2.replace fd stream }
    snapshot := { r.snapshot with
      overridden := r.snapshot.overridden ++ [stream]
      created := r.snapshot.created ++ [fd] } }

def copied (r : Redirecting) (source target : Nat) : Redirecting :=
  { r with
    host := { r.host with descriptors := r.host.descriptors.call.2.replace source target }
    snapshot := { r.snapshot with
      overridden := r.snapshot.overridden ++ [target], aliased := true } }

end Redirecting

namespace Redirect

open Redirecting

variable {α β : Type} {r : Redirecting} {stream : Nat}

/-! ## Steps of a redirection -/

/-- A step of a redirection ends well in one of these ways, or fails as a redirection, with the
descriptors in order. -/
def Leads (x : Redirect α) (r : Redirecting) (Q : α → Redirecting → Prop) : Prop :=
  match x.run.run r with
  | (.ok a, r') => Q a r'
  | (.error e, r') => e.isRedirection = true ∧ r.host.Extends r'.host

theorem Leads.bind {x : Redirect α} {f : α → Redirect β} {Q : α → Redirecting → Prop}
    {Q' : β → Redirecting → Prop} (hx : Leads x r Q)
    (hf : ∀ a r', Q a r' → r.host.Extends r'.host ∧ Leads (f a) r' Q') : Leads (x >>= f) r Q' := by
  unfold Leads at hx ⊢
  rcases hr : x.run.run r with ⟨e | a, r'⟩ <;> rw [hr] at hx
  · rw [run_run_bind_of_error hr]
    exact hx
  · rw [run_run_bind_of_ok hr]
    obtain ⟨hhost, hrest⟩ := hf a r' hx
    unfold Leads at hrest
    rcases hr' : (f a).run.run r' with ⟨e | b, r''⟩ <;> rw [hr'] at hrest
    · exact ⟨hrest.1, hhost.trans hrest.2⟩
    · exact hrest

theorem Leads.imp {x : Redirect α} {Q Q' : α → Redirecting → Prop} (hx : Leads x r Q)
    (hQ : ∀ a r', Q a r' → Q' a r') : Leads x r Q' := by
  unfold Leads at hx ⊢
  rcases hr : x.run.run r with ⟨e | a, r'⟩ <;> rw [hr] at hx
  · exact hx
  · exact hQ a r' hx

theorem leads_pure {a : α} {Q : α → Redirecting → Prop} (h : Q a r) : Leads (pure a) r Q := h

theorem leads_get_bind {f : Redirecting → Redirect α} {Q : α → Redirecting → Prop}
    (hf : Leads (f r) r Q) : Leads (get >>= f) r Q := hf

theorem leads_modify_bind {g : Redirecting → Redirecting} {f : Unit → Redirect α}
    {Q : α → Redirecting → Prop} (hhost : (g r).host = r.host) (hf : Leads (f ()) (g r) Q) :
    Leads (modify g >>= f) r Q := by
  have hg : Leads (modify g : Redirect Unit) r fun _ r' ↦ r' = g r := rfl
  refine hg.bind fun _ r' hr' ↦ ?_
  rw [hr', hhost]
  exact ⟨.refl _, hf⟩

theorem run_attempt_of_error {f : Host → Except Errno α × Host} {e : Errno} {k : Host}
    (target : String) (hf : f r.host = (.error e, k)) :
    (attempt target f).run.run r = (.error (.redirect target (.os e)), { r with host := k }) := by
  unfold attempt
  rw [run_run_get_bind, hf]
  rfl

theorem run_attempt_of_ok {f : Host → Except Errno α × Host} {a : α} {k : Host}
    (target : String) (hf : f r.host = (.ok a, k)) :
    (attempt target f).run.run r = (.ok a, { r with host := k }) := by
  unfold attempt
  rw [run_run_get_bind, hf]
  rfl

theorem leads_attempt {f : Host → Except Errno α × Host} {Q : α → Redirecting → Prop}
    (target : String)
    (hf : (∃ e k, f r.host = (.error e, k) ∧ r.host.Extends k) ∨
      ∃ a k, f r.host = (.ok a, k) ∧ Q a { r with host := k }) : Leads (attempt target f) r Q := by
  unfold Leads
  rcases hf with ⟨e, k, hf, hextends⟩ | ⟨a, k, hf, hQ⟩
  · rw [run_attempt_of_error target hf]
    exact ⟨rfl, hextends⟩
  · rw [run_attempt_of_ok target hf]
    exact hQ

theorem leads_openPath (path : String) (mode : OpenMode) :
    Leads (openPath path mode) r fun fd r' ↦ ∃ k, r.host.Opened fd k ∧ r' = { r with host := k } := by
  unfold openPath
  split
  · exact ⟨rfl, .refl _⟩
  · refine leads_attempt path ?_
    refine (Host.openWith_cases (fun _ _ _ _ ↦ World.opens_openPath) r.host).imp_right ?_
    exact fun ⟨fd, k, hopen, hopened⟩ ↦ ⟨fd, k, hopen, k, hopened, rfl⟩

theorem leads_pipe (target : String) :
    Leads (attempt target Host.pipe) r fun ends r' ↦
      ∃ k, r.host.Piped ends.1 ends.2 k ∧ r' = { r with host := k } := by
  refine leads_attempt target ((Host.pipe_cases r.host).imp_right ?_)
  exact fun ⟨reader, writer, k, hpipe, hpiped⟩ ↦ ⟨(reader, writer), k, hpipe, k, hpiped, rfl⟩

theorem duplicateTo_cases (h : Host) (fd stream : Nat) :
    (∃ e, h.duplicateTo fd stream = (.error e, { h with descriptors := h.descriptors.call.2 })) ∨
      h.duplicateTo fd stream =
        (.ok (), { h with descriptors := h.descriptors.call.2.replace fd stream }) := by
  unfold Host.duplicateTo
  rcases h.descriptors.call with ⟨_ | e, d⟩
  · exact Or.inr rfl
  · exact Or.inl ⟨e, rfl⟩

theorem extends_replaced (h : Host) (fd : Nat) (hstream : stream < 3) :
    h.Extends { h with descriptors := h.descriptors.call.2.replace fd stream } :=
  h.extends_call.trans (Host.extends_replace _ hstream)

/-- If the copy is refused, the descriptor is closed, and with it what it was opened with. -/
theorem run_install (fd stream : Nat) (target : String) (others : List Nat) (r : Redirecting) :
    (∃ e : EngineError, e.isRedirection = true ∧ (install fd stream target others).run.run r =
      (.error e, { r with host := { r.host with
        descriptors := r.host.descriptors.call.2.closeAll (fd :: others) } })) ∨
      (install fd stream target others).run.run r = (.ok (), r.installed fd stream) := by
  unfold install
  rcases duplicateTo_cases r.host fd stream with ⟨e, hcopy⟩ | hcopy
  · have hfails := run_attempt_of_error (f := fun h ↦ h.duplicateTo fd stream) target hcopy
    exact Or.inl ⟨_, rfl, run_run_bind_of_error (run_run_tryCatch_of_error hfails _) _⟩
  · have hcopies := run_attempt_of_ok (f := fun h ↦ h.duplicateTo fd stream) target hcopy
    exact Or.inr (run_run_bind_of_ok (run_run_tryCatch_of_ok hcopies _) _)

theorem run_copyStream (source stream : Nat) (r : Redirecting) :
    (∃ e : EngineError, e.isRedirection = true ∧ (copyStream source stream).run.run r =
      (.error e, { r with host := { r.host with descriptors := r.host.descriptors.call.2 } })) ∨
      (copyStream source stream).run.run r = (.ok (), r.copied source stream) := by
  unfold copyStream
  rcases duplicateTo_cases r.host source stream with ⟨e, hcopy⟩ | hcopy
  · have hfails := run_attempt_of_error (f := fun h ↦ h.duplicateTo source stream)
      ("&" ++ toString source) hcopy
    exact Or.inl ⟨_, rfl, run_run_bind_of_error hfails _⟩
  · have hcopies := run_attempt_of_ok (f := fun h ↦ h.duplicateTo source stream)
      ("&" ++ toString source) hcopy
    exact Or.inr (run_run_bind_of_ok hcopies _)

theorem leads_install (fd : Nat) (target : String) (others : List Nat) :
    Leads (install fd stream target others) r fun _ r' ↦ r' = r.installed fd stream := by
  unfold Leads
  rcases run_install fd stream target others r with ⟨e, he, hrun⟩ | hrun <;> rw [hrun]
  exact ⟨he, r.host.extends_call.trans (Host.extends_closeAll _ (fd :: others))⟩

theorem leads_copyStream (source : Nat) :
    Leads (copyStream source stream) r fun _ r' ↦ r' = r.copied source stream := by
  unfold Leads
  rcases run_copyStream source stream r with ⟨e, he, hrun⟩ | hrun <;> rw [hrun]
  exact ⟨he, r.host.extends_call⟩

/-! ## Placing a stream -/

theorem proceeds_copied (r : Redirecting) (source : Nat) (hstream : stream < 3) :
    Proceeds [stream] [] r (r.copied source stream) where
  host := extends_replaced r.host source hstream
  channel _ _ := rfl
  saved := rfl
  input _ h := h
  overridden_subset := List.subset_append_left _ _
  created_subset := List.Subset.refl _
  overridden _ h := List.mem_append.mp h
  created _ h := Or.inl h
  entries e he := by
    rcases Descriptors.mem_replace he with he | ⟨hstream, -⟩
    · exact Or.inl (r.host.descriptors.table_call ▸ he)
    · exact Or.inr (Or.inl ⟨List.mem_singleton.mpr hstream,
        List.mem_append_right _ (List.mem_singleton.mpr hstream)⟩)
  kept e he hne :=
    Descriptors.mem_replace_of_ne (r.host.descriptors.table_call.symm ▸ he)
      (mt List.mem_singleton.mpr hne)

/-- A standard stream becomes a copy of a descriptor that was opened, or is the input of a pipe. -/
theorem proceeds_installed {fd : Nat} {k : Host} {left : List Nat} (hstream : stream < 3)
    (hhost : r.host.Extends k)
    (hchannel : ∀ c < r.host.world.channels.size, k.world.channel c = r.host.world.channel c)
    (hfd : r.stage.pipedInput = some fd ∨
      r.host.descriptors.next ≤ fd ∧ fd < k.descriptors.next)
    (htable : ∀ e ∈ k.descriptors.table, e ∈ r.host.descriptors.table ∨
      r.host.descriptors.next ≤ e.1 ∧ (e.1 = fd ∨ e.1 ∈ left))
    (hkept : ∀ e ∈ r.host.descriptors.table, e ∈ k.descriptors.table) {stage : RunningStage}
    (hinput : ∀ fd, stage.pipedInput = some fd → r.stage.pipedInput = some fd) :
    Proceeds [stream] left r ({ r with host := k, stage }.installed fd stream) where
  host := hhost.trans (extends_replaced k fd hstream)
  channel := hchannel
  saved := rfl
  input := hinput
  overridden_subset := List.subset_append_left _ _
  created_subset := List.subset_append_left _ _
  overridden _ h := List.mem_append.mp h
  created x hx := by
    rcases List.mem_append.mp hx with hx | hx
    · exact Or.inl hx
    · rw [List.mem_singleton.mp hx]
      exact Or.inr (hfd.imp_right fun ⟨hle, hlt⟩ ↦
        ⟨hle, Nat.lt_of_lt_of_le hlt (extends_replaced k fd hstream).next⟩)
  entries e he := by
    rcases Descriptors.mem_replace he with he | ⟨hstream, -⟩
    · rw [k.descriptors.table_call] at he
      refine (htable e he).imp_right fun ⟨hle, he⟩ ↦ Or.inr ⟨hle, he.imp_left fun he ↦ ?_⟩
      exact List.mem_append_right _ (List.mem_singleton.mpr he)
    · exact Or.inr (Or.inl ⟨List.mem_singleton.mpr hstream,
        List.mem_append_right _ (List.mem_singleton.mpr hstream)⟩)
  kept e he hne :=
    Descriptors.mem_replace_of_ne (k.descriptors.table_call.symm ▸ hkept e he)
      (mt List.mem_singleton.mpr hne)

theorem leads_opened (path : String) (mode : OpenMode) (hstream : stream < 3) (target : String) :
    Leads (openPath path mode >>= fun fd ↦ install fd stream target []) r fun _ r' ↦
      Proceeds [stream] [] r r' ∧ r'.books = r.books := by
  refine (leads_openPath path mode).bind fun fd r' hr' ↦ ?_
  obtain ⟨k, hopened, rfl⟩ := hr'
  refine ⟨hopened.extends, (leads_install fd target []).imp fun _ r' hr' ↦ ?_⟩
  obtain ⟨file, htable, hopens⟩ := hopened.exists_file
  rw [hr']
  refine ⟨proceeds_installed hstream hopened.extends (fun c _ ↦ ?_) (Or.inr ⟨?_, ?_⟩) (fun e he ↦ ?_)
    (fun e he ↦ ?_) fun _ h ↦ h, rfl⟩
  · rw [World.channel, hopens.channels]
    rfl
  · exact Nat.le_of_eq hopened.fresh.symm
  · rw [hopened.fresh, hopened.next]
    exact Nat.lt_succ_self _
  · rw [htable] at he
    rcases List.mem_cons.mp he with rfl | he
    · exact Or.inr ⟨Nat.le_of_eq hopened.fresh.symm, Or.inl rfl⟩
    · exact Or.inl he
  · rw [htable]
    exact List.mem_cons_of_mem _ he

/-- The input is put in place. That of a pipe is let go of by the stage. -/
theorem leads_placeInput : Leads placeInput r fun _ r' ↦ Proceeds [0] [] r r' ∧ r'.books = r.books := by
  refine leads_get_bind ?_
  split
  · exact leads_pure ⟨.refl _ _ r, rfl⟩
  · exact leads_opened _ _ (by decide) _
  · exact leads_opened _ _ (by decide) _
  · refine leads_get_bind ?_
    split
    · rename_i reader hreader
      refine leads_modify_bind rfl ((leads_install reader _ []).imp fun _ r' hr' ↦ ?_)
      rw [hr']
      refine ⟨proceeds_installed (by decide) (.refl _) (fun _ _ ↦ rfl) (Or.inl hreader)
        (fun _ h ↦ Or.inl h) (fun _ h ↦ h) ?_, rfl⟩
      exact fun _ h ↦ nomatch h
    · exact leads_opened _ _ (by decide) _

theorem leads_placeOutput {target : Output} (hstream : stream < 3) (hbuffer : target ≠ .buffer)
    (hpipe : target = .pipe → stream ≠ 1) : Leads (placeOutput target stream) r fun _ r' ↦
      Proceeds [stream] [] r r' ∧ r'.books = r.books := by
  unfold placeOutput
  split
  · exact leads_pure ⟨.refl _ _ r, rfl⟩
  · exact leads_pure ⟨.refl _ _ r, rfl⟩
  · exact leads_opened _ _ hstream _
  · exact leads_opened _ _ hstream _
  · exact leads_opened _ _ hstream _
  · rw [if_neg (hpipe rfl)]
    exact leads_pure ⟨.refl _ _ r, rfl⟩
  · exact absurd rfl hbuffer

/-! ## Pipes -/

/-- Standard output is the one end of a channel in which nothing lies, and the other end is behind a
descriptor. -/
structure Wired (reader channel : Nat) (r : Redirecting) : Prop where
  there : channel < r.host.world.channels.size
  empty : r.host.world.channel channel = {}
  reads : ∃ file < r.host.world.files.size, r.host.descriptors.Holds reader file ∧
    (r.host.world.file file).role = (.channel channel, true, false)
  writes : ∃ file < r.host.world.files.size, r.host.descriptors.Holds 1 file ∧
    (r.host.world.file file).role = (.channel channel, false, true)
  /-- The descriptor is not closed when the streams are put back. -/
  spared : reader ∉ r.snapshot.created

theorem holds_of_proceeds {r' : Redirecting} {streams left : List Nat} {fd file : Nat}
    (h : Proceeds streams left r r') (hlt : fd < r.host.descriptors.next) (hfd : fd ∉ streams)
    (hholds : r.host.descriptors.Holds fd file) : r'.host.descriptors.Holds fd file := by
  refine ⟨h.kept _ hholds.mem hfd, fun e he heq ↦ ?_⟩
  rcases h.entries e he with he | ⟨hstream, -⟩ | ⟨hle, -⟩
  · exact hholds.unique e he heq
  · exact absurd (heq ▸ hstream) hfd
  · exact absurd (heq ▸ hle) (Nat.not_le.mpr hlt)

/-- The wiring of the standard output outlasts what is done to the standard error. -/
theorem Wired.proceeds {r' : Redirecting} {reader channel : Nat} (hwired : Wired reader channel r)
    (horderly : r.host.Orderly) (hreader : 3 ≤ reader) (hinput : r.stage.pipedInput ≠ some reader)
    (h : Proceeds [2] [] r r') : Wired reader channel r' := by
  have hfile {fd file : Nat} {role : Target × Bool × Bool} (hfd : fd ≠ 2)
      (hlt : file < r.host.world.files.size) (hholds : r.host.descriptors.Holds fd file)
      (hrole : (r.host.world.file file).role = role) : ∃ file < r'.host.world.files.size,
        r'.host.descriptors.Holds fd file ∧ (r'.host.world.file file).role = role :=
    ⟨file, Nat.lt_of_lt_of_le hlt h.host.world.files,
      holds_of_proceeds h (horderly.known _ hholds.mem).1 (by simpa using hfd) hholds,
      (h.host.world.role file hlt).trans hrole⟩
  obtain ⟨file, hlt, hholds, hrole⟩ := hwired.reads
  obtain ⟨file', hlt', hholds', hrole'⟩ := hwired.writes
  refine ⟨Nat.lt_of_lt_of_le hwired.there h.host.world.channels, ?_,
    hfile (by omega) hlt hholds hrole, hfile (by decide) hlt' hholds' hrole', fun hmem ↦ ?_⟩
  · rw [h.channel channel hwired.there, hwired.empty]
  · rcases h.created reader hmem with hmem | hmem | ⟨hle, -⟩
    · exact hwired.spared hmem
    · exact hinput hmem
    · exact absurd (horderly.known _ hholds.mem).1 (Nat.not_lt.mpr hle)

/-- A pipe is made, and the standard output becomes the end of it that is written to. -/
theorem proceeds_piped {reader writer : Nat} {k : Host} (hpiped : r.host.Piped reader writer k) :
    Proceeds [1] [reader] r ({ r with host := k }.installed writer 1) := by
  refine proceeds_installed (by decide) hpiped.extends hpiped.world.channel (Or.inr ⟨?_, ?_⟩)
    (fun e he ↦ ?_) (fun e he ↦ ?_) fun _ h ↦ h
  · rw [hpiped.second]
    exact Nat.le_succ _
  · rw [hpiped.second, hpiped.next]
    exact Nat.lt_succ_self _
  · rw [hpiped.table] at he
    rcases List.mem_cons.mp he with rfl | he
    · exact Or.inr ⟨hpiped.second ▸ Nat.le_succ _, Or.inl rfl⟩
    · rcases List.mem_cons.mp he with rfl | he
      · exact Or.inr ⟨Nat.le_of_eq hpiped.first.symm, Or.inr (List.mem_singleton.mpr rfl)⟩
      · exact Or.inl he
  · rw [hpiped.table]
    exact List.mem_cons_of_mem _ (List.mem_cons_of_mem _ he)

theorem wired_of_piped {reader writer : Nat} {k : Host} (hpiped : r.host.Piped reader writer k)
    (horderly : r.host.Orderly)
    (hcreated : ∀ fd ∈ r.snapshot.created, fd < r.host.descriptors.next) :
    Wired reader r.host.world.channels.size ({ r with host := k }.installed writer 1) := by
  obtain ⟨hreader, hwriter⟩ := hpiped.holds horderly
  have htable := k.descriptors.table_call
  have hstandard := horderly.standard
  refine ⟨?_, hpiped.world.empty, ⟨r.host.world.files.size, ?_, ?_, hpiped.world.reader⟩,
    ⟨r.host.world.files.size + 1, ?_, ?_, hpiped.world.writer⟩, fun hmem ↦ ?_⟩
  · exact hpiped.world.channels ▸ Nat.lt_succ_self _
  · exact hpiped.world.files ▸ Nat.lt_add_of_pos_right Nat.two_pos
  · refine (hreader.of_table_eq htable).replace ?_
    rw [hpiped.first]
    omega
  · exact hpiped.world.files ▸ Nat.lt_succ_self _
  · exact Descriptors.holds_replace (hwriter.of_table_eq htable).file?
  · rcases List.mem_append.mp hmem with hmem | hmem
    · exact absurd hpiped.first (Nat.ne_of_lt (hcreated reader hmem))
    · have heq := List.mem_singleton.mp hmem
      rw [hpiped.first, hpiped.second] at heq
      omega

/-! ## All streams -/

/-- What all outputs leave alone but those that go to a buffer. -/
structure Places (r r' : Redirecting) : Prop where
  host : r.host.Extends r'.host
  stage : r'.stage.unfed = r.stage.unfed
  nextInput : ∀ fd, r'.snapshot.nextInput = some fd →
    r.snapshot.nextInput = some fd ∨ fd < r'.host.descriptors.next
  nextBuffer : r'.nextBuffer = r.nextBuffer

theorem Places.trans {r' r'' : Redirecting} (h : Places r r') (h' : Places r' r'') : Places r r'' where
  host := h.host.trans h'.host
  stage := h'.stage.trans h.stage
  nextInput fd hfd := (h'.nextInput fd hfd).elim
    (fun hfd ↦ (h.nextInput fd hfd).imp_right fun hlt ↦ Nat.lt_of_lt_of_le hlt h'.host.next) Or.inr
  nextBuffer := h'.nextBuffer.trans h.nextBuffer

theorem Places.of_proceeds {r' : Redirecting} {streams left : List Nat}
    (h : Proceeds streams left r r') (hbooks : r'.books = r.books) : Places r r' := by
  obtain ⟨hstage, hnextInput, hnextBuffer⟩ := books_eq_iff.mp hbooks
  exact ⟨h.host, hstage, fun fd hfd ↦ Or.inl (hnextInput ▸ hfd), hnextBuffer⟩

/-- A standard stream is made the one end of a new pipe, and then something is done with the
other end. -/
theorem leads_piped_bind (hstream : stream < 3) {f : Nat × Nat → Redirect β}
    {Q : β → Redirecting → Prop}
    (hf : ∀ reader writer k, r.host.Piped reader writer k → ∃ target g,
      f (reader, writer) = (install writer stream target [reader] >>= g) ∧
        Leads (g ()) (({ r with host := k } : Redirecting).installed writer stream) Q) :
    Leads (attempt "pipe" Host.pipe >>= f) r Q := by
  refine (leads_pipe "pipe").bind fun (reader, writer) r' hr' ↦ ?_
  obtain ⟨k, hpiped, rfl⟩ := hr'
  obtain ⟨target, g, hg, hleads⟩ := hf reader writer k hpiped
  rw [hg]
  refine ⟨hpiped.extends, (leads_install writer target _).bind fun _ r' hr' ↦ ?_⟩
  rw [hr']
  exact ⟨extends_replaced k writer hstream, hleads⟩

theorem leads_placeOutput_of_ne {target : Output} (hstream : stream < 3) (hbuffer : target ≠ .buffer) :
    Leads (placeOutput target stream) r fun _ r' ↦ Places r r' := by
  by_cases hpipe : target = .pipe ∧ stream = 1
  · obtain ⟨rfl, rfl⟩ := hpipe
    refine leads_piped_bind (by decide : 1 < 3) fun reader writer k hpiped ↦ ⟨_, _, rfl, ?_⟩
    have hplaced := Places.of_proceeds (proceeds_piped hpiped) rfl
    refine hplaced.trans ⟨.refl _, rfl, ?_, rfl⟩
    intro fd hfd
    cases hfd
    refine Or.inr ?_
    change reader < (k.descriptors.call.2.replace writer 1).next
    rw [Descriptors.next_replace, Descriptors.next_call, hpiped.first, hpiped.next]
    exact Nat.lt_add_of_pos_right Nat.two_pos
  · refine (leads_placeOutput hstream hbuffer fun h h' ↦ hpipe ⟨h, h'⟩).imp ?_
    exact fun _ _ ⟨hproceeds, hbooks⟩ ↦ .of_proceeds hproceeds hbooks

theorem leads_copyStream_places (source : Nat) (hstream : stream < 3) :
    Leads (copyStream source stream) r fun _ r' ↦ Places r r' :=
  (leads_copyStream source).imp fun _ _ hr' ↦
    hr' ▸ .of_proceeds (proceeds_copied r source hstream) rfl

theorem Leads.places {α β : Type} {x : Redirect α} {f : α → Redirect β}
    (hx : Leads x r fun _ r' ↦ Places r r')
    (hf : ∀ a r', Places r r' → Leads (f a) r' fun _ r'' ↦ Places r' r'') :
    Leads (x >>= f) r fun _ r' ↦ Places r r' :=
  hx.bind fun a r' h ↦ ⟨h.host, (hf a r' h).imp fun _ _ h' ↦ h.trans h'⟩

/-- All streams are put in place, and none of the outputs goes to a buffer. -/
theorem leads_placeStreams (hstdout : r.stage.stage.stdout ≠ .buffer)
    (hstderr : r.stage.stage.stderr ≠ .buffer) :
    Leads placeStreams r fun _ r' ↦ Places r r' := by
  have hinput : Leads placeInput r fun _ r' ↦ Places r r' :=
    leads_placeInput.imp fun _ _ ⟨hproceeds, hbooks⟩ ↦ .of_proceeds hproceeds hbooks
  refine hinput.places fun _ r' hplaced ↦ leads_get_bind ?_
  have hstage : r'.stage.stage = r.stage.stage := (congrArg RunningStage.stage hplaced.stage :)
  dsimp only
  rw [hstage]
  split
  · exact leads_pure ⟨.refl _, rfl, fun _ h ↦ Or.inl h, rfl⟩
  · exact (leads_placeOutput_of_ne (by decide) hstderr).places fun _ _ _ ↦
      leads_copyStream_places 2 (by decide)
  · exact (leads_placeOutput_of_ne (by decide) hstdout).places fun _ _ _ ↦
      leads_copyStream_places 1 (by decide)
  · exact (leads_placeOutput_of_ne (by decide) hstdout).places fun _ _ _ ↦
      leads_placeOutput_of_ne (by decide) hstderr

/-- The standard output was put in place, and goes to a buffer: that of the stage, or a new one. -/
structure Buffers (r : Redirecting) (reader channel : Nat) (r' : Redirecting) : Prop where
  proceeds : Proceeds [0, 1, 2] [reader] r r'
  wired : Wired reader channel r'
  fresh : r.host.descriptors.next ≤ reader
  apart : r.host.world.channels.size ≤ channel
  nextInput : r'.snapshot.nextInput = r.snapshot.nextInput
  stage : r'.stage.unfed = { r.stage.unfed with
    stdoutBuffer := some (r.stage.stdoutBuffer.getD r.nextBuffer)
    pendingDrains := r.stage.pendingDrains ++ [(r.stage.stdoutBuffer.getD r.nextBuffer, reader)] }
  nextBuffer : r'.nextBuffer = if r.stage.stdoutBuffer.isSome then r.nextBuffer else r.nextBuffer + 1

theorem leads_bufferOf : Leads (bufferOf 1) r fun key r' ↦
    key = r.stage.stdoutBuffer.getD r.nextBuffer ∧
      r' = { r with
        stage := { r.stage with stdoutBuffer := some key }
        nextBuffer := if r.stage.stdoutBuffer.isSome then r.nextBuffer else r.nextBuffer + 1 } := by
  unfold bufferOf
  refine leads_get_bind ?_
  obtain ⟨host, ⟨stage, record, child, harvester, stdoutBuffer, stderrBuffer, pipedInput, drains⟩,
    snapshot, nextBuffer⟩ := r
  cases stdoutBuffer with
  | none => exact ⟨rfl, rfl⟩
  | some key => exact ⟨rfl, rfl⟩

/-- The standard output goes to a buffer, by way of a new pipe. -/
theorem leads_placeBuffer (horderly : r.host.Orderly)
    (hcreated : ∀ fd ∈ r.snapshot.created, fd < r.host.descriptors.next) :
    Leads (placeOutput .buffer 1) r fun _ r' ↦
      ∃ reader, Buffers r reader r.host.world.channels.size r' := by
  refine leads_piped_bind (by decide : 1 < 3) fun reader writer k hpiped ↦
    ⟨_, _, rfl, leads_bufferOf.bind fun key r' ⟨hkey, hr'⟩ ↦ ?_⟩
  rw [hr']
  refine ⟨.refl _, ?_⟩
  have hproceeds := proceeds_piped hpiped
  have hwired := wired_of_piped hpiped horderly hcreated
  refine ⟨reader, ?_, ?_, Nat.le_of_eq hpiped.first.symm, Nat.le_refl _, rfl, ?_, rfl⟩
  · exact (hproceeds.mono (by decide) (List.Subset.refl _)).trans (.of_eq rfl rfl rfl rfl fun _ h ↦ h)
  · exact ⟨hwired.there, hwired.empty, hwired.reads, hwired.writes, hwired.spared⟩
  · rw [hkey]
    rfl

/-- Before the standard output, the input was put in place. -/
theorem Buffers.after {r₁ r₂ : Redirecting} {reader channel : Nat} (h : Buffers r₁ reader channel r₂)
    (hproceeds : Proceeds [0] [] r r₁) (hbooks : r₁.books = r.books) : Buffers r reader channel r₂ := by
  obtain ⟨hstage, hnextInput, hnextBuffer⟩ := books_eq_iff.mp hbooks
  have hbuffer : r₁.stage.stdoutBuffer = r.stage.stdoutBuffer :=
    (congrArg RunningStage.stdoutBuffer hstage :)
  have hdrains : r₁.stage.pendingDrains = r.stage.pendingDrains :=
    (congrArg RunningStage.pendingDrains hstage :)
  refine ⟨(hproceeds.mono (by decide) (List.nil_subset _)).trans h.proceeds, h.wired,
    Nat.le_trans hproceeds.host.next h.fresh,
    Nat.le_trans hproceeds.host.world.channels h.apart, h.nextInput.trans hnextInput, ?_, ?_⟩
  · rw [h.stage, hstage, hbuffer, hdrains, hnextBuffer]
  · rw [h.nextBuffer, hbuffer, hnextBuffer]

/-- After the standard output, the standard error was put in place. -/
theorem Buffers.before {r₁ r₂ : Redirecting} {reader channel : Nat} (h : Buffers r reader channel r₁)
    (hproceeds : Proceeds [2] [] r₁ r₂) (hbooks : r₂.books = r₁.books) (horderly : r.host.Orderly)
    (hinput : ∀ fd, r.stage.pipedInput = some fd → fd < r.host.descriptors.next) :
    Buffers r reader channel r₂ := by
  obtain ⟨hstage, hnextInput, hnextBuffer⟩ := books_eq_iff.mp hbooks
  refine ⟨h.proceeds.trans (hproceeds.mono (by decide) (List.nil_subset _)),
    h.wired.proceeds (h.proceeds.host.orderly horderly) (Nat.le_trans horderly.standard h.fresh)
      (fun hreader ↦ ?_) hproceeds, h.fresh, h.apart, hnextInput.trans h.nextInput,
    hstage.trans h.stage, hnextBuffer.trans h.nextBuffer⟩
  exact Nat.not_le.mpr (hinput reader (h.proceeds.input reader hreader)) h.fresh

/-- All streams are put in place, and the standard output goes to a buffer. -/
theorem leads_placeStreams_of_buffer (hstdout : r.stage.stage.stdout = .buffer)
    (hstderr : r.stage.stage.stderr ≠ .buffer) (horderly : r.host.Orderly)
    (hinput : ∀ fd, r.stage.pipedInput = some fd → fd < r.host.descriptors.next)
    (hcreated : r.snapshot.created = []) :
    Leads placeStreams r fun _ r' ↦ ∃ reader channel, Buffers r reader channel r' := by
  refine leads_placeInput.bind fun _ r₁ ⟨hproceeds, hbooks⟩ ↦ ⟨hproceeds.host, leads_get_bind ?_⟩
  have hstage : r₁.stage.stage = r.stage.stage :=
    congrArg (fun b : RunningStage × Option Nat × Nat ↦ b.1.stage) hbooks
  have hcreated₁ (fd : Nat) (hfd : fd ∈ r₁.snapshot.created) : fd < r₁.host.descriptors.next := by
    rcases hproceeds.created fd hfd with hfd | hfd | ⟨-, hlt⟩
    · rw [hcreated] at hfd
      cases hfd
    · exact Nat.lt_of_lt_of_le (hinput fd hfd) hproceeds.host.next
    · exact hlt
  have hthen {x : Redirect Unit} (hx : ∀ r : Redirecting,
      Leads x r fun _ r' ↦ Proceeds [2] [] r r' ∧ r'.books = r.books) :
      Leads (placeOutput .buffer 1 >>= fun _ ↦ x) r₁ fun _ r' ↦
        ∃ reader channel, Buffers r reader channel r' := by
    refine (leads_placeBuffer (hproceeds.host.orderly horderly) hcreated₁).bind
      fun _ r₂ ⟨reader, h⟩ ↦ ⟨h.proceeds.host, (hx r₂).imp fun _ _ h' ↦ ?_⟩
    exact ⟨reader, _, (h.after hproceeds hbooks).before h'.1 h'.2 horderly hinput⟩
  dsimp only
  rw [hstage, hstdout]
  split
  case h_3 =>
    exact hthen fun r ↦ (leads_copyStream 1).imp fun _ _ hr' ↦
      hr' ▸ ⟨proceeds_copied r 1 (by decide), rfl⟩
  case h_4 => exact hthen fun r ↦ leads_placeOutput (by decide) hstderr fun _ ↦ by decide
  all_goals
    rename_i hsame _
    cases hsame

/-! ## Redirections as a whole -/

/-- A redirection comes to what placing its streams comes to. If that fails, the streams are put
back. -/
theorem apply_cases (h : Host) (c : Cancellation) (stage : RunningStage) (nextBuffer : Nat)
    (routes : Bool) : ∃ r,
      (∃ e, placeStreams.run.run
          { host := (Snapshot.capture h).2, stage, snapshot := (Snapshot.capture h).1, nextBuffer } =
            (.error e, r) ∧
        apply h c stage nextBuffer routes =
          { result := .error e
            stage := r.stage
            host := r.snapshot.revertStreams r.host
            cancellation := r.snapshot.revertRouting c
            nextBuffer := r.nextBuffer }) ∨
      placeStreams.run.run
          { host := (Snapshot.capture h).2, stage, snapshot := (Snapshot.capture h).1, nextBuffer } =
            (.ok (), r) ∧
        apply h c stage nextBuffer routes =
          { result := .ok { r.snapshot with routing := some c.routed }
            stage := r.stage
            host := r.host
            cancellation := (c.route routes).2
            nextBuffer := r.nextBuffer } := by
  unfold apply
  rcases Snapshot.capture h with ⟨snapshot, k⟩
  dsimp only
  rcases hrun : placeStreams.run.run { host := k, stage, snapshot, nextBuffer } with ⟨e | _, r⟩
  all_goals
    change (placeStreams.run { host := k, stage, snapshot, nextBuffer }).run = _ at hrun
    rw [hrun]
  · exact ⟨r, Or.inl ⟨e, rfl, rfl⟩⟩
  · exact ⟨r, Or.inr ⟨rfl, rfl⟩⟩

end Redirect

end ShellEngine
