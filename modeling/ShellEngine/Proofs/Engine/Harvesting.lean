import ShellEngine.Proofs.Engine.Lapse
import ShellEngine.Proofs.Engine.Tracking

/-!
# The books of a harvester

A harvester keeps books in three places: its own tracer, the record that it shares with its stage,
and the child whose code it tells. What of these only the harvester itself changes is its `Charge`.
A harvester is pursued from the start of its root through any notices about its tracees, between
which the rest of the session may do anything to what is not in its charge (`Pursued`); it may take
back that the parameters are wanted, as it does when the stage goes to the background.

Then the books are exact throughout (`exact_of_pursued`). A fault while the parameters are taken
over ends the harvester with its root still traced, so that no code is told and no end is marked.
-/

namespace ShellEngine

/-- What of a session only a harvester itself changes. -/
structure Charge where
  tracer : Tracer
  ended : Bool
  /-- The children that it shares with the stage. -/
  debugged : List Int
  /-- Whether it has marked its end. -/
  tracingEnded : Bool
  /-- The status that it has told of its root. -/
  status : Option StageStatus

/-- The charge of a harvester whose root was just started. -/
def Charge.start (root : Int) : Charge :=
  { tracer := .start root, ended := false, debugged := [], tracingEnded := false, status := none }

namespace Session

/-! ## Harvesters in a session -/

/-- A harvester with the record and the child that it refers to. -/
structure Has (s : Session) (key : Nat) (h : Harvester) (r : StageRecord) (c : Child) : Prop where
  harvester : s.harvesters[key]? = some h
  record : s.records[h.record]? = some r
  child : s.children[h.child]? = some c

def charge? (s : Session) (key : Nat) : Option Charge := do
  let h ← s.harvesters[key]?
  let r ← s.records[h.record]?
  let c ← s.children[h.child]?
  return {
    tracer := h.tracer
    ended := h.ended
    debugged := r.debugged
    tracingEnded := r.tracingEnded
    status := c.fate.bind Fate.status }

def asked (s : Session) (key : Nat) (n : Notice) : List TraceAction :=
  match s.harvesters[key]? with
  | some h => (h.tracer.handle (s.record h.record) n).2.2
  | none => []

/-- The codes that a harvester tells about a notice. -/
def published (s : Session) (key : Nat) (n : Notice) : List Int :=
  (s.asked key n).filterMap TraceAction.code?

/-- Whether the parameters are wanted of the stage of a harvester. -/
def captures (s : Session) (key : Nat) : Bool :=
  match s.harvesters[key]? with
  | some h => (s.record h.record).capture
  | none => false

theorem charge?_eq_some_iff {s : Session} {key : Nat} {x : Charge} :
    s.charge? key = some x ↔ ∃ h r c, s.Has key h r c ∧
      x = { tracer := h.tracer, ended := h.ended, debugged := r.debugged,
            tracingEnded := r.tracingEnded, status := c.fate.bind Fate.status } := by
  simp only [charge?, Option.bind_eq_bind, Option.bind_eq_some_iff, Option.pure_def,
    Option.some.injEq]
  constructor
  · rintro ⟨h, hh, r, hr, c, hc, rfl⟩
    exact ⟨h, r, c, ⟨hh, hr, hc⟩, rfl⟩
  · rintro ⟨h, r, c, ⟨hh, hr, hc⟩, rfl⟩
    exact ⟨h, hh, r, hr, c, hc, rfl⟩

/-- What a notice leaves behind: what the tracer made of it, and the mark and the code that follow.
That the parameters are taken over is all that can happen to the host. -/
structure Noted (s : Session) (key : Nat) (h : Harvester) (r : StageRecord) (c : Child) (n : Notice)
    (h' : Harvester) (r' : StageRecord) (c' : Child) : Prop where
  has : (s.notice key n).Has key h' r' c'
  tracer : ∃ applied, h'.tracer = { (h.tracer.handle r n).1 with applied }
  debugged : r'.debugged = (h.tracer.handle r n).2.1.debugged
  tracingEnded : r'.tracingEnded = (r.tracingEnded || (h.tracer.handle r n).1.isDone)
  status : c'.fate.bind Fate.status
    = ((if n.subject = h.tracer.root then n.code? else none).map .traced).or
      (c.fate.bind Fate.status)
  host : .takeOver ∉ (h.tracer.handle r n).2.2 → (s.notice key n).host = s.host

/-- The session when the tracer has taken note, and nothing was done about it yet. -/
def handled (s : Session) (key : Nat) (h : Harvester) (r : StageRecord) (n : Notice) : Session :=
  { s.modifyRecord h.record (fun _ ↦ (h.tracer.handle r n).2.1) with
    harvesters := s.harvesters.set! key { h with tracer := (h.tracer.handle r n).1 } }

namespace Has

variable {s : Session} {key : Nat} {h : Harvester} {r : StageRecord} {c : Child}

theorem record_eq (hs : s.Has key h r c) : s.record h.record = r := by
  rw [Session.record, Array.getD_eq_getD_getElem?, hs.record, Option.getD_some]

theorem asked_eq (hs : s.Has key h r c) (n : Notice) :
    s.asked key n = (h.tracer.handle r n).2.2 := by
  rw [asked, hs.harvester]
  dsimp only
  rw [hs.record_eq]

theorem captures_eq (hs : s.Has key h r c) : s.captures key = r.capture := by
  rw [captures, hs.harvester]
  dsimp only
  rw [hs.record_eq]

theorem charge?_eq (hs : s.Has key h r c) {root : Int} (htracer : h.tracer = .start root)
    (hended : h.ended = false) (hdebugged : r.debugged = []) (hmark : r.tracingEnded = false)
    (hfate : c.fate = none) : s.charge? key = some (.start root) := by
  rw [charge?_eq_some_iff]
  refine ⟨h, r, c, hs, ?_⟩
  rw [htracer, hended, hdebugged, hmark, hfate]
  rfl

/-! ### Changes of a session -/

theorem set! (hs : s.Has key h r c) {h' : Harvester} (hrecord : h'.record = h.record)
    (hchild : h'.child = h.child) :
    Has { s with harvesters := s.harvesters.set! key h' } key h' r c where
  harvester := by
    obtain ⟨hlt, -⟩ := Array.getElem?_eq_some_iff.mp hs.harvester
    rw [Array.set!_eq_setIfInBounds, Array.getElem?_setIfInBounds_self_of_lt hlt]
  record := hrecord ▸ hs.record
  child := hchild ▸ hs.child

theorem modifyRecord (hs : s.Has key h r c) (f : StageRecord → StageRecord) :
    (s.modifyRecord h.record f).Has key h (f r) c where
  harvester := hs.harvester
  record := by
    rw [Session.modifyRecord, Array.getElem?_modify, if_pos rfl, hs.record, Option.map_some]
  child := hs.child

theorem modifyChild (hs : s.Has key h r c) (f : Child → Child) :
    (s.modifyChild h.child f).Has key h r (f c) where
  harvester := hs.harvester
  record := hs.record
  child := by
    rw [Session.modifyChild, Array.getElem?_modify, if_pos rfl, hs.child, Option.map_some]

theorem mergeSharedAliases (hs : s.Has key h r c) (h' : Harvester) :
    (s.mergeSharedAliases h').Has key h r c ∧ (s.mergeSharedAliases h').host = s.host := by
  obtain ⟨aliases, sharedAliases, hmerge⟩ := s.exists_mergeSharedAliases_eq h'
  rw [hmerge]
  exact ⟨⟨hs.harvester, hs.record, hs.child⟩, rfl⟩

/-! ### The end of a harvester -/

/-- A harvester marks its end exactly when it has nothing left to trace. -/
theorem finishHarvester (hs : s.Has key h r c) (hended : h.ended = false) :
    ∃ h' r', (s.finishHarvester key).Has key h' r' c ∧ h'.tracer = h.tracer ∧
      r'.debugged = r.debugged ∧ r'.tracingEnded = (r.tracingEnded || h.tracer.isDone) ∧
      (s.finishHarvester key).host = s.host := by
  unfold Session.finishHarvester
  rw [hs.harvester]
  dsimp only
  rw [hended, Bool.not_false, Bool.and_true]
  split
  · rename_i hdone
    obtain ⟨hmerged, hhost⟩ := hs.mergeSharedAliases h
    have hmarked := hmerged.modifyRecord fun r ↦ { r with tracingEnded := true }
    exact ⟨{ h with ended := true }, _, hmarked.set! rfl rfl, rfl, rfl, by simp [hdone], hhost⟩
  · rename_i hdone
    exact ⟨h, r, hs, rfl, rfl, by simp [hdone], rfl⟩

theorem loseHarvester (hs : s.Has key h r c) :
    ∃ h' c', (s.loseHarvester key).Has key h' r c' ∧ h'.tracer = h.tracer ∧
      c'.fate.bind Fate.status = none := by
  unfold Session.loseHarvester
  rw [hs.harvester]
  have hlost := hs.modifyChild fun c ↦ { c with fate := some { time := s.now, status := none } }
  exact ⟨{ h with notices := [], ended := true }, _, hlost.set! rfl rfl, rfl, rfl⟩

/-! ### One notice -/

theorem carryOut_takeOver (hs : s.Has key h r c) (h₀ : Harvester) :
    ∃ applied, (s.carryOut key h₀ .takeOver).2.Has key
      { h with tracer := { h.tracer with applied } } r c := by
  unfold Session.carryOut
  dsimp only
  split
  · exact ⟨h.tracer.applied, hs⟩
  · rename_i parameters _
    refine ⟨!parameters.isEmpty, ⟨?_, hs.record, hs.child⟩⟩
    rw [Array.getElem?_modify, if_pos rfl, hs.harvester, Option.map_some]

/-- What carrying out leaves behind. Only taking over the parameters can crash or reach the host. -/
theorem carryOutAll (hs : s.Has key h r c) (h₀ : Harvester) (hchild : h₀.child = h.child)
    (r₀ : StageRecord) (n : Notice) :
    ∃ crash t applied c', s.carryOutAll key h₀ (h₀.tracer.handle r₀ n).2.2 = (crash, t) ∧
      t.Has key { h with tracer := { h.tracer with applied } } r c' ∧
      c'.fate.bind Fate.status
        = ((if n.subject = h₀.tracer.root then n.code? else none).map .traced).or
          (c.fate.bind Fate.status) ∧
      (crash ≠ none → n = .exiting h₀.tracer.root) ∧
      (.takeOver ∉ (h₀.tracer.handle r₀ n).2.2 → crash = none ∧ t.host = s.host) := by
  rcases h₀.tracer.actions_cases r₀ n with ⟨hcode, pid, signal, hactions⟩ |
    ⟨hcode, hactions, hn, -⟩ | ⟨code, hcode, hactions⟩
  · rw [hactions, hcode]
    exact ⟨none, s, h.tracer.applied, c, rfl, hs, by simp, by simp, fun _ ↦ ⟨rfl, rfl⟩⟩
  · obtain ⟨applied, htaken⟩ := hs.carryOut_takeOver h₀
    rw [hactions, hcode]
    have hall : s.carryOutAll key h₀ [.takeOver, .resume h₀.tracer.root none]
        = s.carryOut key h₀ .takeOver := by
      simp only [Session.carryOutAll]
      split
      · rename_i t ht
        rw [ht]
        rfl
      · rename_i t ht
        rw [ht]
    refine ⟨(s.carryOut key h₀ .takeOver).1, _, applied, c, hall, htaken, by simp, ?_, ?_⟩
    · exact fun _ ↦ hn
    · exact fun hnot ↦ absurd List.mem_cons_self hnot
  · rw [hactions, hcode]
    split
    · have htold := hs.modifyChild fun c ↦
        { c with fate := some { time := s.now, status := some (.traced code) } }
      rw [← hchild] at htold
      exact ⟨none, _, h.tracer.applied, _, rfl, htold, rfl, by simp, fun _ ↦ ⟨rfl, rfl⟩⟩
    · exact ⟨none, s, h.tracer.applied, c, rfl, hs, rfl, by simp, fun _ ↦ ⟨rfl, rfl⟩⟩

theorem has_handled (hs : s.Has key h r c) (n : Notice) : (s.handled key h r n).Has key
    { h with tracer := (h.tracer.handle r n).1 } (h.tracer.handle r n).2.1 c :=
  (hs.modifyRecord fun _ ↦ (h.tracer.handle r n).2.1).set! rfl rfl

theorem notice_eq (hs : s.Has key h r c) (hended : h.ended = false) {n : Notice}
    {crash : Option Crash} {t : Session}
    (hall : (s.handled key h r n).carryOutAll key h (h.tracer.handle r n).2.2 = (crash, t)) :
    s.notice key n = if crash.isNone then t.finishHarvester key else t.loseHarvester key := by
  rw [Session.notice, hs.harvester]
  dsimp only
  rw [if_neg (by simp [hended]), hs.record_eq]
  split
  · rename_i u hu
    obtain ⟨rfl, rfl⟩ := Prod.mk.inj (hu.symm.trans hall)
    rfl
  · rename_i u hu
    obtain ⟨rfl, rfl⟩ := Prod.mk.inj (hu.symm.trans hall)
    rfl

theorem notice (hs : s.Has key h r c) (hended : h.ended = false) {n : Notice}
    (hn : h.tracer.Expects n)
    (hstatus : h.tracer.root ∈ h.tracer.tracees → c.fate.bind Fate.status = none) :
    ∃ h' r' c', Noted s key h r c n h' r' c' := by
  obtain ⟨crash, t, applied, c', hall, ht, hcode, hcrash, hhost⟩ :=
    (hs.has_handled n).carryOutAll h rfl r n
  have hnotice := hs.notice_eq hended hall
  cases crash with
  | none =>
    replace hnotice : s.notice key n = t.finishHarvester key := hnotice
    obtain ⟨h', r', hfinished, htracer, hdebugged, hmark, hsame⟩ := ht.finishHarvester hended
    refine ⟨h', r', c', hnotice ▸ hfinished, ⟨applied, htracer⟩, hdebugged, ?_, hcode,
      fun hnot ↦ ?_⟩
    · rw [hmark, Tracer.tracingEnded_handle]
      rfl
    · rw [hnotice, hsame, (hhost hnot).2]
      rfl
  | some fault =>
    replace hnotice : s.notice key n = t.loseHarvester key := hnotice
    -- the root is still traced
    obtain rfl := hcrash (Option.some_ne_none fault)
    have hroot : h.tracer.root ∈ h.tracer.tracees := hn.traced
    obtain ⟨h', c'', hlost, htracer, hnone⟩ := ht.loseHarvester
    refine ⟨h', _, c'', hnotice ▸ hlost, ⟨applied, htracer⟩, rfl, ?_, ?_, fun hnot ↦ ?_⟩
    · have hdone : h.tracer.isDone = false := by
        rw [Tracer.isDone, List.isEmpty_eq_false_iff]
        exact List.ne_nil_of_mem hroot
      change r.tracingEnded = (r.tracingEnded || h.tracer.isDone)
      rw [hdone, Bool.or_false]
    · rw [hnone, hstatus hroot]
      simp [Notice.code?]
    · exact absurd (hhost hnot).1 (Option.some_ne_none fault)

end Has

end Session

/-! ## Harvesters that are pursued -/

/-- A harvester goes from the start of its root through notices about its tracees. The log holds
each of them with the session that it came to. In between, the session may become anything that
leaves the harvester its charge. -/
inductive Pursued (key : Nat) (root : Int) : List (Session × Notice) → Session → Prop
  | begun {s : Session} (h : s.charge? key = some (.start root)) : Pursued key root [] s
  | elsewhere {log : List (Session × Notice)} {s s' : Session} (run : Pursued key root log s)
      (h : s'.charge? key = s.charge? key) : Pursued key root log s'
  | noticed {log : List (Session × Notice)} {s : Session} {x : Charge} {n : Notice}
      (run : Pursued key root log s) (hx : s.charge? key = some x) (hended : x.ended = false)
      (hn : x.tracer.Expects n) : Pursued key root (log ++ [(s, n)]) (s.notice key n)

/-- A root that is started for a stage whose record is fresh has a harvester that is pursued, before
any time passes. -/
theorem Pursued.of_startHarvested {s t : Session} {program : String} {args : List String}
    {record child key : Nat} {r : StageRecord} (hr : s.records[record]? = some r)
    (hdebugged : r.debugged = []) (hmark : r.tracingEnded = false)
    (h : s.startHarvested program args record = (.ok (child, key), t)) :
    ∃ root u, t = u.catchUp ∧ Pursued key root [] u := by
  have hlook : s.lookAtSharedAliases.2.records = s.records := by
    obtain ⟨_, hlook⟩ := s.exists_lookAtSharedAliases_eq
    rw [hlook]
  unfold Session.startHarvested at h
  rcases hbefore : s.lookAtSharedAliases with ⟨before, v⟩
  rw [hbefore] at hlook h
  dsimp -zeta -zetaHave only at hlook h
  cases hprepared : v.host.prepare program args true with
  | error e =>
    rw [hprepared] at h
    cases h
  | ok process =>
    rw [hprepared] at h
    obtain ⟨hkeys, rfl⟩ := Prod.mk.inj h
    obtain ⟨rfl, rfl⟩ := Prod.mk.inj (Except.ok.inj hkeys)
    refine ⟨v.host.world.nextPid, _, rfl, .begun (Session.Has.charge?_eq
      ⟨Array.getElem?_push_size, ?_, Array.getElem?_push_size⟩ rfl rfl
      (r := r.setPid (some v.host.world.nextPid)) hdebugged hmark rfl)⟩
    change (v.records.modify record fun r ↦ r.setPid (some v.host.world.nextPid))[record]? = _
    rw [Array.getElem?_modify, if_pos rfl, hlook, hr, Option.map_some]

/-- What a harvester does about a notice, when it has been told others. -/
structure Settles (key : Nat) (root : Int) (told : List Notice) (s : Session) (n : Notice) :
    Prop where
  /-- A code is told when the root ends, and it is that of the end. -/
  published : s.published key n = codesOf root [n]
  /-- Of all stops only those that tracing brings about are kept from the tracee. -/
  stops : ∀ pid signal, n = .stopped pid signal →
    s.asked key n = [.resume pid none] ∧ Induced root told pid signal ∨
      s.asked key n = [.resume pid (some signal)] ∧ ¬Induced root told pid signal
  /-- The parameters are taken over when the root is about to exit and they are wanted. -/
  parameters : .takeOver ∈ s.asked key n ↔ n = .exiting root ∧ s.captures key = true
  /-- Nothing else reaches the host. -/
  host : .takeOver ∉ s.asked key n → (s.notice key n).host = s.host

/-- Books that are exact after a log of notices. -/
structure Exact (key : Nat) (root : Int) (log : List (Session × Notice)) (x : Charge) : Prop where
  nodup : x.tracer.tracees.Nodup
  debugged : x.debugged = x.tracer.tracees.filter (· != root)
  fresh : ∀ pid ∈ x.tracer.fresh, pid ∈ x.debugged
  /-- No code is told while the root is traced, and one is when it is gone. -/
  codes : (log.flatMap fun m ↦ m.1.published key m.2).length
    = if root ∈ x.tracer.tracees then 0 else 1
  status : x.status = (log.flatMap fun m ↦ m.1.published key m.2).head?.map .traced
  finished : x.tracingEnded = true ↔ x.tracer.tracees = []
  settled : ∀ earlier s n later, log = earlier ++ (s, n) :: later →
    Settles key root (earlier.map Prod.snd) s n

/-- What the books follow from: the tracer keeps track, and the status and the mark say the same. -/
structure Books (root : Int) (told : List Notice) (x : Charge) : Prop where
  tracks : Tracks root told x.tracer x.debugged
  status : x.status = (codesOf root told).head?.map .traced
  finished : x.tracingEnded = true ↔ x.tracer.tracees = []

namespace Books

variable {root : Int} {told : List Notice} {x : Charge}

theorem start (root : Int) : Books root [] (.start root) :=
  ⟨.start root, rfl, by simp [Charge.start, Tracer.start]⟩

theorem codesOf_eq_nil (h : Books root told x) (hroot : root ∈ x.tracer.tracees) :
    codesOf root told = [] := by
  rw [← List.length_eq_zero_iff, h.tracks.codes, if_pos hroot]

theorem status_eq_none (h : Books root told x) (hroot : x.tracer.root ∈ x.tracer.tracees) :
    x.status = none := by
  rw [h.tracks.root_eq] at hroot
  rw [h.status, h.codesOf_eq_nil hroot]
  rfl

section Notice

variable {s : Session} {key : Nat} {n : Notice}

/-- **A notice about a tracee is entered in all books.** -/
theorem notice (h : Books root told x) (hx : s.charge? key = some x) (hended : x.ended = false)
    (hn : x.tracer.Expects n) :
    ∃ x', (s.notice key n).charge? key = some x' ∧ Books root (told ++ [n]) x' := by
  have hcodes := h.codesOf_eq_nil
  have hstatus := h.status_eq_none
  obtain ⟨harvester, r, c, hs, rfl⟩ := Session.charge?_eq_some_iff.mp hx
  obtain ⟨tracks, status, finished⟩ := h
  dsimp only at tracks status finished hended hn hcodes hstatus
  obtain ⟨h', r', c', hs', ⟨applied, htracer⟩, hdebugged, hmark, hcode, -⟩ :=
    hs.notice hended hn hstatus
  refine ⟨_, Session.charge?_eq_some_iff.mpr ⟨h', r', c', hs', rfl⟩, ?_, ?_, ?_⟩
  · rw [htracer, hdebugged]
    exact (tracks.handle hn).applied applied
  · dsimp only
    rw [hcode, status, tracks.root_eq, codesOf_append, codesOf_singleton]
    by_cases hsubject : n.subject = root
    · rw [hcodes (hsubject ▸ hn.traced)]
      cases n.code? <;> simp [hsubject]
    · simp [hsubject]
  · -- there was something to trace, so the end was not marked before
    have hopen : r.tracingEnded = false := by
      rw [← Bool.not_eq_true, finished]
      exact List.ne_nil_of_mem hn.traced
    dsimp only
    rw [hmark, hopen, Bool.false_or, htracer]
    exact List.isEmpty_iff

theorem settles (h : Books root told x) (hx : s.charge? key = some x) (hended : x.ended = false)
    (hn : x.tracer.Expects n) : Settles key root told s n := by
  have hstatus := h.status_eq_none
  have hroot := h.tracks.root_eq
  have hstopped := h.tracks.stopped_cases
  obtain ⟨harvester, r, c, hs, rfl⟩ := Session.charge?_eq_some_iff.mp hx
  obtain ⟨h', r', c', hnoted⟩ := hs.notice hended hn hstatus
  constructor
  · rw [Session.published, hs.asked_eq, Tracer.filterMap_code?, hroot]
  · rintro pid signal rfl
    rw [hs.asked_eq]
    exact hstopped r hn.traced signal
  · rw [hs.asked_eq, hs.captures_eq, ← hroot]
    exact Tracer.takeOver_mem_iff
  · rw [hs.asked_eq]
    exact hnoted.host

end Notice

end Books

/-! ## Runs -/

namespace Session

/-- What has come to a harvester by now. -/
def due (s : Session) (key : Nat) : List Notice :=
  match s.harvesters[key]? with
  | some h => (h.notices.filter (·.1 ≤ s.now)).map Prod.snd
  | none => []

/-- The session before the harvester takes note of what has come. -/
def taken (s : Session) (key : Nat) : Session :=
  match s.harvesters[key]? with
  | some h =>
    { s with harvesters :=
        s.harvesters.set! key { h with notices := h.notices.filter (s.now < ·.1) } }
  | none => s

theorem runHarvester_eq (s : Session) (key : Nat) :
    s.runHarvester key = (s.due key).foldl (fun s n ↦ s.notice key n) (s.taken key) := by
  unfold runHarvester due taken
  cases s.harvesters[key]? with
  | none => rfl
  | some h =>
    have hlater : h.notices.filter (not ∘ fun n ↦ decide (n.1 ≤ s.now))
        = h.notices.filter fun n ↦ s.now < n.1 := by
      refine List.filter_congr fun n _ ↦ ?_
      rw [Function.comp_apply, ← decide_not, decide_eq_decide, Nat.not_le]
    dsimp only
    rw [List.partition_eq_filter_filter, List.foldl_map, ← hlater]

theorem charge?_taken (s : Session) (key : Nat) : (s.taken key).charge? key = s.charge? key := by
  unfold taken
  split
  · rename_i h hh
    obtain ⟨hlt, -⟩ := Array.getElem?_eq_some_iff.mp hh
    simp only [charge?, Array.set!_eq_setIfInBounds, hh,
      Array.getElem?_setIfInBounds_self_of_lt hlt]
    rfl
  · rfl

theorem foldl_notice_of_ended {s : Session} {key : Nat} {x : Charge} (hx : s.charge? key = some x)
    (hended : x.ended = true) (ns : List Notice) :
    ns.foldl (fun s n ↦ s.notice key n) s = s := by
  obtain ⟨h, r, c, hs, rfl⟩ := charge?_eq_some_iff.mp hx
  refine List.foldl_fixed' (fun n ↦ ?_) ns
  rw [notice, hs.harvester]
  exact if_pos hended

/-- Notices that come in turn, each of them expected unless the harvester has ended by then. -/
def ExpectsAll (key : Nat) : Session → List Notice → Prop
  | _, [] => True
  | s, n :: ns =>
    (∀ x, s.charge? key = some x → x.ended = false → x.tracer.Expects n) ∧
      ExpectsAll key (s.notice key n) ns

end Session

namespace Pursued

variable {key : Nat} {root : Int} {log : List (Session × Notice)} {s : Session}

/-- The harvester is there throughout, with books that follow from what it was told. -/
theorem books (run : Pursued key root log s) :
    ∃ x, s.charge? key = some x ∧ Books root (log.map Prod.snd) x := by
  induction run with
  | begun h => exact ⟨_, h, .start root⟩
  | elsewhere run h ih =>
    obtain ⟨x, hx, hbooks⟩ := ih
    exact ⟨x, h.trans hx, hbooks⟩
  | @noticed log s x n run hx hended hn ih =>
    obtain ⟨x', hx', hbooks⟩ := ih
    obtain rfl : x = x' := Option.some.inj (hx.symm.trans hx')
    rw [List.map_append]
    exact hbooks.notice hx hended hn

theorem settles (run : Pursued key root log s) {earlier later : List (Session × Notice)}
    {t : Session} {n : Notice} (hlog : log = earlier ++ (t, n) :: later) :
    Settles key root (earlier.map Prod.snd) t n := by
  induction run generalizing later with
  | begun h => simp at hlog
  | elsewhere run h ih => exact ih hlog
  | @noticed log s x m run hx hended hn ih =>
    rcases concat_eq_append_cons_iff.mp hlog with ⟨rfl, hlast, rfl⟩ | ⟨between, rfl, rfl⟩
    · obtain ⟨rfl, rfl⟩ := Prod.mk.inj hlast
      obtain ⟨x', hx', hbooks⟩ := run.books
      obtain rfl : x = x' := Option.some.inj (hx.symm.trans hx')
      exact hbooks.settles hx hended hn
    · exact ih rfl

theorem flatMap_published (run : Pursued key root log s) :
    (log.flatMap fun m ↦ m.1.published key m.2) = codesOf root (log.map Prod.snd) := by
  rw [codesOf_eq_flatMap, List.flatMap_map]
  refine List.flatMap_congr fun m hm ↦ ?_
  obtain ⟨earlier, later, hlog⟩ := List.append_of_mem hm
  exact (run.settles hlog).published

/-- A run goes on with notices that come in turn, up to one that ends the harvester. -/
theorem foldl_notice (run : Pursued key root log s) {ns : List Notice}
    (hns : s.ExpectsAll key ns) :
    ∃ more, more.map Prod.snd <+: ns ∧
      Pursued key root (log ++ more) (ns.foldl (fun s n ↦ s.notice key n) s) := by
  induction ns generalizing log s with
  | nil => exact ⟨[], List.prefix_rfl, by rwa [List.append_nil]⟩
  | cons n ns ih =>
    obtain ⟨hn, hns⟩ := hns
    obtain ⟨x, hx, -⟩ := run.books
    by_cases hended : x.ended = true
    · rw [Session.foldl_notice_of_ended hx hended]
      exact ⟨[], List.nil_prefix, by rwa [List.append_nil]⟩
    · rw [Bool.not_eq_true] at hended
      obtain ⟨more, hmore, hrun⟩ := ih (run.noticed hx hended (hn x hx hended)) hns
      refine ⟨(s, n) :: more, ?_, ?_⟩
      · rw [List.map_cons]
        exact (List.prefix_cons_inj n).mpr hmore
      · rwa [List.append_assoc, List.singleton_append] at hrun

/-- The loop of a harvester goes on with a run: it takes note of what has come by now. -/
theorem runHarvester (run : Pursued key root log s)
    (hns : (s.taken key).ExpectsAll key (s.due key)) :
    ∃ more, more.map Prod.snd <+: s.due key ∧
      Pursued key root (log ++ more) (s.runHarvester key) := by
  rw [s.runHarvester_eq key]
  exact (run.elsewhere (s.charge?_taken key)).foldl_notice hns

end Pursued

/-- **The books of a harvester are exact** along every run from the start of its root. -/
theorem exact_of_pursued {key : Nat} {root : Int} {log : List (Session × Notice)} {s : Session}
    (run : Pursued key root log s) :
    ∃ x, s.charge? key = some x ∧ Exact key root log x := by
  obtain ⟨x, hx, tracks, status, finished⟩ := run.books
  have hpublished := run.flatMap_published
  refine ⟨x, hx, tracks.nodup, tracks.debugged_eq, tracks.fresh_subset, ?_, ?_, finished, ?_⟩
  · rw [hpublished, tracks.codes]
  · rw [hpublished, status]
  · exact fun earlier t n later hlog ↦ run.settles hlog

/-- A session with a harvester whose root was just started. -/
def watchful : Session where
  settings := {}
  host :=
    { world := { tree := .empty }
      cwd := Machine.FileTree.root
      descriptors := { table := [] } }
  children := #[{ pid := 7, traced := true }]
  harvesters :=
    #[{ record := 0, child := 0, tracer := .start 7, notices := [], block := [], directory := [],
        image := [], aliasesBefore := none }]
  records := #[{}]

/-- The root forks and exits, and what it leaves behind is still traced. -/
theorem exact_of_pursued_watchful :
    ∃ log s, Pursued 0 7 log s ∧ log.map Prod.snd
        = [.stopped 7 5, .forked 7 (some 8), .stopped 8 19, .exited 7 3] ∧
      ∃ x, s.charge? 0 = some x ∧ x.debugged = [8] ∧ x.status = some (.traced 3) ∧
        Exact 0 7 log x := by
  have hquiet {t : Tracer} {n : Notice} (htraced : n.subject ∈ t.tracees)
      (hfork : ∀ parent child, n ≠ .forked parent (some child)) : t.Expects n :=
    ⟨htraced, fun parent child hn ↦ absurd hn (hfork parent child)⟩
  have hbegun : Pursued 0 7 [] watchful := .begun rfl
  have hstarted := hbegun.noticed (n := .stopped 7 5) rfl rfl (hquiet (by decide) (by simp))
  have hforked := hstarted.noticed (n := .forked 7 (some 8)) rfl rfl ⟨by decide, by simp; decide⟩
  have hstopped := hforked.noticed (n := .stopped 8 19) rfl rfl (hquiet (by decide) (by simp))
  have hexited := hstopped.noticed (n := .exited 7 3) rfl rfl (hquiet (by decide) (by simp))
  obtain ⟨x, hx, hexact⟩ := exact_of_pursued hexited
  obtain rfl := Option.some.inj hx
  exact ⟨_, _, hexited, rfl, _, hx, rfl, rfl, hexact⟩

end ShellEngine
