import ShellEngine.Machine.Host
import ShellEngine.Proofs.Text.Octets

/-!
# Names on the machine

A NUL ends a path on the machine, so that no name has one. A file tree is *tidy* if none of its
names has one, be it the name of a node or on the path that a link holds (`FileTree.Tidy`). Opening
a path without NULs leaves a tree tidy, and so does writing (`World.tidy_openPath`,
`World.tidy_write`). The paths that the machine tells then have no NULs either, of the current
directory or of any other place (`Host.nulFree_of_currentDirectory`,
`Host.nulFree_of_canonicalPath`).
-/

namespace ShellEngine.Machine

/-- None of the names that a node holds has a NUL. -/
def Content.Tidy : Content → Prop
  | .directory entries _ _ => ∀ e ∈ entries, e.1.NulFree
  | .link target => target.NulFree
  | .file _ | .program _ | .device _ => True

namespace FileTree

variable {t t' : FileTree} {cwd dir n : Nat} {path : Octets} {parts : List Octets} {place : Place}

def Tidy (t : FileTree) : Prop := ∀ n, (t.content n).Tidy

theorem tidy_default : (default : Node).content.Tidy := fun _ he ↦ absurd he List.not_mem_nil

theorem tidy_of_nodes (h : ∀ node ∈ t.nodes, node.content.Tidy) : t.Tidy := by
  intro n
  rw [content, node, Array.getD_eq_getD_getElem?]
  cases hn : t.nodes[n]? with
  | none => exact tidy_default
  | some node => exact h node (Array.mem_of_getElem? hn)

theorem tidy_empty : empty.Tidy :=
  tidy_of_nodes fun _ hnode ↦ (List.mem_singleton.mp (Array.mem_toList_iff.mpr hnode)) ▸ tidy_default

namespace Tidy

theorem setContent (h : t.Tidy) (n : Nat) {c : Content} (hc : c.Tidy) : (t.setContent n c).Tidy := by
  intro m
  have hm := h m
  unfold FileTree.setContent modifyNode content node at *
  rw [Array.getD_eq_getD_getElem?] at hm ⊢
  rw [Array.getElem?_modify]
  split
  · cases hnode : t.nodes[m]? with
    | none => exact tidy_default
    | some node => exact hc
  · exact hm

theorem push (h : t.Tidy) (node : Node) (hnode : node.content.Tidy) :
    ({ t with nodes := t.nodes.push node } : FileTree).Tidy := by
  intro m
  have hm := h m
  unfold content FileTree.node at *
  rw [Array.getD_eq_getD_getElem?] at hm ⊢
  rw [Array.getElem?_push]
  split
  · exact hnode
  · exact hm

theorem nulFree_of_lookup (h : t.Tidy) {entries : List (Octets × Nat)} {parent : Nat}
    {removed : Option Octets} (hdir : t.content dir = .directory entries parent removed)
    {e : Octets × Nat} (he : e ∈ entries) : e.1.NulFree := by
  have hdir' := h dir
  rw [hdir] at hdir'
  exact hdir' e he

end Tidy

/-! ## Following paths -/

theorem nulFree_of_mem_names {part : Octets} (h : path.NulFree) (hpart : part ∈ names path) :
    part.NulFree :=
  h.of_subset (Octets.subset_of_mem_splitOn (List.mem_of_mem_filter hpart))

namespace Tidy

/-- A place has a name without NULs. The induction is on the names of the path; `jump` goes on from
each link. -/
theorem nulFree_of_walkTo (h : t.Tidy) {follow : Bool} {jump : Nat → List Octets → Except Errno Place}
    (hjump : ∀ dir parts place, (∀ part ∈ parts, part.NulFree) → jump dir parts = .ok place →
      place.name.NulFree)
    (hparts : ∀ part ∈ parts, part.NulFree) (hwalk : t.walkTo follow jump dir parts = .ok place) :
    place.name.NulFree := by
  induction parts generalizing dir with
  | nil =>
    rw [walkTo] at hwalk
    split at hwalk <;> cases hwalk
    exact Octets.nulFree_nil
  | cons name rest ih =>
    obtain ⟨hname, hrest⟩ := List.forall_mem_cons.mp hparts
    rw [walkTo] at hwalk
    split at hwalk
    · split at hwalk
      · exact ih hrest hwalk
      split at hwalk
      · exact ih hrest hwalk
      split at hwalk
      · cases hwalk
      split at hwalk
      · split at hwalk <;> cases hwalk
        exact hname
      · rename_i n _
        split at hwalk
        · rename_i target htarget
          split at hwalk
          · cases hwalk
            exact hname
          · refine hjump _ _ _ (fun part hpart ↦ ?_) hwalk
            have hlink := h n
            rw [htarget] at hlink
            exact (List.mem_append.mp hpart).elim (nulFree_of_mem_names hlink) (hrest part)
        · split at hwalk
          · cases hwalk
            exact hname
          · exact ih hrest hwalk
    · cases hwalk

theorem nulFree_of_walk (h : t.Tidy) {follow : Bool} {links : Nat}
    (hparts : ∀ part ∈ parts, part.NulFree) (hwalk : t.walk follow links dir parts = .ok place) :
    place.name.NulFree := by
  induction links generalizing dir parts place with
  | zero => exact h.nulFree_of_walkTo (fun _ _ _ _ hjump ↦ by cases hjump) hparts hwalk
  | succ links ih => exact h.nulFree_of_walkTo (fun _ _ _ hparts ↦ ih hparts) hparts hwalk

theorem nulFree_of_reach (h : t.Tidy) {follow : Bool} (hpath : path.NulFree)
    (hreach : t.reach cwd path follow = .ok place) : place.name.NulFree := by
  unfold reach at hreach
  dsimp only [Bind.bind, Except.bind] at hreach
  split at hreach
  · cases hreach
  split at hreach
  · cases hreach
  exact h.nulFree_of_walk (fun _ ↦ nulFree_of_mem_names hpath) hreach

theorem nulFree_of_place (h : t.Tidy) {follow : Bool} (hpath : path.NulFree)
    (hplace : t.place cwd path follow = .ok place) : place.name.NulFree := by
  unfold FileTree.place at hplace
  dsimp only [Bind.bind, Except.bind] at hplace
  split at hplace
  · cases hplace
  rename_i found hfound
  have hname := h.nulFree_of_reach hpath hfound
  split at hplace
  · split at hplace <;> cases hplace
    exact hname
  · cases hplace
    exact hname

/-! ## Paths of directories -/

theorem nulFree_of_nameIn (h : t.Tidy) {name : Octets} (hname : t.nameIn dir n = some name) :
    name.NulFree := by
  unfold nameIn at hname
  split at hname
  · rename_i hdir
    obtain ⟨e, he, rfl⟩ := Option.map_eq_some_iff.mp hname
    exact h.nulFree_of_lookup hdir (List.mem_of_find?_eq_some he)
  · cases hname

theorem nulFree_of_namesOf (h : t.Tidy) {depth : Nat} {below : List Octets}
    (hbelow : ∀ part ∈ below, part.NulFree) (hnames : t.namesOf depth n below = some parts) :
    ∀ part ∈ parts, part.NulFree := by
  induction depth generalizing n below with
  | zero => cases hnames
  | succ depth ih =>
    rw [namesOf] at hnames
    split at hnames
    · cases hnames
      exact hbelow
    · split at hnames
      · obtain ⟨name, hname, hnames⟩ := Option.bind_eq_some_iff.mp hnames
        exact ih (List.forall_mem_cons.mpr ⟨h.nulFree_of_nameIn hname, hbelow⟩) hnames
      · cases hnames

end Tidy

theorem nulFree_joinNames (h : ∀ part ∈ parts, part.NulFree) : (joinNames parts).NulFree := by
  have hslash : Octets.NulFree ['/'] := by decide
  unfold joinNames
  split
  · exact hslash
  · rw [Octets.NulFree, Octets.toBytes, List.map_flatMap]
    intro hzero
    obtain ⟨part, hpart, hzero⟩ := List.mem_flatMap.mp hzero
    exact hslash.append (h part hpart) hzero

namespace Tidy

theorem nulFree_of_pathOf (h : t.Tidy) (hpath : t.pathOf dir = some path) : path.NulFree := by
  obtain ⟨parts, hparts, rfl⟩ := Option.map_eq_some_iff.mp hpath
  exact nulFree_joinNames (h.nulFree_of_namesOf (fun _ hpart ↦ absurd hpart List.not_mem_nil) hparts)

theorem nulFree_of_pathOfPlace (h : t.Tidy) (hname : place.name.NulFree)
    (hpath : t.pathOfPlace place = some path) : path.NulFree := by
  have hbelow (hpath : (t.namesOf (t.nodes.size + 1) place.directory []).map
      (fun parts ↦ joinNames (parts ++ [place.name])) = some path) : path.NulFree := by
    obtain ⟨parts, hparts, rfl⟩ := Option.map_eq_some_iff.mp hpath
    have habove := h.nulFree_of_namesOf (fun _ hpart ↦ absurd hpart List.not_mem_nil) hparts
    refine nulFree_joinNames fun part hpart ↦ ?_
    exact (List.mem_append.mp hpart).elim (habove part) fun hpart ↦
      List.mem_singleton.mp hpart ▸ hname
  unfold pathOfPlace at hpath
  split at hpath
  · split at hpath
    · exact h.nulFree_of_pathOf hpath
    · exact hbelow hpath
  · exact hbelow hpath

theorem nulFree_of_canonical (h : t.Tidy) {found : Octets} (hpath : path.NulFree)
    (hfound : t.canonical cwd path = .ok found) : found.NulFree := by
  unfold canonical at hfound
  dsimp only [Bind.bind, Except.bind] at hfound
  split at hfound
  · cases hfound
  rename_i place hplace
  split at hfound
  · rename_i hnode hof
    cases hfound
    exact h.nulFree_of_pathOfPlace (h.nulFree_of_place hpath hplace) hof
  · cases hfound

/-! ## Files that are made -/

theorem create (h : t.Tidy) {name : Octets} {content : Content} {mode : Nat} (hname : name.NulFree)
    (hcontent : content.Tidy) (hcreate : t.create dir name content mode = .ok (n, t')) : t'.Tidy := by
  have hpushed := h.push ⟨content, mode, t.now, t.now⟩ hcontent
  unfold FileTree.create enter at hcreate
  dsimp only [Bind.bind, Except.bind] at hcreate
  split at hcreate
  · cases hcreate
  rename_i entered
  split at entered
  · rename_i entries parent hdir
    cases entered
    cases hcreate
    refine hpushed.setContent dir fun e he ↦ ?_
    rcases List.mem_append.mp he with he | he
    · exact hpushed.nulFree_of_lookup hdir he
    · exact List.mem_singleton.mp he ▸ hname
  · cases entered

theorem openWith (h : t.Tidy) {o : Opening} (hpath : path.NulFree)
    (hopen : t.openWith cwd path o = .ok (n, t')) : t'.Tidy := by
  unfold FileTree.openWith at hopen
  dsimp only [Bind.bind, Except.bind] at hopen
  split at hopen
  · split at hopen <;> cases hopen
  split at hopen
  · cases hopen
  rename_i found hfound
  split at hopen
  · cases hopen
  · have hempty : (Content.file []).Tidy := trivial
    exact h.create (h.nulFree_of_place hpath hfound) hempty hopen
  · split at hopen
    · cases hopen
    split at hopen
    · cases hopen
    · cases hopen
      split
      · exact h.setContent _ trivial
      · exact h
    · cases hopen
      exact h

end Tidy

end FileTree

/-! ## Files that are open -/

namespace World

variable {w v : World} {f fd : Nat}

theorem tidy_reopen (h : w.tree.Tidy) {m : OpenMode} (hopen : w.reopen f m = .ok (fd, v)) :
    v.tree.Tidy := by
  unfold reopen at hopen
  dsimp only at hopen
  split at hopen
  · cases hopen
    exact h
  split at hopen
  · split at hopen <;> cases hopen
    exact h
  · cases hopen
    dsimp only [openFile]
    split
    · exact h.setContent _ trivial
    · exact h
  · cases hopen
    exact h

theorem tidy_openPath (h : w.tree.Tidy) {s : Standing} {path : Octets} {m : OpenMode}
    (hpath : path.NulFree) (hopen : w.openPath s path m = .ok (f, v)) : v.tree.Tidy := by
  have hstamped : w.stamped.tree.Tidy := h
  have hresolved {found : Nat × FileTree} {r : Except Errno Nat}
      (hfound : r.map (·, w.stamped.tree) = .ok found) : found.2.Tidy := by
    cases r with
    | error e => cases hfound
    | ok n =>
      cases hfound
      exact hstamped
  unfold openPath at hopen
  dsimp only [Bind.bind, Except.bind] at hopen
  split at hopen <;> split at hopen
  case h_1 | h_1 => cases hopen
  all_goals
    rename_i found hfound
    have htree : found.2.Tidy := by
      first
      | exact hstamped.openWith hpath hfound
      | exact hresolved hfound
    -- A descriptor that the path names is opened once more, which may truncate its file.
    split at hopen
    · split at hopen
      · exact tidy_reopen (w := { w.stamped with tree := found.2 }) htree hopen
      · cases hopen
    · cases hopen
    · cases hopen
      exact htree

theorem tidy_write (h : w.tree.Tidy) {os : Octets} (hwrite : w.write f os = .ok v) :
    v.tree.Tidy := by
  unfold write at hwrite
  dsimp only at hwrite
  split at hwrite
  · cases hwrite
  split at hwrite
  · cases hwrite
    exact h
  split at hwrite
  · cases hwrite
    exact FileTree.Tidy.setContent (t := w.stamped.tree) h _ trivial
  · cases hwrite
  · cases hwrite
  · cases hwrite
    exact h

theorem tree_read {count : Nat} {os : Octets} (hread : w.read f count = .ok (os, v)) :
    v.tree = w.tree := by
  unfold read at hread
  dsimp only at hread
  split at hread
  · cases hread
  split at hread
  · cases hread
    rfl
  split at hread <;> cases hread <;> rfl

end World

namespace Host

variable {h k : Host}

theorem nulFree_of_pathBytes {path : String} {os : Octets} (hpath : pathBytes path = .ok os) :
    os.NulFree := by
  unfold pathBytes at hpath
  split at hpath
  · cases hpath
  · rename_i hnul
    cases hpath
    exact Octets.nulFree_ofString (by simpa using hnul)

theorem nulFree_of_currentDirectory (htidy : h.world.tree.Tidy) {path : Octets}
    (hpath : h.currentDirectory = .ok path) : path.NulFree := by
  unfold currentDirectory at hpath
  split at hpath
  · rename_i hpathOf
    cases hpath
    exact htidy.nulFree_of_pathOf hpathOf
  · cases hpath

theorem nulFree_of_canonicalPath (htidy : h.world.tree.Tidy) {path : String} {found : Octets}
    (hfound : h.canonicalPath path = .ok found) : found.NulFree := by
  unfold canonicalPath at hfound
  dsimp only [Bind.bind, Except.bind] at hfound
  split at hfound
  · cases hfound
  rename_i os hos
  cases hcanonical : h.world.tree.canonical h.cwd os with
  | error e =>
    rw [hcanonical] at hfound
    cases hfound
  | ok canonical =>
    rw [hcanonical] at hfound
    cases hfound
    exact htidy.nulFree_of_canonical (nulFree_of_pathBytes hos) hcanonical

theorem tidy_openPath (htidy : h.world.tree.Tidy) {path : Octets} {m : OpenMode}
    (hpath : path.NulFree) : (h.openWith fun w s ↦ w.openPath s path m).2.world.tree.Tidy := by
  unfold openWith
  rcases h.descriptors.call with ⟨_ | e, d⟩
  · dsimp only
    split
    · exact htidy
    · rename_i hopen
      exact World.tidy_openPath htidy hpath hopen
  · exact htidy

theorem tree_pipe (h : Host) : h.pipe.2.world.tree = h.world.tree := by
  unfold pipe
  rcases h.descriptors.call with ⟨_ | e, d⟩ <;> rfl

theorem tidy_write (htidy : h.world.tree.Tidy) {fd : Nat} {os : Octets}
    (hwrite : h.write fd os = .ok k) : k.world.tree.Tidy := by
  unfold write at hwrite
  split at hwrite
  · cases hwrite
    exact htidy
  split at hwrite
  · cases hwrite
  rename_i file _
  split at hwrite
  · cases hwrite
  cases hworld : h.world.write file os with
  | error e =>
    rw [hworld] at hwrite
    cases hwrite
  | ok world =>
    rw [hworld] at hwrite
    cases hwrite
    exact World.tidy_write htidy hworld

end Host

end ShellEngine.Machine
