import ShellEngine.Machine.Calendar
import ShellEngine.Machine.Mode
import ShellEngine.Machine.Tools.Order

/-!
# Tools on names

The tools that make directories, files and links, take directories away, and set the times of
files.
-/

namespace ShellEngine.Machine.Tools

/-- Asks the file tree, from the current directory. -/
def askTree {α : Type} (f : FileTree → Nat → α) : Doing α :=
  Doing.look fun w ↦ f w.tree w.current.cwd

/-- Changes the file tree, seen from the current directory. -/
def changeTree (f : FileTree → Nat → Except Errno FileTree) : Doing (Except Errno Unit) := do
  let cwd ← Doing.look fun w ↦ w.current.cwd
  Doing.changeTree (f · cwd)

/-- The node at a path. -/
def nodeAt (path : Octets) (follow : Bool) : Doing (Except Errno Nat) :=
  askTree fun t cwd ↦ t.nodeAt cwd path follow

/-- A path without the slashes at its end. -/
def withoutSlashes (path : Octets) : Octets :=
  let short := (path.reverse.dropWhile (· == '/')).reverse
  if short.isEmpty then path.take 1 else short

/-- The last name of a path. -/
def baseName (path : Octets) : Octets :=
  let short := withoutSlashes path
  if short = ['/'] then short else (short.reverse.takeWhile (· != '/')).reverse

/-! ## Directories -/

/-- The paths to the directories above a path and to the path itself, the shortest first. -/
def pathsTo (path : Octets) : List Octets :=
  let parts := FileTree.names path
  let start := if path.head? = some '/' then ['/'] else []
  (List.range parts.length).map fun k ↦
    start ++ (List.intersperse ['/'] (parts.take (k + 1))).flatten

def makeDirectoryOptions : List OptionSpec :=
  [.perhaps "context", { key := "Z", letters := ['Z'] }, .valued "mode" "m", .flag "parents" "p",
   .flag "verbose" "v"]

def makeDirectory (i : Invocation) : Doing Nat :=
  let a := i.arguments makeDirectoryOptions
  i.closing 1 <| i.withArguments a 1 do
    if a.operands.isEmpty then return ← i.misuse "missing operand".toList 1
    let umask := (← Doing.task).umask
    let usual := 0o777 &&& (0o777 ^^^ umask)
    let mode? :=
      match a.value? "mode" with
      | none => some usual
      | some os => directoryMode? umask os
    match mode? with
    | none =>
      i.complain ("invalid mode ".toList ++ i.shown ((a.value? "mode").getD []))
      return 1
    | some mode =>
      let fail (path : Octets) (e : Errno) : Doing Bool := do
        i.failWith ("cannot create directory ".toList ++ i.quoted path) e
        return false
      let make (path : Octets) (mode : Nat) : Doing Bool := do
        match ← changeTree fun t cwd ↦ t.makeDirectoryWith cwd path mode with
        | .ok () =>
          if a.has "verbose" then
            Doing.out (i.name ++ ": created directory ".toList ++ i.quoted path ++ ['\n'])
          return true
        | .error e => fail path e
      let rec makeAll : List Octets → Doing Bool
        | [] => return true
        | path :: rest => do
          match ← nodeAt path true with
          | .error .noEntry =>
            -- a link that leads nowhere is there all the same
            if (← nodeAt path false).toOption.isSome then fail path .exists_
            else if ← make path (if rest.isEmpty then mode else usual) then makeAll rest
            else return false
          | .error e => fail path e
          | .ok n =>
            if ← askTree fun t _ ↦ t.isDirectory n then makeAll rest
            else fail path (if rest.isEmpty then .exists_ else .notDirectory)
      let ok ← forAll (fun path ↦
        let steps := pathsTo path
        if a.has "parents" && !steps.isEmpty then
          makeAll (if FileTree.endsInSlash path then steps else steps.dropLast ++ [path])
        else if a.has "parents" && !path.isEmpty then return true
        else make path mode) a.operands
      return status ok

def removeDirectoryOptions : List OptionSpec :=
  [.flag "ignore-fail-on-non-empty", .flag "parents" "p", { key := "parents", words := ["path"] },
   .flag "verbose" "v"]

/-- The paths of the directories above a path, from below. -/
def pathsAbove : Nat → Octets → List Octets
  | 0, _ => []
  | fuel + 1, path =>
    let rest := (path.reverse.dropWhile (· != '/')).reverse
    let above := (rest.reverse.dropWhile (· == '/')).reverse
    if rest.isEmpty then []
    else if above.isEmpty then [['/']]
    else above :: pathsAbove fuel above

def removeDirectory (i : Invocation) : Doing Nat :=
  let a := i.arguments removeDirectoryOptions
  i.closing 1 <| i.withArguments a 1 do
    if a.operands.isEmpty then return ← i.misuse "missing operand".toList 1
    let remove (what : String) (path : Octets) : Doing (Option Bool) := do
      if a.has "verbose" then
        Doing.out (i.name ++ ": removing directory, ".toList ++ i.quoted path ++ ['\n'])
      match ← changeTree fun t cwd ↦ t.removeDirectory cwd path with
      | .ok () => return some true
      | .error e =>
        if a.has "ignore-fail-on-non-empty" && e = .notEmpty then return none
        let isLink : Bool ←
          if FileTree.endsInSlash path then
            askTree fun t cwd ↦
              match t.nodeAt cwd (withoutSlashes path) false with
              | .ok n => match t.content n with | .link _ => true | _ => false
              | .error _ => false
          else pure false
        if isLink && e = .notDirectory then
          i.complain ("failed to remove ".toList ++ i.quoted path ++
            ": Symbolic link not followed".toList)
        else i.failWith (what.toList ++ i.quoted path) e
        return some false
    let rec removeAbove : List Octets → Doing Bool
      | [] => return true
      | path :: rest => do
        match ← remove "failed to remove directory " path with
        | some true => removeAbove rest
        | some false => return false
        | none => return true
    let ok ← forAll (fun path ↦ do
      match ← remove "failed to remove " path with
      | none => return true
      | some false => return false
      | some true =>
        if a.has "parents" then
          let short := withoutSlashes path
          removeAbove (pathsAbove (short.length + 1) short)
        else return true) a.operands
    return status ok

/-! ## Times -/

def touchOptions : List OptionSpec :=
  [{ key := "a", letters := ['a'] }, .flag "no-create" "c", .valued "date" "d",
   { key := "f", letters := ['f'] }, .flag "no-dereference" "h", { key := "m", letters := ['m'] },
   .valued "reference" "r", { key := "t", letters := ['t'], takes := .value }, .valued "time"]

/-- Which times are to be set. -/
def timeWords : List (String × String) :=
  [("atime", "a"), ("access", "a"), ("use", "a"), ("mtime", "m"), ("modify", "m")]

/-- The times to set, as far as they are given: that of the last look, and that of the last
change. -/
abbrev GivenTimes := Option (Int × Int)

/-- The times that the options of a `touch` give. -/
def givenTimes (i : Invocation) (a : Arguments) : Doing (Except Nat GivenTimes) := do
  let now ← Doing.look World.now
  let wrongDate (os : Octets) : Doing (Except Nat GivenTimes) := do
    i.complain ("invalid date format ".toList ++ i.shown os)
    return .error 1
  let sources := (if a.has "date" || a.has "reference" then 1 else 0) + if a.has "t" then 1 else 0
  -- a row of digits is read where it stands, before the other sources are
  let fromDigits : Option (Option Int) := (a.value? "t").map fun os ↦ Calendar.compact? now os
  if fromDigits = some none then return ← wrongDate ((a.value? "t").getD [])
  if 1 < sources then
    return .error (← i.misuse "cannot specify times from more than one source".toList 1)
  match a.value? "reference", a.value? "date", fromDigits with
  | some path, date?, _ =>
    match ← nodeAt path !(a.has "no-dereference") with
    | .error e =>
      i.failWith ("failed to get attributes of ".toList ++ i.quoted path) e
      return .error 1
    | .ok n =>
      let node ← askTree fun t _ ↦ t.node n
      match date? with
      | none => return .ok (some (node.accessed, node.modified))
      | some os =>
        match Calendar.described? node.accessed os, Calendar.described? node.modified os with
        | some x, some y => return .ok (some (x, y))
        | _, _ => wrongDate os
  | none, some os, _ =>
    match Calendar.described? now os with
    | some time => return .ok (some (time, time))
    | none => wrongDate os
  | none, none, some (some time) => return .ok (some (time, time))
  | none, none, _ => return .ok none

def touch (i : Invocation) : Doing Nat :=
  let a := i.arguments touchOptions
  i.closing 1 <| do
    let word? := a.value? "time"
    let chosen ←
      match word? with
      | none => pure (some "")
      | some word =>
        match wordAmong? timeWords word with
        | .ok letter => pure (some letter)
        | .error ambiguous =>
          let _ ← refuseWord i "--time" timeWords word ambiguous 1
          pure none
    match chosen with
    | none => return 1
    | some letter =>
      i.withArguments a 1 do
        match ← givenTimes i a with
        | .error code => return code
        | .ok given =>
          if a.operands.isEmpty then return ← i.misuse "missing file operand".toList 1
          let onlyAccess := a.has "a" || letter == "a"
          let onlyChange := a.has "m" || letter == "m"
          let follow := !(a.has "no-dereference")
          let noCreate := a.has "no-create"
          let setTimes (n : Nat) : Doing Unit := do
            Doing.alter fun w ↦
              let w := w.stamped
              let (accessed, modified) := given.getD (w.tree.now, w.tree.now)
              { w with tree := w.tree.modifyNode n fun node ↦
                  { node with
                    accessed := if onlyChange && !onlyAccess then node.accessed else accessed
                    modified := if onlyAccess && !onlyChange then node.modified else modified } }
          let one (path : Octets) : Doing Bool := do
            if path = ['-'] then
              let target ← Doing.look fun w ↦
                (w.current.streams.lookup 1).map fun f ↦ (w.file f).target
              match target with
              | some (.node n) =>
                setTimes n
                return true
              | some (.channel _) => return true
              | none =>
                if noCreate then return true
                i.failWith ("setting times of ".toList ++ i.quoted path) .badDescriptor
                return false
            let opened : Except Errno Unit ←
              if noCreate || !follow then pure (.ok ())
              else
                Doing.attempt fun w ↦
                  (w.openPath w.current.toStanding path { writes := true, creates := true }).map
                    fun (_, w) ↦ ((), w)
            match ← nodeAt path follow with
            | .ok n =>
              setTimes n
              return true
            | .error e =>
              match opened with
              | .error .isDirectory | .ok () =>
                if noCreate && e = .noEntry then return true
                i.failWith ("setting times of ".toList ++ i.quoted path) e
              | .error e => i.failWith ("cannot touch ".toList ++ i.quoted path) e
              return false
          return status (← forAll one a.operands)

/-! ## Links -/

def linkOptions : List OptionSpec :=
  [{ key := "b", letters := ['b'] }, .perhaps "backup", .flag "directory" "dF",
   .flag "no-dereference" "n", .flag "no-target-directory" "T", .flag "force" "f",
   .flag "interactive" "i", .valued "suffix" "S", .valued "target-directory" "t",
   .flag "logical" "L", .flag "physical" "P", .flag "relative" "r", .flag "symbolic" "s",
   .flag "verbose" "v"]

/-- How an old file is kept under another name. -/
inductive Backup
  | none
  | simple
  | existing
  | numbered
  deriving DecidableEq

def backupWords : List (String × Backup) :=
  [("none", .none), ("off", .none), ("simple", .simple), ("never", .simple),
   ("existing", .existing), ("nil", .existing), ("numbered", .numbered), ("t", .numbered)]

/-- The settings of a link. -/
structure LinkStyle where
  symbolic : Bool := false
  relative : Bool := false
  logical : Bool := false
  verbose : Bool := false
  force : Bool := false
  asks : Bool := false
  backup : Backup := .none
  suffix : Octets := ['~']

/-- The names of a path with its links resolved; what is not there is taken as it is written. -/
def canonicalNames (t : FileTree) (cwd : Nat) (path : Octets) : List Octets :=
  let start := if path.head? = some '/' then ['/'] else (t.pathOf cwd).getD ['/']
  go (start, true) (FileTree.names path)
where
  /-- The flag tells that the path so far leads somewhere. -/
  go (before : Octets × Bool) : List Octets → List Octets
    | [] => FileTree.names before.1
    | name :: rest =>
      if name = ['.'] then go before rest
      else if name = ['.', '.'] then
        go (FileTree.joinNames (FileTree.names before.1).dropLast, before.2) rest
      else
        let path := if before.1 = ['/'] then '/' :: name else before.1 ++ '/' :: name
        match t.canonical FileTree.root path with
        | .ok path => go (path, true) rest
        | .error _ => go (path, false) rest

/-- The path that leads from a directory to something, both given by their names from the root. -/
def relativePath (from_ target : List Octets) : Octets :=
  let rec common : List Octets → List Octets → Nat
    | a :: as, b :: bs => if a = b then common as bs + 1 else 0
    | _, _ => 0
  let shared := common from_ target
  let parts := List.replicate (from_.length - shared) ['.', '.'] ++ target.drop shared
  if parts.isEmpty then ['.'] else (List.intersperse ['/'] parts).flatten

/-- The path of the directory that holds what a path leads to, as it is written. -/
def directoryPart (path : Octets) : Octets :=
  let short := withoutSlashes path
  let rest := (short.reverse.dropWhile (· != '/')).reverse
  if rest.isEmpty then ['.'] else withoutSlashes rest

/-- The name under which an old file is kept. -/
def backupName (t : FileTree) (cwd : Nat) (s : LinkStyle) (path : Octets) : Octets :=
  let numbers :=
    match (t.resolve cwd (directoryPart path)).map t.content with
    | .ok (.directory entries ..) =>
      let front := baseName path ++ ".~".toList
      entries.filterMap fun (e : Octets × Nat) ↦
        if front.isPrefixOf e.1 && e.1.getLast? = some '~' then
          readDecimal? ((e.1.drop front.length).dropLast)
        else none
    | _ => []
  if s.backup = .numbered || (s.backup = .existing && !numbers.isEmpty) then
    path ++ ".~".toList ++ Octets.ofNat (numbers.foldl max 0 + 1) ++ ['~']
  else path ++ s.suffix

/-- Makes one link. -/
def makeLink (i : Invocation) (s : LinkStyle) (source path : Octets) : Doing Bool := do
  let attempt (source : Octets) : Doing (Except Errno Unit) :=
    if s.symbolic then changeTree fun t cwd ↦ t.makeLink cwd source path
    else changeTree fun t cwd ↦ t.makeName cwd source path s.logical
  let fail (message : Octets) : Doing Bool := do
    i.complain message
    return false
  let first : Except Errno Unit ←
    if s.relative then pure (.error .exists_) else attempt source
  let done (source : Octets) (backup : Option Octets) : Doing Bool := do
    if s.verbose then
      let before := (backup.map fun b ↦ i.quoted b ++ " ~ ".toList).getD []
      let arrow := if s.symbolic then " -> " else " => "
      Doing.out (before ++ i.quoted path ++ arrow.toList ++ i.quoted source ++ ['\n'])
    return true
  match first with
  | .ok () => done source none
  | .error firstError =>
    if !s.symbolic then
      match ← nodeAt source s.logical with
      | .error e =>
        i.failWith ("failed to access ".toList ++ i.quoted source) e
        return false
      | .ok n =>
        if ← askTree fun t _ ↦ t.isDirectory n then
          return ← fail (i.nameOf source ++ ": hard link not allowed for directory".toList)
    let source ←
      if s.relative then
        askTree fun t cwd ↦
          relativePath (canonicalNames t cwd (directoryPart path)) (canonicalNames t cwd source)
      else pure source
    let report (e : Errno) : Doing Bool := do
      let target := i.quoted path
      let whole := target ++ (if s.symbolic then " -> " else " => ").toList ++ i.quoted source
      let text :=
        if s.symbolic then
          "failed to create symbolic link ".toList ++
            if e != .nameTooLong && !source.isEmpty then target else whole
        else
          "failed to create hard link ".toList ++
            if e = .exists_ || e = .noSpace then target else whole
      i.failWith text e
      return false
    let forced := s.force || s.asks || s.backup != .none
    let old : Except Errno Nat ← nodeAt path false
    match forced, old with
    | true, .ok n =>
      if ← askTree fun t _ ↦ t.isDirectory n then
        return ← fail (i.nameOf path ++ ": cannot overwrite directory".toList)
      let same ←
        match ← nodeAt source false with
        | .ok m =>
          let sameName : Bool ← askTree fun t cwd ↦
            match t.place cwd source false, t.place cwd path false with
            | .ok p, .ok q => p.directory == q.directory && p.name == q.name
            | _, _ => false
          pure (m == n && (sameName || (!s.symbolic && s.backup = .none && sameName)))
        | .error _ => pure false
      if same then
        return ← fail (i.quoted source ++ " and ".toList ++ i.quoted path ++
          " are the same file".toList)
      if s.asks then
        Doing.put 2 (i.name ++ ": replace ".toList ++ i.quoted path ++ "? ".toList)
        let answer : Except Errno Octets ← Doing.read 0 8192
        let yes :=
          match answer with
          | .ok (c :: _) => c == 'y' || c == 'Y'
          | _ => false
        if !yes then return false
      let backup ←
        if s.backup != .none then
          let name ← askTree fun t cwd ↦ backupName t cwd s path
          let _ : Except Errno Unit ← changeTree fun t cwd ↦ t.rename cwd path name
          pure (some name)
        else
          let _ : Except Errno Unit ← changeTree fun t cwd ↦ t.unlink cwd path
          pure none
      match ← attempt source with
      | .ok () => done source backup
      | .error e => report e
    | true, .error e =>
      if e != .noEntry then
        i.failWith ("failed to access ".toList ++ i.quoted path) e
        return false
      match ← attempt source with
      | .ok () => done source none
      | .error e => report e
    | false, _ =>
      if s.relative then
        match ← attempt source with
        | .ok () => done source none
        | .error e => report e
      else report firstError

/-- How old files are kept, by the options and the environment. -/
def backupOf (i : Invocation) (a : Arguments) : Except (Octets × Bool) Backup :=
  if !(a.has "b" || a.has "backup" || a.has "suffix") then .ok .none
  else
    match (a.value? "backup").orElse fun _ ↦ i.valueOf? "VERSION_CONTROL" with
    | none => .ok .existing
    | some word =>
      if word.isEmpty then .ok .existing
      else (wordAmong? backupWords word).mapError fun ambiguous ↦ (word, ambiguous)

def link (i : Invocation) : Doing Nat :=
  let a := i.arguments linkOptions
  i.closing 1 <| i.withArguments a 1 do
    match backupOf i a with
    | .error (word, ambiguous) => refuseWord i "backup type" backupWords word ambiguous 1
    | .ok backup =>
      let lastOf (x y : String) : Bool := -- whether the option x comes last of the two
        ((a.options.filter fun o ↦ o.1 == x || o.1 == y).getLast?.map fun o ↦ o.1 == x).getD false
      let s : LinkStyle :=
        { symbolic := a.has "symbolic", relative := a.has "relative"
          logical := lastOf "logical" "physical", verbose := a.has "verbose"
          force := lastOf "force" "interactive", asks := lastOf "interactive" "force"
          backup, suffix := ((a.value? "suffix").orElse fun _ ↦
            i.valueOf? "SIMPLE_BACKUP_SUFFIX").getD ['~'] }
      let operands := a.operands
      let directory? := a.value? "target-directory"
      let whole := a.has "no-target-directory"
      let fail (message : Octets) : Doing Nat := do
        i.complain message
        return 1
      if operands.isEmpty then return ← i.misuse "missing file operand".toList 1
      if s.relative && !s.symbolic then
        return ← fail "cannot do --relative without --symbolic".toList
      if whole then
        if directory?.isSome then
          return ← fail
            "cannot combine --target-directory and --no-target-directory".toList
        match operands with
        | [source, path] => return status (← makeLink i s source path)
        | [source] =>
          return ← i.misuse ("missing destination file operand after ".toList ++ i.quoted source) 1
        | _ => return ← i.misuse ("extra operand ".toList ++ i.quoted (operands.getD 2 [])) 1
      let isDirectory (path : Octets) : Doing Bool := askTree fun t cwd ↦
        if a.has "no-dereference" then
          match t.nodeAt cwd path false with
          | .ok n => t.isDirectory n
          | .error _ => false
        else t.leadsToDirectory cwd path
      let intoDirectory (directory : Octets) (sources : List Octets) : Doing Nat := do
        let rec each (made : List Octets) (ok : Bool) : List Octets → Doing Nat
          | [] => return status ok
          | source :: rest => do
            let base := baseName source
            let base := if base = ['/'] then [] else base
            let path :=
              if directory.getLast? = some '/' || directory.isEmpty then directory ++ base
              else directory ++ '/' :: base
            if made.contains path && s.force && !s.symbolic && s.backup = .none then
              i.complain ("will not overwrite just-created ".toList ++ i.quoted path ++
                " with ".toList ++ i.quoted source)
              each made false rest
            else
              let good ← makeLink i s source path
              each (if good then path :: made else made) (ok && good) rest
        each [] true sources
      match directory?, operands with
      | some directory, _ =>
        if ← isDirectory directory then intoDirectory directory operands
        else
          let e : Errno ← askTree fun t cwd ↦
            match t.resolve cwd directory with
            | .ok _ => .notDirectory
            | .error e => e
          i.failWith ("target directory ".toList ++ i.quoted directory) e
          return 1
      | none, [source] => intoDirectory ['.'] [source]
      | none, operands =>
        let last := operands.getLastD []
        if ← isDirectory last then intoDirectory last operands.dropLast
        else if operands.length = 2 then return status (← makeLink i s (operands.headD []) last)
        else
          let e : Errno ← askTree fun t cwd ↦
            match t.resolve cwd last with
            | .ok _ => .notDirectory
            | .error e => e
          i.failWith ("target ".toList ++ i.quoted last) e
          return 1

end ShellEngine.Machine.Tools
