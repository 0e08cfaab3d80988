import Anneal.Shell.Utility

/-!
# Programs that work on files

Making, copying, moving, removing and listing files, directories and symbolic links.
-/

namespace Anneal.Shell.Utilities

open Anneal.Text (Bytes)
open Utility

inductive Thing where
  | link (place : Place) (target : String)
  | directory (place : Place)
  | file (place : Place) (content : Bytes) (executable : Bool)

def Thing.place : Thing → Place
  | .link p _ => p
  | .directory p => p
  | .file p _ _ => p

def Thing.ofStat : Except OsError (Place × Node) → Except OsError Thing
  | .ok (p, .directory) => .ok (.directory p)
  | .ok (p, .file content executable) => .ok (.file p content executable)
  | .error e => .error e

def reached (s : State) (path : String) : Except OsError Thing :=
  Thing.ofStat (s.stat path)

def thing (s : State) (path : String) : Except OsError Thing :=
  match if path.endsWith "/" then none else s.link? path with
  | some (p, target) => .ok (.link p target)
  | none => reached s path

def freePlace (s : State) (path : String) : Except OsError Place :=
  match s.follow path with
  | .error e => .error e
  | .ok path => match s.disk.locate path with
    | .error e => .error e
    | .ok t => .ok t.place

def lastName (path : String) : String :=
  match (Disk.components path).getLast? with
  | some name => name
  | none => if path.isEmpty then "" else "/"

def inside (dir name : String) : String :=
  if dir.endsWith "/" then dir ++ name else s!"{dir}/{name}"

def eraseAll (s : State) (p : Place) : State :=
  { s with
    disk := { s.disk with nodes := s.disk.nodes.filter fun e => !p.isPrefixOf e.1 }
    links := s.links.filter fun e => !p.isPrefixOf e.1 }

def relocate (source target : Place) (s : State) : State :=
  let moved (p : Place) : Place :=
    if source.isPrefixOf p then target ++ p.drop source.length else p
  { s with
    disk := { s.disk with nodes := s.disk.nodes.map fun e => (moved e.1, e.2) }
    links := s.links.map fun e => (moved e.1, e.2) }

def setLink (p : Place) (target : String) (s : State) : State :=
  { s with links := (p, target) :: s.links.filter fun e => e.1 ≠ p }

inductive Transfer where
  | single (source target : String)
  | many (sources : List String) (dir : String)

def transfer (o : Options) (s : State) : Except State Transfer :=
  match o.value? 't' with
  | some dir => if o.operands.isEmpty then .error (misused s 1 "missing file operand")
      else .ok (.many o.operands dir)
  | none => match o.operands with
    | [] => .error (misused s 1 "missing file operand")
    | [source] =>
      .error (misused s 1 s!"missing destination file operand after {inQuotes source}")
    | [source, target] => .ok (match reached s target with
        | .ok (.directory _) => if o.has 'T' then .single source target else .many [source] target
        | _ => .single source target)
    | words =>
      let target := words.getLastD ""
      match reached s target with
      | .ok (.directory _) => .ok (.many words.dropLast target)
      | .ok _ => .error (fail s 1 s!"target {inQuotes target}: Not a directory")
      | .error e => .error (fail s 1 s!"target {inQuotes target}: {State.reason e}")

def overPairs (o : Options) (step : String → String → State → State) (s : State) : State :=
  match transfer o s with
  | .error s => s
  | .ok (.single source target) => step source target (s.withStatus 0)
  | .ok (.many sources dir) =>
    sources.foldl (fun s source => step source (inside dir (lastName source)) s) (s.withStatus 0)

def report (o : Options) (text : String) (s : State) : State :=
  if o.has 'v' then s.print (text ++ "\n") else s

def creationReason (path : String) (e : OsError) : String :=
  if path.endsWith "/" && e = .isDirectory then "Not a directory" else State.reason e

def copyThing (o : Options) : Nat → String → String → State → State
  | 0, _, _, s => s
  | depth + 1, source, target, s =>
    let deep := o.has 'r' || o.has 'R' || o.has 'a'
    let keepLinks := (deep || o.has 'P' || o.has 'd') && !o.has 'L'
    let arrow := s!"{inQuotes source} -> {inQuotes target}"
    match if keepLinks then thing s source else reached s source with
    | .error e => failing s s!"cannot stat {inQuotes source}" e
    | .ok (.link _ text) => match freePlace s target with
      | .error e => failing s s!"cannot create symbolic link {inQuotes target}" e
      | .ok p => report o arrow (setLink p text s)
    | .ok (.directory p) =>
      if !deep then fail s 1 s!"-r not specified; omitting directory {inQuotes source}"
      else
        let made : Except State State := match reached s target with
          | .ok (.directory _) => .ok s
          | .ok _ => .error (fail s 1
              s!"cannot overwrite non-directory {inQuotes target} with directory {inQuotes source}")
          | .error _ => match freePlace s target with
            | .error e => .error (failing s s!"cannot create directory {inQuotes target}" e)
            | .ok q =>
              if p.isPrefixOf q then .error (fail s 1
                s!"cannot copy a directory, {inQuotes source}, into itself, {inQuotes target}")
              else .ok (report o arrow { s with disk := s.disk.set q .directory })
        match made with
        | .error s => s
        | .ok s => (s.names p).foldl (fun s name =>
            copyThing o depth (inside source name) (inside target name) s) s
    | .ok (.file p content executable) =>
      let known := (reached s target).isOk
      match reached s target with
      | .ok (.directory _) =>
        fail s 1 s!"cannot overwrite directory {inQuotes target} with non-directory"
      | other =>
        let same : Bool := match other with
          | .ok t => t.place == p
          | .error _ => false
        if same then
          fail s 1 s!"{inQuotes source} and {inQuotes target} are the same file"
        else if o.has 'n' && known then s
        else match s.putFile target fun _ => content with
          | (.error e, s) =>
            fail s 1 s!"cannot create regular file {inQuotes target}: {creationReason target e}"
          | (.ok (), s) =>
            let s := if known then s else match s.follow target with
              | .ok path => { s with disk := (s.disk.setExecutable path executable).2 }
              | .error _ => s
            report o arrow s

def copyDepth : Nat := 100

def cp : Utility := withOptions ⟨"abdfHilLnpPrRsTuvx".toList, "tS".toList,
    [("recursive", 'r'), ("force", 'f'), ("verbose", 'v'), ("archive", 'a'), ("no-clobber", 'n'),
     ("target-directory", 't'), ("no-target-directory", 'T')], true⟩ 1 fun o s =>
  overPairs o (copyThing o copyDepth) s

def mv : Utility := withOptions ⟨"bfinTuvZ".toList, "tS".toList,
    [("force", 'f'), ("verbose", 'v'), ("no-clobber", 'n'), ("target-directory", 't'),
     ("no-target-directory", 'T')], true⟩ 1 fun o s =>
  overPairs o (fun source target s =>
    match thing s source with
    | .error e => failing s s!"cannot stat {inQuotes source}" e
    | .ok x =>
      let isDir := match x with
        | .directory _ => true
        | _ => false
      let move (s : State) : State := match freePlace s target with
        | .error e => failing s s!"cannot move {inQuotes source} to {inQuotes target}" e
        | .ok q =>
          if target.endsWith "/" && !isDir then
            fail s 1 s!"cannot move {inQuotes source} to {inQuotes target}: Not a directory"
          else if isDir && x.place.isPrefixOf q then fail s 1
            s!"cannot move {inQuotes source} to a subdirectory of itself, {inQuotes target}"
          else report o s!"renamed {inQuotes source} -> {inQuotes target}"
            (relocate x.place q (eraseAll s q))
      match thing s target with
      | .error _ => move s
      | .ok y =>
        if x.place = y.place then
          fail s 1 s!"{inQuotes source} and {inQuotes target} are the same file"
        else if o.has 'n' then s
        else match y with
          | .directory q =>
            if !isDir then
              fail s 1 s!"cannot overwrite directory {inQuotes target} with non-directory"
            else if x.place.isPrefixOf q then move s
            else if (s.names q).isEmpty then move s
            else fail s 1 s!"cannot overwrite {inQuotes target}: Directory not empty"
          | .link p _ => if isDir then fail s 1
                s!"cannot overwrite non-directory {inQuotes target} with directory {inQuotes source}"
              else report o s!"renamed {inQuotes source} -> {inQuotes target}"
                (relocate x.place p (eraseAll s p))
          | .file _ _ _ => if isDir then fail s 1
                s!"cannot overwrite non-directory {inQuotes target} with directory {inQuotes source}"
              else move s) s

def linkTo (o : Options) (source target : String) (s : State) : State :=
  let soft := o.has 's'
  let kind := if soft then "symbolic" else "hard"
  let arrow := s!"{inQuotes target} -> {inQuotes source}"
  let content : Except State (Option Thing) :=
    if soft then .ok none
    else match reached s source with
      | .error e => .error (failing s s!"failed to access {inQuotes source}" e)
      | .ok (.directory _) =>
        .error (fail s 1 s!"{shown source}: hard link not allowed for directory")
      | .ok x => .ok (some x)
  match content with
  | .error s => s
  | .ok content =>
    let failure (reason : String) : State :=
      fail s 1 s!"failed to create {kind} link {inQuotes target}: {reason}"
    match s.ownPlace? target with
    | none => failure "No such file or directory"
    | some p =>
      let known := (thing s target).isOk
      if known && !o.has 'f' then failure "File exists"
      else
        let s := eraseAll s p
        let s := match content with
          | some (.file _ bytes executable) =>
            { s with disk := s.disk.set p (.file bytes executable) }
          | _ => setLink p source s
        report o arrow s

def ln : Utility := withOptions ⟨"bfinrsTvLP".toList, "tS".toList,
    [("symbolic", 's'), ("force", 'f'), ("verbose", 'v'), ("no-dereference", 'n'),
     ("target-directory", 't'), ("no-target-directory", 'T')], true⟩ 1 fun o s =>
  let isDir (path : String) : Bool := match if o.has 'n' then thing s path else reached s path with
    | .ok (.directory _) => true
    | _ => false
  let many (sources : List String) (dir : String) : State :=
    sources.foldl (fun s source => linkTo o source (inside dir (lastName source)) s)
      (s.withStatus 0)
  match o.value? 't' with
  | some dir => many o.operands dir
  | none => match o.operands with
    | [] => misused s 1 "missing file operand"
    | [source] => many [source] "."
    | [source, target] =>
      if isDir target && !o.has 'T' then many [source] target
      else linkTo o source target (s.withStatus 0)
    | words =>
      let target := words.getLastD ""
      if isDir target then many words.dropLast target
      else match reached s target with
        | .ok _ => fail s 1 s!"target {inQuotes target}: Not a directory"
        | .error e => fail s 1 s!"target {inQuotes target}: {State.reason e}"

def chain (path : String) : List String :=
  let start := if path.startsWith "/" then "/" else ""
  let names := Disk.components path
  (List.range names.length).map fun n => start ++ Text.join "/" (names.take (n + 1))

def makeDir (o : Options) (path : String) (s : State) : Except OsError State :=
  match s.follow path with
  | .error e => .error e
  | .ok real => match s.disk.makeDirNow real with
    | (.ok (), d) => .ok (report o s!"mkdir: created directory {inQuotes path}" { s with disk := d })
    | (.error e, _) => .error e

def makeMissing (o : Options) : List String → State → State
  | [], s => s
  | path :: rest, s =>
    match reached s path with
    | .ok (.directory _) => makeMissing o rest s
    | .ok _ => failing s s!"cannot create directory {cited path}"
        (if rest.isEmpty then .exists else .notDirectory)
    | .error _ => match makeDir o path s with
      | .ok s => makeMissing o rest s
      | .error e => failing s s!"cannot create directory {cited path}" e

def mkdir : Utility := withOptions ⟨"pvZ".toList, "m".toList,
    [("parents", 'p'), ("verbose", 'v'), ("mode", 'm')], true⟩ 1 fun o s =>
  if o.operands.isEmpty then misused s 1 "missing operand"
  else o.operands.foldl (fun s path =>
    if o.has 'p' && !path.isEmpty then makeMissing o (chain path) s
    else match makeDir o path s with
      | .ok s => s
      | .error e => failing s s!"cannot create directory {cited path}" e) (s.withStatus 0)

def removeTree (o : Options) : Nat → String → Place → State → State
  | 0, _, _, s => s
  | depth + 1, path, p, s =>
    let s := (s.names p).foldl (fun s name =>
      let path := inside path name
      let q := p ++ [name]
      if s.disk.isDirectory q && (s.links.lookup q).isNone then removeTree o depth path q s
      else report o s!"removed {inQuotes path}" (eraseAll s q)) s
    report o s!"removed directory {inQuotes path}" (eraseAll s p)

def rm : Utility := withOptions ⟨"dfiIrRv".toList, [],
    [("recursive", 'r'), ("force", 'f'), ("verbose", 'v'), ("dir", 'd')], true⟩ 1 fun o s =>
  let deep := o.has 'r' || o.has 'R'
  if o.operands.isEmpty then
    if o.has 'f' then s.withStatus 0 else misused s 1 "missing operand"
  else o.operands.foldl (fun s path =>
    let failure (reason : String) : State :=
      fail s 1 s!"cannot remove {inQuotes path}: {reason}"
    match thing s path with
    | .error e =>
      if o.has 'f' && (e = .notFound || e = .notDirectory) then s else failure (State.reason e)
    | .ok (.directory p) =>
      if deep && [".", ".."].contains (lastName path) then
        fail s 1 s!"refusing to remove '.' or '..' directory: skipping {inQuotes path}"
      else if deep && p.isEmpty then
        (fail s 1 "it is dangerous to operate recursively on '/'").warn
          s!"{s.name}: use --no-preserve-root to override this failsafe"
      else if deep then removeTree o copyDepth path p s
      else if o.has 'd' then
        if (s.names p).isEmpty then
          report o s!"removed directory {inQuotes path}" { s with disk := s.disk.erase p }
        else failure "Directory not empty"
      else failure "Is a directory"
    | .ok (.link p _) => report o s!"removed {inQuotes path}"
        { s with links := s.links.filter fun e => e.1 ≠ p }
    | .ok (.file p _ _) => report o s!"removed {inQuotes path}" { s with disk := s.disk.erase p })
    (s.withStatus 0)

def touch : Utility := withOptions ⟨"acfhm".toList, "drt".toList, [("no-create", 'c')], true⟩ 1
  fun o s =>
    if o.operands.isEmpty then misused s 1 "missing file operand"
    else o.operands.foldl (fun s path =>
      if (reached s path).isOk || path = "-" then s
      else if o.has 'c' then s
      else match s.putFile path id with
        | (.ok (), s) => s
        | (.error .isDirectory, s) =>
          fail s 1 s!"setting times of {inQuotes path}: No such file or directory"
        | (.error e, s) => failing s s!"cannot touch {inQuotes path}" e) (s.withStatus 0)

def clauseExecutes? (executable : Bool) (clause : List Char) : Option Bool :=
  let who := clause.takeWhile fun c => ['u', 'g', 'o', 'a'].contains c
  let owner := who.isEmpty || who.contains 'u' || who.contains 'a'
  let rec steps : Nat → Bool → List Char → Option Bool
    | 0, now, _ => some now
    | _ + 1, now, [] => some now
    | fuel + 1, now, op :: rest =>
      if !(['+', '-', '='].contains op) then none
      else
        let rights := rest.takeWhile fun c => ['r', 'w', 'x', 'X', 's', 't', 'u', 'g', 'o'].contains c
        let named := rights.contains 'x' || (rights.contains 'X' && now)
        let next := if !owner then now
          else if op = '=' then named
          else if named then op = '+' else now
        steps fuel next (rest.drop rights.length)
  match clause.drop who.length with
  | [] => none
  | ops => steps (ops.length + 1) executable ops

def executes? (mode : String) (executable : Bool) : Option Bool :=
  let cs := mode.toList
  if !cs.isEmpty && cs.all Decimal.isDigit then
    if cs.any fun c => '8' ≤ c then none
    else
      let n := Nat.ofDigitChars 8 cs 0
      if 4096 ≤ n then none else some (n / 64 % 2 = 1)
  else (Text.splitWhere (· == ',') cs).foldl
    (fun acc clause => acc.bind fun now => clauseExecutes? now clause) (some executable)

def removesRights (word : String) : Bool :=
  match word.toList with
  | '-' :: c :: cs => (c :: cs).all fun c => ['r', 'w', 'x', 'X', 's', 't', 'u', 'g', 'o', ','].contains c
  | _ => false

def below (s : State) (p : Place) : List Place :=
  (s.disk.nodes.filter fun e => p.isPrefixOf e.1).map (·.1)

def changeMode (o : Options) (mode : String) (files : List String) (s : State) : State :=
  if (executes? mode false).isNone then misused s 1 s!"invalid mode: {cited mode}"
  else if files.isEmpty then misused s 1 s!"missing operand after {cited mode}"
  else files.foldl (fun s path =>
    match s.stat path with
    | .error e => failing s s!"cannot access {inQuotes path}" e
    | .ok (p, _) =>
      let places := if o.has 'R' then below s p else [p]
      places.foldl (fun s q => match s.disk.node? q with
        | some (.file content executable) =>
          { s with disk := s.disk.set q (.file content ((executes? mode executable).getD executable)) }
        | _ => s) s) (s.withStatus 0)

def chmod : Utility := fun args s =>
  let removals := args.filter removesRights
  withOptions ⟨"Rcfv".toList, [], [("recursive", 'R')], true⟩ 1 (fun o s =>
    match removals, o.operands with
    | mode :: _, files => changeMode o mode files s
    | [], mode :: files => changeMode o mode files s
    | [], [] => misused s 1 "missing operand") (args.filter fun a => !removesRights a) s

def listing (o : Options) (names : List String) : String :=
  if o.has 'm' then
    if names.isEmpty then "" else Text.join ", " names ++ "\n"
  else if o.has 'x' || o.has 'C' then
    if names.isEmpty then "" else Text.join "  " names ++ "\n"
  else String.join (names.map fun n => n ++ "\n")

def withSign (o : Options) (s : State) (path name : String) : String :=
  let sign := match thing s path with
    | .ok (.link _ _) => if o.has 'F' then "@" else ""
    | .ok (.directory _) => if o.has 'F' || o.has 'p' then "/" else ""
    | .ok (.file _ _ true) => if o.has 'F' then "*" else ""
    | _ => ""
  name ++ sign

def inOrder (o : Options) (names : List String) : List String :=
  let sorted := names.mergeSort fun a b => textOrder (Text.encode a) (Text.encode b)
  if o.has 'r' then sorted.reverse else sorted

def listedNames (o : Options) (s : State) (p : Place) : List String :=
  let hidden := o.has 'a' || o.has 'A'
  let own := (s.names p).filter fun n => hidden || !n.startsWith "."
  inOrder o (if o.has 'a' then "." :: ".." :: own else own)

def listDir (o : Options) : Nat → Bool → String → Place → State → State
  | 0, _, _, _, s => s
  | depth + 1, titled, path, p, s =>
    let names := listedNames o s p
    let title := if titled then path ++ ":\n" else ""
    let s := s.print (title ++ listing o (names.map fun n => withSign o s (inside path n) n))
    if o.has 'R' then
      (names.filter fun n => n ≠ "." && n ≠ "..").foldl (fun s n =>
        if s.disk.isDirectory (p ++ [n]) && (s.links.lookup (p ++ [n])).isNone then
          listDir o depth true (inside path n) (p ++ [n]) (s.print "\n")
        else s) s
    else s

def ls : Utility := withOptions ⟨"1aAbBcCdfFghHiklLmnNopqQrRsStuUvxXZ".toList, "wTI".toList,
    [("all", 'a'), ("almost-all", 'A'), ("directory", 'd'), ("recursive", 'R'), ("reverse", 'r'),
     ("classify", 'F')], true⟩ 2 fun o s =>
  let operands := if o.operands.isEmpty then ["."] else o.operands
  let s := operands.foldl (fun s path =>
    match thing s path with
    | .error e => fail s 2 s!"cannot access {inQuotes path}: {State.reason e}"
    | .ok _ => s) (s.withStatus 0)
  let isDir (path : String) : Bool := !o.has 'd' && match reached s path with
    | .ok (.directory _) => true
    | _ => false
  let known := operands.filter fun path => (thing s path).isOk
  let dirs := inOrder o (known.filter isDir)
  let files := inOrder o (known.filter fun path => !isDir path)
  let titled := 1 < operands.length || o.has 'R'
  let s := s.print (listing o (files.map fun path => withSign o s path path))
  (dirs.foldl (fun (acc : Bool × State) path =>
    match reached acc.2 path with
    | .ok (.directory p) =>
      let s := if acc.1 then acc.2 else acc.2.print "\n"
      (false, listDir o copyDepth titled path p s)
    | _ => acc) (files.isEmpty, s)).2

def withoutSlashes (path : String) : List Char :=
  (path.toList.reverse.dropWhile (· == '/')).reverse

def baseOf (path ending : String) : String :=
  let name := lastName path
  if name ≠ ending && ending.toList.reverse.isPrefixOf name.toList.reverse then
    String.ofList (name.toList.take (name.length - ending.length))
  else name

def basename : Utility := withOptions ⟨"az".toList, "s".toList,
    [("multiple", 'a'), ("suffix", 's'), ("zero", 'z')], false⟩ 1 fun o s =>
  let ending := if o.has 'z' then "\x00" else "\n"
  if o.has 'a' || o.has 's' then
    if o.operands.isEmpty then misused s 1 "missing operand"
    else (s.print (String.join (o.operands.map fun path =>
      baseOf path ((o.value? 's').getD "") ++ ending))).withStatus 0
  else match o.operands with
    | [] => misused s 1 "missing operand"
    | [path] => (s.print (lastName path ++ ending)).withStatus 0
    | [path, cut] => (s.print (baseOf path cut ++ ending)).withStatus 0
    | _ :: _ :: extra :: _ => misused s 1 s!"extra operand {cited extra}"

def dirOf (path : String) : String :=
  let cs := withoutSlashes path
  if cs.isEmpty then (if path.startsWith "/" then "/" else ".")
  else
    let before := (cs.reverse.dropWhile (· != '/')).reverse
    if before.isEmpty then "."
    else
      let cut := withoutSlashes (String.ofList before)
      if cut.isEmpty then "/" else String.ofList cut

def dirname : Utility := withOptions ⟨"z".toList, [], [("zero", 'z')], true⟩ 1 fun o s =>
  if o.operands.isEmpty then misused s 1 "missing operand"
  else (s.print (String.join (o.operands.map fun path => dirOf path ++ "\n"))).withStatus 0

def onFiles : List (String × Utility) :=
  [("cp", cp), ("mv", mv), ("ln", ln), ("mkdir", mkdir), ("rm", rm), ("touch", touch),
   ("chmod", chmod), ("ls", ls), ("basename", basename), ("dirname", dirname)]

end Anneal.Shell.Utilities
