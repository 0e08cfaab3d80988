import Anneal.Path
import Anneal.Text.Search
import Anneal.Text.Utf8

/-!
# The file system

A disk is a table of places; each holds a directory or a file. Paths are followed component by
component from the working directory. Every operation may fail: by what it finds on the way, or
because the fault plan of the disk makes the operation with that number fail. A write that fails
may leave a part of the text behind.
-/

namespace Anneal

open Anneal.Text (Bytes)

inductive OsError where
  | notFound | execFormat | permissionDenied | busy | exists | notDirectory | isDirectory
  | brokenPipe | nameTooLong | tooManyLinks | invalidUtf8 | nulByte
  | nulWord
  deriving DecidableEq, Repr

def OsError.message : OsError → String
  | .notFound => "No such file or directory (os error 2)"
  | .execFormat => "Exec format error (os error 8)"
  | .permissionDenied => "Permission denied (os error 13)"
  | .busy => "Device or resource busy (os error 16)"
  | .exists => "File exists (os error 17)"
  | .notDirectory => "Not a directory (os error 20)"
  | .isDirectory => "Is a directory (os error 21)"
  | .brokenPipe => "Broken pipe (os error 32)"
  | .nameTooLong => "File name too long (os error 36)"
  | .tooManyLinks => "Too many levels of symbolic links (os error 40)"
  | .invalidUtf8 => "stream did not contain valid UTF-8"
  | .nulByte => "file name contained an unexpected NUL byte"
  | .nulWord => "nul byte found in provided data"

inductive Node where
  | directory
  | file (content : Bytes) (executable : Bool)
  deriving DecidableEq, Repr, Inhabited

/-- The names that lead from the root to a place. -/
abbrev Place := List String

structure Outage where
  error : OsError
  written : Nat

structure Disk where
  nodes : List (Place × Node)
  home : Place
  operation : Nat
  outage : Nat → Option Outage

namespace Disk

def empty : Disk :=
  { nodes := [([], .directory), (["dev"], .directory), (["dev", "null"], .file [] false),
      (["tmp"], .directory), (["tmp", "work"], .directory)]
    home := ["tmp", "work"]
    operation := 0
    outage := fun _ => none }

instance : Inhabited Disk := ⟨empty⟩

def node? (d : Disk) (p : Place) : Option Node := d.nodes.lookup p

def setNodes (p : Place) (n : Node) : List (Place × Node) → List (Place × Node)
  | [] => [(p, n)]
  | (q, m) :: rest => if q = p then (p, n) :: rest else (q, m) :: setNodes p n rest

def set (d : Disk) (p : Place) (n : Node) : Disk := { d with nodes := setNodes p n d.nodes }

def erase (d : Disk) (p : Place) : Disk :=
  { d with nodes := d.nodes.filter fun e => e.1 ≠ p }

structure Target where
  place : Place
  named : Bool
  slash : Bool

def isDirectory (d : Disk) (p : Place) : Bool := d.node? p = some .directory

def stepInto (p : Place) (name : String) : Place :=
  if name = "." then p else if name = ".." then p.dropLast else p ++ [name]

def walk (d : Disk) (p : Place) : List String → Except OsError Place
  | [] => .ok p
  | name :: rest =>
    if 255 < (Text.encode name).length then .error .nameTooLong
    else
      let q := stepInto p name
      match d.node? q with
      | none => .error .notFound
      | some (.file _ _) => .error .notDirectory
      | some .directory => walk d q rest

def components (path : String) : List String :=
  ((Text.splitWhere (· == '/') path.toList).filter fun c => !c.isEmpty).map String.ofList

def pathLimit : Nat := 4095

def locate (d : Disk) (path : String) : Except OsError Target :=
  let cs := path.toList
  if cs.isEmpty then .error .notFound
  else if cs.contains '\x00' then .error .nulByte
  else if pathLimit < path.utf8ByteSize then .error .nameTooLong
  else
    let start := if cs.head? = some '/' then [] else d.home
    match (components path).reverse with
    | [] => .ok ⟨start, false, true⟩
    | last :: before =>
      match d.walk start before.reverse with
      | .error e => .error e
      | .ok dir =>
        if 255 < (Text.encode last).length then .error .nameTooLong
        else .ok ⟨stepInto dir last, last ≠ "." ∧ last ≠ "..", cs.getLast? = some '/'⟩

def stat (d : Disk) (path : String) : Except OsError (Place × Node) :=
  match d.locate path with
  | .error e => .error e
  | .ok t => match d.node? t.place with
    | none => .error .notFound
    | some .directory => .ok (t.place, .directory)
    | some n => if t.slash then .error .notDirectory else .ok (t.place, n)

def exists? (d : Disk) (path : String) : Bool := (d.stat path).isOk

def isDir (d : Disk) (path : String) : Bool :=
  match d.stat path with
  | .ok (_, .directory) => true
  | _ => false

def attempt {α : Type} (d : Disk) (fails : Outage → Disk → Disk)
    (op : Disk → Except OsError α × Disk) : Except OsError α × Disk :=
  let next := { d with operation := d.operation + 1 }
  match d.outage d.operation with
  | some o => (.error o.error, fails o next)
  | none => op next

def readBytesNow (d : Disk) (path : String) : Except OsError Bytes :=
  match d.stat path with
  | .error e => .error e
  | .ok (_, .directory) => .error .isDirectory
  | .ok (_, .file content _) => .ok content

def readBytes (d : Disk) (path : String) : Except OsError Bytes × Disk :=
  d.attempt (fun _ d => d) fun d => (d.readBytesNow path, d)

def readTextNow (d : Disk) (path : String) : Except OsError String :=
  match d.readBytesNow path with
  | .error e => .error e
  | .ok bytes => match Text.decode? bytes with
    | some text => .ok text
    | none => .error .invalidUtf8

def readText (d : Disk) (path : String) : Except OsError String × Disk :=
  d.attempt (fun _ d => d) fun d => (d.readTextNow path, d)

def writable (d : Disk) (path : String) : Except OsError (Place × Option (Bytes × Bool)) :=
  match d.locate path with
  | .error e => .error e
  | .ok t =>
    if !t.named || t.slash then .error .isDirectory
    else match d.node? t.place with
      | some .directory => .error .isDirectory
      | some (.file content executable) => .ok (t.place, some (content, executable))
      | none => .ok (t.place, none)

def putNow (d : Disk) (path : String) (update : Bytes → Bytes) : Except OsError Unit × Disk :=
  match d.writable path with
  | .error e => (.error e, d)
  | .ok (p, none) => (.ok (), d.set p (.file (update []) false))
  | .ok (p, some (old, executable)) => (.ok (), d.set p (.file (update old) executable))

def writeBytes (d : Disk) (path : String) (content : Bytes) : Except OsError Unit × Disk :=
  d.attempt (fun o d => (d.putNow path fun _ => content.take o.written).2)
    fun d => d.putNow path fun _ => content

def writeText (d : Disk) (path text : String) : Except OsError Unit × Disk :=
  d.writeBytes path (Text.encode text)

def appendText (d : Disk) (path text : String) : Except OsError Unit × Disk :=
  d.attempt (fun o d => (d.putNow path fun old => old ++ (Text.encode text).take o.written).2)
    fun d => d.putNow path fun old => old ++ Text.encode text

def makeDirNow (d : Disk) (path : String) : Except OsError Unit × Disk :=
  match d.locate path with
  | .error e => (.error e, d)
  | .ok t =>
    if !t.named then (.error .exists, d)
    else match d.node? t.place with
      | some _ => (.error .exists, d)
      | none => (.ok (), d.set t.place .directory)

def makeDir (d : Disk) (path : String) : Except OsError Unit × Disk :=
  d.attempt (fun _ d => d) fun d => d.makeDirNow path

def ancestors : Nat → String → List String
  | 0, p => [p]
  | fuel + 1, p => p :: match Path.parent? p with
    | none => []
    | some parent => ancestors fuel parent

def makeChain (d : Disk) : List String → Except OsError Unit × Disk
  | [] => (.ok (), d)
  | path :: parents =>
    if path.isEmpty then (.ok (), d)
    else match d.makeDir path with
      | (.ok (), d) => (.ok (), d)
      | (.error .notFound, d) =>
        match makeChain d parents with
        | (.error e, d) => (.error e, d)
        | (.ok (), d) => match d.makeDir path with
          | (.ok (), d) => (.ok (), d)
          | (.error e, d) => if d.isDir path then (.ok (), d) else (.error e, d)
      | (.error e, d) => if d.isDir path then (.ok (), d) else (.error e, d)

def makeDirs (d : Disk) (path : String) : Except OsError Unit × Disk :=
  d.makeChain (ancestors path.length path)

def renameNow (d : Disk) (source target : String) : Except OsError Unit × Disk :=
  match d.locate source, d.locate target with
  | .error e, _ => (.error e, d)
  | _, .error e => (.error e, d)
  | .ok s, .ok t =>
    if !s.named || !t.named then (.error .busy, d)
    else match d.node? s.place with
      | none => (.error .notFound, d)
      | some .directory => (.error .isDirectory, d)
      | some n =>
        if s.slash || t.slash then (.error .notDirectory, d)
        else match d.node? t.place with
          | some .directory => (.error .isDirectory, d)
          | _ =>
            if s.place = t.place then (.ok (), d) else (.ok (), (d.set t.place n).erase s.place)

def rename (d : Disk) (source target : String) : Except OsError Unit × Disk :=
  d.attempt (fun _ d => d) fun d => d.renameNow source target

def removeFile (d : Disk) (path : String) : Except OsError Unit × Disk :=
  d.attempt (fun _ d => d) fun d =>
    match d.stat path with
    | .error e => (.error e, d)
    | .ok (_, .directory) => (.error .isDirectory, d)
    | .ok (p, _) => (.ok (), d.erase p)

def setExecutable (d : Disk) (path : String) (executable : Bool) : Except OsError Unit × Disk :=
  match d.stat path with
  | .error e => (.error e, d)
  | .ok (_, .directory) => (.ok (), d)
  | .ok (p, .file content _) => (.ok (), d.set p (.file content executable))

def files (d : Disk) : List (String × Bytes) :=
  d.nodes.filterMap fun e => match e.2 with
    | .directory => none
    | .file content _ =>
      if d.home.isPrefixOf e.1 then
        some (Text.join "/" (e.1.drop d.home.length), content)
      else none

end Disk
end Anneal
