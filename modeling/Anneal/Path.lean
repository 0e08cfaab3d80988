/-!
# Paths

Paths are texts with `/` between components. A path has a file name when its last component is an
ordinary name; a trailing slash and trailing `.` components do not count. Operations work on the
text and leave everything in front of the last component as it was written.
-/

namespace Anneal.Path

def trimBack : List Char → List Char
  | '/' :: c :: rest => trimBack (c :: rest)
  | '.' :: '/' :: rest => trimBack ('/' :: rest)
  | cs => cs
termination_by cs => cs.length

def reversed (p : String) : List Char := trimBack p.toList.reverse

/-- The last component if it is an ordinary name. -/
def fileName? (p : String) : Option String :=
  let name := ((reversed p).takeWhile (· != '/')).reverse
  if name.isEmpty || name == ['.'] || name == ['.', '.'] then none else some (String.ofList name)

def parent? (p : String) : Option String :=
  let t := reversed p
  if t.isEmpty || t == ['/'] then none
  else some (String.ofList (trimBack (t.dropWhile (· != '/'))).reverse)

/-- A path below a directory; an absolute path replaces the directory. -/
def join (dir p : String) : String :=
  if p.toList.head? == some '/' then p
  else if dir.isEmpty || dir.toList.getLast? == some '/' then dir ++ p
  else dir ++ "/" ++ p

def splitName (name : String) : String × Option String :=
  let back := name.toList.reverse
  match back.dropWhile (· != '.') with
  | _ :: c :: stem =>
    (String.ofList (c :: stem).reverse, some (String.ofList (back.takeWhile (· != '.')).reverse))
  | _ => (name, none)

def fileStem? (p : String) : Option String := (fileName? p).map fun n => (splitName n).1

def withoutExtension (p : String) : String :=
  match fileStem? p with
  | none => p
  | some stem => String.ofList ((reversed p).dropWhile (· != '/')).reverse ++ stem

def withFileName (p name : String) : String :=
  match fileName? p with
  | some _ => join ((parent? p).getD "") name
  | none => join p name

end Anneal.Path
