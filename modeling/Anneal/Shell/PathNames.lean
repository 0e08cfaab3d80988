import Anneal.Shell.Pattern
import Anneal.Shell.State

/-!
# Path names

A field with wildcards stands for the paths that it matches. It is matched component by component; a
name that begins with a point is matched only by a pattern that begins with one. A field that matches
nothing stands for itself.
-/

namespace Anneal.Shell.PathNames

def components : List Marked → List (List Marked)
  | [] => [[]]
  | (c, active) :: ms =>
    if c = '/' then [] :: components ms
    else match components ms with
      | [] => [[(c, active)]]
      | piece :: pieces => ((c, active) :: piece) :: pieces

def matching (s : State) (dir : String) (component : List Marked) : List String :=
  match s.stat (if dir.isEmpty then "." else dir) with
  | .ok (p, .directory) =>
    let hidden := component.head?.map (·.1) = some '.'
    let all := if hidden then "." :: ".." :: s.names p else s.names p
    all.filter fun n => (hidden || !n.startsWith ".") &&
      (Pattern.ofMarked component).accepts n.toList
  | _ => []

def extensions (s : State) (before : String) : List (List Marked) → List String
  | [] => [before]
  | component :: rest =>
    let slash := if rest.isEmpty then "" else "/"
    let names := if hasWildcard component then matching s before component
      else [String.ofList (plain component)]
    names.flatMap fun n => extensions s (before ++ n ++ slash) rest

def found (s : State) (field : List Marked) : List String :=
  ((extensions s "" (components field)).filter fun p =>
    (s.stat p).isOk || (s.link? p).isSome).mergeSort
      fun a b => !decide (Text.encode b < Text.encode a)

def expand (s : State) (field : List Marked) : List String :=
  let itself := [String.ofList (plain field)]
  if s.has 'f' || !hasWildcard field then itself
  else match found s field with
    | [] => itself
    | paths => paths

end Anneal.Shell.PathNames
