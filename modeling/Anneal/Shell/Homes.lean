import Anneal.Shell.State
import Anneal.Text.Blank

/-!
# Home directories in words

An unquoted tilde at the start of a word, and the name behind it, stand for the home of a user: of the
one who runs the shell if there is no name. The name goes up to a slash and must not hold anything that
is quoted or expanded. In the value of an assignment a colon ends a name, and one may begin behind it.
-/

namespace Anneal.Shell.Homes

def users : List (String × String) :=
  [("root", "/root"), ("daemon", "/usr/sbin"), ("bin", "/bin"), ("sys", "/dev"), ("games", "/usr/games"),
   ("mail", "/var/mail"), ("www-data", "/var/www"), ("nobody", "/nonexistent")]

def home? (s : State) (user : String) : Option String :=
  if user.isEmpty then s.stored? "HOME" else users.lookup user

def bare (cs : List Char) : Word := if cs.isEmpty then [] else [.text false cs]

/-- Unquoted text at whose start a home may be named. `goesOn` if something other than unquoted text
follows it. -/
def expandText (s : State) (goesOn : Bool) (cs : List Char) : Word :=
  match cs with
  | '~' :: rest =>
    let user := rest.takeWhile (· != '/')
    let behind := rest.drop user.length
    if behind.isEmpty && goesOn then bare cs
    else match home? s (String.ofList user) with
      | some home => (if home.isEmpty then [] else [.text true home.toList]) ++ bare behind
      | none => bare cs
  | cs => bare cs

def expand (s : State) (w : Word) : Word :=
  match w with
  | .text false ('~' :: cs) :: rest => expandText s (!rest.isEmpty) ('~' :: cs) ++ rest
  | w => w

def expandParts (s : State) (goesOn : Bool) : List (List Char) → Word
  | [] => []
  | [last] => expandText s goesOn last
  | part :: parts => expandText s false part ++ .text false [':'] :: expandParts s goesOn parts

def expandPieces (s : State) : Bool → Word → Word
  | _, [] => []
  | first, .text false cs :: rest =>
    let goesOn := !rest.isEmpty
    let parts := match Text.splitWhere (· == ':') cs with
      | part :: more :: parts =>
        if first then expandParts s goesOn (part :: more :: parts)
        else bare part ++ .text false [':'] :: expandParts s goesOn (more :: parts)
      | parts => if first then expandParts s goesOn parts else bare cs
    parts ++ expandPieces s false rest
  | _, piece :: rest => piece :: expandPieces s false rest

def inValue (s : State) (value : Word) : Word := expandPieces s true value

end Anneal.Shell.Homes
