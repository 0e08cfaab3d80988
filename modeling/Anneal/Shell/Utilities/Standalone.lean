import Anneal.Shell.Builtins
import Anneal.Shell.Utility

/-!
# Programs that shells also have built in

Printing, conditions and signals as programs of their own: they do the same as the commands of the
shell, but name themselves in their messages and take options of their own.
-/

namespace Anneal.Shell.Utilities

open Anneal.Text (Bytes)
open Utility

def echo : Utility := fun args s =>
  let isFlag (word : String) : Bool := match word.toList with
    | '-' :: c :: cs => (c :: cs).all fun c => ['n', 'e', 'E'].contains c
    | _ => false
  let flags := (args.takeWhile isFlag).flatMap fun w => w.toList.drop 1
  let escapes := (flags.filter (· != 'n')).getLast? = some 'e'
  (s.write 1 (Format.echo escapes (!flags.contains 'n') (args.dropWhile isFlag))).withStatus 0

def remarkText (r : Format.Remark) (arg : String) : String :=
  match r with
  | .noNumber => s!"{cited arg}: expected a numeric value"
  | .partly => s!"{cited arg}: value not completely converted"
  | .outOfRange => s!"{cited arg}: Numerical result out of range"

def printf : Utility := fun args s =>
  let args := match args with
    | "--" :: rest => rest
    | args => args
  match args with
  | [] => misused s 1 "missing operand"
  | format :: rest =>
    let r := Format.print true format rest
    let s := (s.write 1 r.bytes).withStatus 0
    let s := r.remarks.foldl (fun s m => fail s 1 (remarkText m.1 m.2)) s
    match r.bad with
    | some (.invalid directive) => fail s 1 s!"{directive}: invalid conversion specification"
    | some .missing => fail s 1 "%: invalid conversion specification"
    | none => match r.args with
      | extra :: _ => complain s s!"warning: ignoring excess arguments, starting with {cited extra}"
      | [] => s

def testProgram (bracket : Bool) : Utility := fun args s =>
  if bracket && args.getLast? ≠ some "]" then fail s 2 "missing ‘]’"
  else match Conditions.condition s (if bracket then args.dropLast else args) with
    | .ok b => s.withStatus (if b then 0 else 1)
    | .error message =>
      let illegal := "Illegal number: "
      if message.startsWith illegal then
        fail s 2 s!"invalid integer {cited (String.ofList (message.toList.drop illegal.length))}"
      else fail s 2 message

def killProgram : Utility := fun args s =>
  match Builtins.sending args with
  | .signal n targets => targets.foldl (fun s t =>
      if !s.isOn then s
      else match natOf? t with
        | none => fail s 1 s!"failed to parse argument: '{t}'"
        | some pid =>
          let r := Builtins.sendTo n { s with err := [] } t
          if r.status = 0 then { r with err := r.err ++ s.err }
          else fail s 1 s!"({pid}): No such process") (s.withStatus 0)
  | _ => Builtins.kill args s

def pwd : Utility := fun _ s => (s.print ("/" ++ Text.join "/" s.disk.home ++ "\n")).withStatus 0

def printenv : Utility := fun args s =>
  if args.isEmpty then
    (s.print (String.join ((s.bindings.filter fun v => s.isExported v.1).map fun v =>
      s!"{v.1}={v.2}\n"))).withStatus 0
  else args.foldl (fun s name =>
    match if s.isExported name then s.stored? name else none with
    | some v => s.print (v ++ "\n")
    | none => s.withStatus 1) (s.withStatus 0)

def standalone : List (String × Utility) :=
  [("echo", echo), ("printf", printf), ("test", testProgram false), ("[", testProgram true),
   ("true", fun _ s => s.withStatus 0), ("false", fun _ s => s.withStatus 1),
   ("kill", killProgram), ("pwd", pwd), ("printenv", printenv)]

end Anneal.Shell.Utilities
