import Anneal.Text.Blank

/-!
# Template texts

A template text is characters between which names and tags stand in braces. A rendering reads the
text, then chooses the pieces that are shown, and puts the values in last: what a value holds is
never looked at as template text.

These are the documented rules of minijinja that the prompts rest on, with blocks trimmed and
stripped on the left as the prompt engine sets it:

* `{{ name }}` stands for the value of the name as it is. Nothing is escaped, since no template has a
  name that ends in `.html` or the like.
* `if`, `elif`, `else` and `endif` choose. A name alone is a test, which an absent value and the empty
  string fail; `name == "text"` compares.
* The line feed directly behind a tag is dropped, and so are the blanks between the start of a line
  and a tag. A name keeps what is around it.
* One line feed at the end of a template is dropped.

Loops, filters, comments, other expressions and blocks with `-` are not taken over: no template here
has one. A name without a value is refused, where minijinja would print nothing; no template prints
one.
-/

namespace Anneal.Prompts.Template

open Anneal.Text

/-- What can stand in a prompt: characters of the template, or the value of a name. -/
inductive Piece
  | text (s : String)
  | slot (name : String)

inductive Token
  | piece (p : Piece)
  | tag (words : List String)

inductive Mode
  | text (fresh : Bool)
  | slot
  | tag

def outdent (fresh : Bool) (read : List Char) : List Char :=
  match read.dropWhile fun c => c = ' ' || c = '\t' with
  | [] => if fresh then [] else read
  | c :: cs => if c = '\n' then c :: cs else read

def textThen (read : List Char) (ts : List Token) : List Token :=
  if read.isEmpty then ts else .piece (.text (String.ofList read.reverse)) :: ts

def slotToken (read : List Char) : Token := .piece (.slot (String.ofList (trimChars read.reverse)))

def tagToken (read : List Char) : Token := .tag ((words read.reverse).map String.ofList)

/-- The tokens of a text, `read` being the characters of the first one that were met before it,
last first. What is opened has to be closed. -/
def scan : Mode → List Char → List Char → Option (List Token)
  | .text _, read, [] => some (textThen read [])
  | .text _, read, '\x7b' :: '\x7b' :: cs => (scan .slot [] cs).map (textThen read)
  | .text fresh, read, '\x7b' :: '%' :: cs =>
    (scan .tag [] cs).map (textThen (outdent fresh read))
  | .text fresh, read, c :: cs => scan (.text fresh) (c :: read) cs
  | .slot, read, '\x7d' :: '\x7d' :: cs => (scan (.text false) [] cs).map (slotToken read :: ·)
  | .slot, read, c :: cs => scan .slot (c :: read) cs
  | .slot, _, [] => none
  | .tag, read, '%' :: '\x7d' :: '\n' :: cs => (scan (.text true) [] cs).map (tagToken read :: ·)
  | .tag, read, '%' :: '\x7d' :: cs => (scan (.text false) [] cs).map (tagToken read :: ·)
  | .tag, read, c :: cs => scan .tag (c :: read) cs
  | .tag, _, [] => none

def chomp (cs : List Char) : List Char := if cs.getLast? = some '\n' then cs.dropLast else cs

def tokens? (source : String) : Option (List Token) := scan (.text true) [] (chomp source.toList)

abbrev Values := String → Option String

def truth (value : Option String) : Bool := value.any fun s => !s.isEmpty

def holds (values : Values) : List String → Option Bool
  | [name] => some (truth (values name))
  | [name, "==", quoted] => some ((values name).any fun s => "\"" ++ s ++ "\"" = quoted)
  | _ => none

structure Choice where
  shown : Bool
  settled : Bool

/-- The open choices behind a tag, innermost first. -/
def turn (values : Values) : List Choice → List String → Option (List Choice)
  | choices, "if" :: test => (holds values test).map fun b => ⟨b, b⟩ :: choices
  | c :: choices, "elif" :: test =>
    (holds values test).map fun b => ⟨!c.settled && b, c.settled || b⟩ :: choices
  | c :: choices, ["else"] => some (⟨!c.settled, true⟩ :: choices)
  | _ :: choices, ["endif"] => some choices
  | _, _ => none

def select (values : Values) : List Choice → List Token → Option (List Piece)
  | [], [] => some []
  | _ :: _, [] => none
  | choices, .piece p :: ts =>
    (select values choices ts).map fun ps => if choices.all (·.shown) then p :: ps else ps
  | choices, .tag words :: ts =>
    (turn values choices words).bind fun choices' => select values choices' ts

def fill (values : Values) : List Piece → Option String
  | [] => some ""
  | .text s :: ps => (fill values ps).map (s ++ ·)
  | .slot name :: ps => (values name).bind fun s => (fill values ps).map (s ++ ·)

/-- What a list of tokens puts into a prompt. -/
def shown (values : Values) (ts : List Token) : Option String :=
  (select values [] ts).bind (fill values)

def render (source : String) (values : Values) : Option String :=
  (tokens? source).bind (shown values)

def optional (name : String) (ps : List Piece) : List Token :=
  .tag ["if", name] :: (ps.map .piece ++ [.tag ["endif"]])

variable {values : Values} {ps : List Piece} {ts : List Token} {name s t : String}

/-- The characters of a list of literals. A literal is at once the `String.ofList` of its
characters, while `String.toList` would compute them from its bytes. -/
inductive Spelled : List String → List Char → Prop
  | nil : Spelled [] []
  | cons {ss : List String} {rest : List Char} (cs : List Char) (h : Spelled ss rest) :
      Spelled (String.ofList cs :: ss) (cs ++ rest)

theorem Spelled.join {ss : List String} {cs : List Char} (h : Spelled ss cs) :
    (String.join ss).toList = cs := by
  induction h with
  | nil => rfl
  | cons cs _ ih => rw [String.join_cons, String.toList_append, String.toList_ofList, ih]

theorem tokens?_join {ss : List String} {cs : List Char} (h : Spelled ss cs)
    (hscan : scan (.text true) [] (chomp cs) = some ts) : tokens? (String.join ss) = some ts := by
  rw [tokens?, h.join, hscan]

theorem select_pieces (choices : List Choice) (ps : List Piece) (ts : List Token) :
    select values choices (ps.map .piece ++ ts) = (select values choices ts).map
      ((if choices.all (·.shown) then ps else []) ++ ·) := by
  induction ps with
  | nil => simp
  | cons p ps ih =>
    rw [List.map_cons, List.cons_append, select, ih, Option.map_map]
    by_cases hshown : choices.all (·.shown) <;> simp [hshown, Function.comp_def]

theorem select_optional (name : String) (ps : List Piece) (ts : List Token) :
    select values [] (optional name ps ++ ts) = (select values [] ts).map
      ((if truth (values name) then ps else []) ++ ·) := by
  have hopen : turn values [] ["if", name] = some [⟨truth (values name), truth (values name)⟩] :=
    rfl
  have hclose : select values [⟨truth (values name), truth (values name)⟩] (.tag ["endif"] :: ts) =
      select values [] ts := rfl
  rw [optional, List.cons_append, List.append_assoc, select, hopen, Option.bind_some, select_pieces,
    List.singleton_append, hclose]
  simp

theorem fill_append (ps qs : List Piece) :
    fill values (ps ++ qs) = (fill values ps).bind fun s => (fill values qs).map (s ++ ·) := by
  induction ps with
  | nil => simp [fill]
  | cons p ps ih =>
    rw [List.cons_append]
    cases p with
    | text s =>
      rw [fill, fill, ih]
      cases fill values ps <;> simp [Function.comp_def, String.append_assoc]
    | slot name =>
      rw [fill, fill, ih]
      cases values name <;> cases fill values ps <;>
        simp [Function.comp_def, String.append_assoc]

@[simp] theorem shown_nil : shown values [] = some "" := rfl

theorem shown_of_select (hs : fill values ps = some s) (ht : shown values ts = some t) :
    ((select values [] ts).map (ps ++ ·)).bind (fill values) = some (s ++ t) := by
  obtain ⟨qs, hqs, hfill⟩ := Option.bind_eq_some_iff.1 ht
  rw [hqs, Option.map_some, Option.bind_some, fill_append, hs, Option.bind_some, hfill,
    Option.map_some]

theorem shown_pieces (hs : fill values ps = some s) (ht : shown values ts = some t) :
    shown values (ps.map .piece ++ ts) = some (s ++ t) := by
  rw [shown, select_pieces]
  exact shown_of_select hs ht

theorem shown_optional (hs : truth (values name) = true → fill values ps = some s)
    (hnone : truth (values name) = false → s = "") (ht : shown values ts = some t) :
    shown values (optional name ps ++ ts) = some (s ++ t) := by
  rw [shown, select_optional]
  by_cases htrue : truth (values name) = true
  · rw [if_pos htrue]
    exact shown_of_select (hs htrue) ht
  · rw [if_neg htrue, hnone (Bool.not_eq_true _ ▸ htrue)]
    exact shown_of_select rfl ht

-- Tags take their lines with them, and a value that looks like a tag is not one.
example : render "a\n  \x7b% if x %\x7d\n\x7b\x7b x \x7d\x7d\n  \x7b% endif %\x7d\nb\n"
    (fun _ => some "\x7b% endif %\x7d") = some "a\n\x7b% endif %\x7d\nb" := by
  rfl

end Anneal.Prompts.Template
