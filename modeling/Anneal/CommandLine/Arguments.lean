/-!
# Command-line arguments

The commands of the program and the words that they are made of. Options stand anywhere behind
their command, those of the program also in front of it; each is given at most once on either side,
and behind a command it wins. Words that do not make a command are refused.
-/

namespace Anneal.CommandLine

/-- What the user asks for. -/
inductive Request where
  | convert (instruction : Option String)
  | repair (instruction input : Option String)
  | pipeline (instruction input : Option String)
  | explain (question : String)
  | route (instruction : String) (input : Option String)
  | session (input : Option String)
  | initConfig (force : Bool)
  deriving DecidableEq, Repr

structure Options where
  config : Option String := none
  backend : Option String := none
  model : Option String := none
  deriving DecidableEq, Repr

inductive Invocation where
  | run (options : Options) (request : Request)
  | version
  | help
  | refused
  deriving DecidableEq, Repr

inductive Flag where
  | config | backend | model | instruction | input | force
  deriving DecidableEq, Repr

def Flag.longName : Flag → String
  | .config => "config"
  | .backend => "backend"
  | .model => "model"
  | .instruction => "instruction"
  | .input => "input"
  | .force => "force"

def Flag.hasValue : Flag → Bool
  | .force => false
  | _ => true

def Flag.isPath : Flag → Bool
  | .config => true
  | .input => true
  | _ => false

inductive Verb where
  | convert | repair | pipeline | explain | route | session | initConfig
  deriving DecidableEq, Repr

def Verb.all : List (String × Verb) :=
  [("convert", .convert), ("repair", .repair), ("pipeline", .pipeline), ("explain", .explain),
   ("route", .route), ("session", .session), ("init-config", .initConfig)]

def commonFlags : List Flag := [.config, .backend, .model]

def Verb.ownFlags : Verb → List Flag
  | .convert => [.instruction]
  | .repair => [.instruction, .input]
  | .pipeline => [.instruction, .input]
  | .explain => []
  | .route => [.input]
  | .session => [.input]
  | .initConfig => [.force]

def Verb.takesWord : Verb → Bool
  | .explain => true
  | .route => true
  | _ => false

structure Given where
  flags : List (Flag × String) := []
  word : Option String := none

def Given.value? (g : Given) (f : Flag) : Option String := g.flags.lookup f

def Given.add (g : Given) (f : Flag) (value : String) : Option Given :=
  if (g.value? f).isSome || (f.isPath && value.isEmpty) then none
  else some { g with flags := (f, value) :: g.flags }

def Given.addWord (g : Given) (wanted : Bool) (word : String) : Option Given :=
  if wanted && g.word.isNone then some { g with word := some word } else none

def looksLikeFlag (word : String) : Bool := word.startsWith "-" && word ≠ "-"

def flag? (known : List Flag) (word : String) : Option (Flag × Option String) :=
  match word.toList with
  | '-' :: '-' :: cs =>
    let name := cs.takeWhile (· != '=')
    let value := match cs.drop name.length with
      | _ :: rest => some (String.ofList rest)
      | [] => none
    (known.find? fun f => f.longName.toList = name).map (·, value)
  | _ => none

def letters? (word : String) : Option (List Char) :=
  match word.toList with
  | '-' :: c :: cs => if c = '-' then none else some (c :: cs)
  | _ => none

inductive Reading where
  | given (g : Given)
  | help
  | refused

def readLetters (known : List Flag) : List Char → Given → Reading
  | [], g => .given g
  | 'h' :: _, _ => .help
  | 'f' :: cs, g =>
    match if known.contains .force then g.add .force "" else none with
    | some g => readLetters known cs g
    | none => .refused
  | _ :: _, _ => .refused

def readWords (known : List Flag) (wanted : Bool) : List String → Given → Reading
  | [], g => .given g
  | "--" :: words, g =>
    match words.foldlM (fun g w => Given.addWord g wanted w) g with
    | some g => .given g
    | none => .refused
  | "--help" :: _, _ => .help
  | word :: words, g =>
    if looksLikeFlag word then
      match flag? known word with
      | none => match (letters? word).map fun cs => readLetters known cs g with
        | some (.given g) => readWords known wanted words g
        | some r => r
        | none => .refused
      | some (f, some value) =>
        match if f.hasValue then g.add f value else none with
        | some g => readWords known wanted words g
        | none => .refused
      | some (f, none) =>
        if f.hasValue then
          match words with
          | [] => .refused
          | value :: words =>
            match if looksLikeFlag value then none else g.add f value with
            | some g => readWords known wanted words g
            | none => .refused
        else match g.add f "" with
          | some g => readWords known wanted words g
          | none => .refused
    else match g.addWord wanted word with
      | some g => readWords known wanted words g
      | none => .refused

def request? (verb : Verb) (g : Given) : Option Request :=
  match verb with
  | .convert => some (.convert (g.value? .instruction))
  | .repair => some (.repair (g.value? .instruction) (g.value? .input))
  | .pipeline => some (.pipeline (g.value? .instruction) (g.value? .input))
  | .explain => g.word.map .explain
  | .route => g.word.map fun w => .route w (g.value? .input)
  | .session => some (.session (g.value? .input))
  | .initConfig => some (.initConfig (g.value? .force).isSome)

def optionsOf (before after : Given) : Options :=
  let choose (f : Flag) : Option String := (after.value? f).orElse fun _ => before.value? f
  ⟨choose .config, choose .backend, choose .model⟩

def finish (verb : Verb) (before : Given) (words : List String) : Invocation :=
  match readWords (commonFlags ++ verb.ownFlags) verb.takesWord words {} with
  | .help => .help
  | .refused => .refused
  | .given after => match request? verb after with
    | some r => .run (optionsOf before after) r
    | none => .refused

def helpOn : List String → Invocation
  | [] => .help
  | [word] => if word = "help" ∨ (Verb.all.lookup word).isSome then .help else .refused
  | _ => .refused

def readFrom : List String → Given → Invocation
  | [], _ => .refused
  | "--version" :: _, _ => .version
  | "--help" :: _, _ => .help
  | word :: words, g =>
    if looksLikeFlag word then
      match flag? commonFlags word with
      | none => match letters? word with
        | some ('h' :: _) => .help
        | some ('V' :: _) => .version
        | _ => .refused
      | some (f, some value) => match g.add f value with
        | some g => readFrom words g
        | none => .refused
      | some (f, none) => match words with
        | [] => .refused
        | value :: words =>
          match if looksLikeFlag value then none else g.add f value with
          | some g => readFrom words g
          | none => .refused
    else if word = "help" then helpOn words
    else match Verb.all.lookup word with
      | some verb => finish verb g words
      | none => .refused

/-- What the words of a command line ask for. -/
def read (words : List String) : Invocation := readFrom words {}

end Anneal.CommandLine
