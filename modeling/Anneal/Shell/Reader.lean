import Anneal.Shell.Source

/-!
# Reading shell scripts

A script is read one complete command at a time, so that everything before a fault has run when it
is found. The scripts inside of words are read along with them: where such a script ends is known only
when its commands have been read, and a fault in it is a fault of the whole.
-/

namespace Anneal.Shell

inductive Context where
  | bare
  | delimiter
  | quotes
  | document
  | arithmetic (depth : Nat)
  | braces (quoted within : Bool)
  deriving DecidableEq

namespace Context

def isQuoted : Context → Bool
  | .bare => false
  | .delimiter => false
  | .quotes => true
  | .document => true
  | .arithmetic _ => true
  | .braces quoted _ => quoted

def inDocument : Context → Bool
  | .document => true
  | .braces _ within => within
  | _ => false

def endsAt (p : Context) (c : Char) : Bool :=
  match p with
  | .bare => isSpecial c
  | .delimiter => isSpecial c
  | .quotes => c = '"'
  | .document => false
  | .arithmetic _ => false
  | .braces _ _ => c = '\x7d'

def escapes (p : Context) (c : Char) : Bool :=
  match p with
  | .bare => true
  | .delimiter => true
  | .quotes => ['$', '`', '"', '\\'].contains c
  | .document => ['$', '`', '\\'].contains c
  | .arithmetic _ => ['$', '`', '"', '\\'].contains c
  | .braces quoted _ => !quoted || ['$', '`', '"', '\\', '\x7d'].contains c

def hasQuotes (p : Context) : Bool :=
  match p with
  | .document => false
  | .arithmetic _ => false
  | _ => true

def expands (p : Context) : Bool := p ≠ .delimiter

def isPlain (p : Context) (c : Char) : Bool :=
  !p.endsAt c && !(['\\', '\'', '"', '$', '`', '(', ')'].contains c)

def missing? : Context → Option String
  | .bare => none
  | .delimiter => none
  | .document => none
  | .quotes => some "Unterminated quoted string"
  | .arithmetic _ => some "Missing '))'"
  | .braces quoted within =>
    some (if quoted && !within then "Unterminated quoted string" else "Missing '\x7d'")

end Context

mutual

def pieces : Nat → Context → Reading Word
  | 0, _, s => .ok ([], s)
  | fuel + 1, p, s =>
    let quoted := p.isQuoted
    let more (add : Word → Word) (p : Context) (s : Source) : Except Fault (Word × Source) := do
      let (w, s) ← pieces fuel p s
      return (add w, s)
    match s.rest with
    | [] => match p.missing? with
      | some text => s.fault text
      | none => .ok ([], s)
    | c :: rest =>
      let after := s.skip [c]
      if p.endsAt c then .ok ([], s)
      else if c = '\\' then
        match rest with
        | [] => more (addText true ['\\']) p after
        | d :: _ =>
          if d = '\n' then more id p (s.skip [c, d])
          else if p.escapes d then more (addText true [d]) p (s.skip [c, d])
          else more (addText quoted ['\\', d]) p (s.skip [c, d])
      else if c = '\'' && !quoted then
        let text := rest.takeWhile (· != '\'')
        let behind := after.skip text
        match behind.rest with
        | [] => behind.fault "Unterminated quoted string"
        | _ => more (addText true text) p (behind.skip ['\''])
      else if c = '"' && p.hasQuotes then do
        let (inner, s) ← pieces fuel .quotes after
        let inner := if inner.isEmpty then [.text true []] else inner
        more (inner ++ ·) p (s.skip ['"'])
      else if c = '$' && p.expands then do
        match ← dollar fuel p after with
        | (none, s) => more (addText quoted ['$']) p s
        | (some piece, s) => more (piece :: ·) p s
      else if c = '`' && p.expands then
        match backquoted quoted rest with
        | none => (after.skip rest).fault "EOF in backquote substitution"
        | some (script, rest) => do
          let _ ← list fuel 2 (.ofText 1 s.aliases script)
          let taken := (s.rest.drop 1).take (s.rest.length - 1 - rest.length)
          more (.output quoted 1 script :: ·) p (after.skip taken)
      else match p with
        | .arithmetic depth =>
          if c = '(' then more (addText true [c]) (.arithmetic (depth + 1)) after
          else if c = ')' && depth = 0 then
            if after.join.rest.head? = some ')' then .ok ([], after.join.skip [')'])
            else more (addText true [c]) p after
          else if c = ')' then more (addText true [c]) (.arithmetic (depth - 1)) after
          else
            let text := c :: rest.takeWhile p.isPlain
            more (addText true text) p (s.skip text)
        | p =>
          let text := c :: rest.takeWhile p.isPlain
          more (addText quoted text) p (s.skip text)

def dollar : Nat → Context → Reading (Option Piece)
  | 0, _, s => .ok (none, s)
  | fuel + 1, p, s =>
    let quoted := p.isQuoted
    let s := s.join
    match s.rest with
    | [] => .ok (none, s)
    | '(' :: rest =>
      let inner := (s.skip ['(']).join
      match inner.rest with
      | '(' :: _ => do
        let (body, s) ← pieces fuel (.arithmetic 0) (inner.skip ['('])
        return (some (.arithmetic quoted body), s)
      | _ => do
        let (_, t) ← list fuel 2 { (s.skip ['(']) with pushed := none, announced := [], documents := [] }
        let (closing, t) ← take fuel t
        match closing with
        | .sign ")" =>
          let script := rest.take (rest.length - t.rest.length - 1)
          return (some (.output quoted s.line script),
            { t with announced := s.announced, documents := s.documents })
        | closing => unexpected closing ")" t
    | '\x7b' :: rest =>
      let head := heading rest
      let s := s.skip ('\x7b' :: rest.take (rest.length - head.rest.length))
      if head.closed then
        .ok (some (.parameter quoted head.name head.modifier []), s)
      else do
        let cuts := match head.modifier with
          | .cutStart _ => true
          | .cutEnd _ => true
          | _ => false
        let (operand, s) ← pieces fuel (.braces (quoted && !cuts) p.inDocument) s
        return (some (.parameter quoted head.name head.modifier operand), s.skip ['\x7d'])
    | c :: rest =>
      let name := if isNameStart c then c :: rest.takeWhile isNameChar
        else if isSign c then [c] else []
      if name.isEmpty then .ok (none, s)
      else .ok (some (.parameter quoted (String.ofList name) .none []), s.skip name)

def readDocuments : Nat → Source → Except Fault Source
  | 0, s => .ok s
  | fuel + 1, s =>
    match s.announced with
    | [] => .ok s
    | a :: later => do
      let (text, rest) := documentLines a (s.rest.length + 1) s.rest
      let body ← if a.raw then pure [.text true text]
        else (pieces fuel .document { s with rest := text, announced := [], documents := [] }).map (·.1)
      readDocuments fuel { s.skip (s.rest.take (s.rest.length - rest.length)) with
        announced := later, documents := s.documents ++ [(a.index, body)] }

def lex : Nat → Context → Reading Token
  | 0, _, s => .ok (.ending, s)
  | fuel + 1, p, s =>
    let s := s.skipBlanks
    match s.rest with
    | [] => do
      let s ← readDocuments fuel s
      return (.ending, s)
    | '\n' :: _ => do
      let s ← readDocuments fuel (s.skip ['\n'])
      return (.newline, s)
    | _ => match sign? s with
      | some (text, s) => .ok (.sign text, s)
      | none => do
        let (w, behind) ← pieces fuel p s
        let stream : Option (Option Nat) := match w with
          | [] => some none
          | [.text false [c]] => if c.isDigit then some (some (c.toNat - 48)) else none
          | _ => none
        match stream, redirectSign? behind with
        | some stream, some (sign, s) => return (.redirect stream sign, s)
        | _, _ => return (.word w, behind)

def take : Nat → Reading Token
  | 0, s => .ok (.ending, s)
  | fuel + 1, s =>
    match s.pushed with
    | some t => .ok (t, { s with pushed := none })
    | none => lex fuel .bare s

/-- Takes the next token where a command can begin, in which a shorthand is replaced; `lines` where ends
of lines do not matter, `keys` where words have a meaning of their own. -/
def takeFirst : Nat → Bool → Bool → Reading Token
  | 0, _, _, s => .ok (.ending, s)
  | fuel + 1, lines, keys, s => do
    let (t, s) ← take fuel s
    match t with
    | .newline => if lines then takeFirst fuel lines keys s else return (t, s)
    | t => match keyword? t with
      | none => return (t, s)
      | some name =>
        if keys && keywords.contains name then return (t, s)
        else
          let (_, s) := s.leaveAliases
          match s.expandAlias? name with
          | some s => takeFirst fuel lines keys s
          | none => return (t, s)

def takeBeyondLines : Nat → Reading Token
  | 0, s => .ok (.ending, s)
  | fuel + 1, s => do
    let (t, s) ← take fuel s
    match t with
    | .newline => takeBeyondLines fuel s
    | t => return (t, s)

def expect : Nat → Bool → String → Reading Unit
  | 0, _, _, s => .ok ((), s)
  | fuel + 1, lines, expected, s => do
    let (t, s) ← if lines then takeBeyondLines fuel s else take fuel s
    let found := match t with
      | .sign text => some text
      | t => keyword? t
    if found = some expected then return ((), s) else unexpected t expected s

def redirectTarget : Nat → Option Nat → String → Reading Redirect
  | 0, _, _, s => .ok (default, s)
  | fuel + 1, stream, sign, s =>
    match direction? sign with
    | none => .ok (default, s)
    | some (n, direction) => do
      let context : Context := if direction = .document then .delimiter else .bare
      let (t, s) ← lex fuel context s
      match t with
      | .word w =>
        if direction = .document then
          let index := s.documentCount + s.documents.length + s.announced.length
          let a : Announced := ⟨index, unquoted w, sign = "<<-", hasQuotes w⟩
          return (⟨stream.getD n, .document, [.text true (toString index).toList]⟩,
            { s with announced := s.announced ++ [a] })
        else return (⟨stream.getD n, direction, w⟩, s)
      | t => unexpectedAs false t "" s

def redirects : Nat → Reading (List Redirect)
  | 0, s => .ok ([], s)
  | fuel + 1, s => do
    let (t, s) ← takeFirst fuel false true s
    match t with
    | .redirect stream sign =>
      let (r, s) ← redirectTarget fuel stream sign s
      let (rs, s) ← redirects fuel s
      return (r :: rs, s)
    | t => return ([], s.push t)

/-- A list of commands. Of kind 0 and 2 it goes on over lines up to something that ends it, and of kind
0 it has at least one command unless the script ends; of kind 1 it is one line, none at the end. -/
def list : Nat → Nat → Reading (Option (List Command))
  | 0, _, s => .ok (none, s)
  | fuel + 1, kind, s => do
    let (t, s) ← takeFirst fuel (kind ≠ 1) true s
    match t with
    | .newline => return (some [], s)
    | .ending => return (if kind = 1 then none else some [], s.push t)
    | t =>
      if kind = 2 && isCloser t then return (some [], s.push t)
      else
        let (c, s) ← andOr fuel (s.push t)
        let (t, s) ← take fuel s
        let on (c : Command) (s : Source) : Except Fault (Option (List Command) × Source) := do
          let (cs, s) ← listRest fuel kind s
          return (some (c :: cs), s)
        match t with
        | .ending => return (some [c], s.push t)
        | .newline => on c (s.push t)
        | .sign "&" => on (.background c) s
        | .sign ";" => on c s
        | t => if kind = 1 then unexpected t "" s else return (some [c], s.push t)

def listRest : Nat → Nat → Reading (List Command)
  | 0, _, s => .ok ([], s)
  | fuel + 1, kind, s => do
    let (t, s) ← takeFirst fuel (kind ≠ 1) true s
    match t with
    | .newline => return ([], s)
    | t =>
      if isCloser t && (kind ≠ 1 || match t with
          | .ending => true
          | _ => false) then return ([], s.push t)
      else
        let (c, s) ← andOr fuel (s.push t)
        let (t, s) ← take fuel s
        let on (c : Command) (s : Source) : Except Fault (List Command × Source) := do
          let (cs, s) ← listRest fuel kind s
          return (c :: cs, s)
        match t with
        | .ending => return ([c], s.push t)
        | .newline => on c (s.push t)
        | .sign "&" => on (.background c) s
        | .sign ";" => on c s
        | t => if kind = 1 then unexpected t "" s else return ([c], s.push t)

def block : Nat → Reading Command
  | 0, s => .ok (emptyCommand, s)
  | fuel + 1, s => do
    let (cs, s) ← list fuel 0 s
    return (.sequence (cs.getD []), s)

def andOr : Nat → Reading Command
  | 0, s => .ok (emptyCommand, s)
  | fuel + 1, s => do
    let (c, s) ← pipeline fuel s
    andOrRest fuel c s

def andOrRest : Nat → Command → Reading Command
  | 0, c, s => .ok (c, s)
  | fuel + 1, c, s => do
    let (t, s) ← take fuel s
    match t with
    | .sign "&&" =>
      let (t, s) ← takeFirst fuel true true s
      let (d, s) ← pipeline fuel (s.push t)
      andOrRest fuel (.both c d) s
    | .sign "||" =>
      let (t, s) ← takeFirst fuel true true s
      let (d, s) ← pipeline fuel (s.push t)
      andOrRest fuel (.either c d) s
    | t => return (c, s.push t)

def pipeline : Nat → Reading Command
  | 0, s => .ok (emptyCommand, s)
  | fuel + 1, s => do
    let (t, s) ← takeFirst fuel false true s
    if keyword? t = some "!" then
      let (t, s) ← takeFirst fuel false true s
      let (c, s) ← stages fuel (s.push t)
      return (.negated c, s)
    else stages fuel (s.push t)

def stages : Nat → Reading Command
  | 0, s => .ok (emptyCommand, s)
  | fuel + 1, s => do
    let (c, s) ← command fuel s
    let (cs, s) ← laterStages fuel s
    return (if cs.isEmpty then c else .pipeline (c :: cs), s)

def laterStages : Nat → Reading (List Command)
  | 0, s => .ok ([], s)
  | fuel + 1, s => do
    let (t, s) ← take fuel s
    match t with
    | .sign "|" =>
      let (t, s) ← takeFirst fuel true true s
      let (c, s) ← command fuel (s.push t)
      let (cs, s) ← laterStages fuel s
      return (c :: cs, s)
    | t => return ([], s.push t)

def command : Nat → Reading Command
  | 0, s => .ok (emptyCommand, s)
  | fuel + 1, s => do
    let (t, s) ← takeFirst fuel false true s
    let line := s.line
    let whole (marked : Bool) (c : Command) (s : Source) : Except Fault (Command × Source) := do
      let (rs, s) ← redirects fuel s
      return (if rs.isEmpty && !marked then c else .redirected line c rs, s)
    let closed (closing : String) (c : Command) (s : Source) : Except Fault (Command × Source) := do
      let ((), s) ← expect fuel false closing s
      whole false c s
    match t with
    | .sign "(" =>
      let (c, s) ← block fuel s
      closed ")" (.subshell c) s
    | .redirect _ _ => simple fuel line (s.push t)
    | t => match keyword? t with
      | some "\x7b" =>
        let (c, s) ← block fuel s
        closed "\x7d" c s
      | some "if" =>
        let (c, s) ← conditional fuel s
        closed "fi" c s
      | some "while" =>
        let (c, s) ← loopAfter fuel false s
        whole false c s
      | some "until" =>
        let (c, s) ← loopAfter fuel true s
        whole false c s
      | some "for" =>
        let (c, s) ← forLoop fuel s
        whole true c s
      | some "case" =>
        let (c, s) ← choice fuel s
        whole true c s
      | some k => if keywords.contains k then unexpected t "" s else simple fuel line (s.push t)
      | none => match t with
        | .word _ => simple fuel line (s.push t)
        | t => unexpected t "" s

/-- The parts of a simple command that are still to come; `first` where an assignment or the name of
the command can stand. -/
def simpleParts : Nat → Bool → Reading (List (String × Word) × List Word × List Redirect)
  | 0, _, s => .ok (([], [], []), s)
  | fuel + 1, first, s => do
    let (opened, behind) := s.skipBlanks.leaveAliases
    let s := if s.pushed.isSome then s else behind
    let (t, s) ← if first || (opened && s.pushed.isNone) then takeFirst fuel false false s else take fuel s
    match t with
    | .redirect stream sign =>
      let (r, s) ← redirectTarget fuel stream sign s
      let ((as, ws, rs), s) ← simpleParts fuel first s
      return ((as, ws, r :: rs), s)
    | .word w => match if first then assignment? w else none with
      | some a =>
        let ((as, ws, rs), s) ← simpleParts fuel true s
        return ((a :: as, ws, rs), s)
      | none =>
        let ((as, ws, rs), s) ← simpleParts fuel false s
        return ((as, w :: ws, rs), s)
    | t => return (([], [], []), s.push t)

def simple : Nat → Nat → Reading Command
  | 0, _, s => .ok (emptyCommand, s)
  | fuel + 1, line, s => do
    let ((as, ws, rs), s) ← simpleParts fuel true s
    let (t, s) ← take fuel s
    match t, as, ws, rs with
    | .sign "(", [], [w], [] =>
      let (t, s) ← take fuel s
      match t with
      | .sign ")" =>
        let name := unquoted w
        if hasQuotes w || !isName name || specialNames.contains (String.ofList name) then
          s.fault "Bad function name"
        else
          let (t, s) ← takeFirst fuel true true s
          let (c, s) ← command fuel (s.push t)
          return (.define (String.ofList name) c, s)
      | t => unexpectedAs false t "\")\"" s
    | t, as, ws, rs => return (.simple line as ws rs, s.push t)

def conditional : Nat → Reading Command
  | 0, s => .ok (emptyCommand, s)
  | fuel + 1, s => do
    let (condition, s) ← block fuel s
    let ((), s) ← expect fuel false "then" s
    let (success, s) ← block fuel s
    let (t, s) ← take fuel s
    match keyword? t with
    | some "else" =>
      let (failure, s) ← block fuel s
      return (.branch condition success failure, s)
    | some "elif" =>
      let (failure, s) ← conditional fuel s
      return (.branch condition success failure, s)
    | _ => return (.branch condition success emptyCommand, s.push t)

def loopBody : Nat → Reading Command
  | 0, s => .ok (emptyCommand, s)
  | fuel + 1, s => do
    let (body, s) ← block fuel s
    let ((), s) ← expect fuel false "done" s
    return (body, s)

def loopAfter : Nat → Bool → Reading Command
  | 0, _, s => .ok (emptyCommand, s)
  | fuel + 1, until_, s => do
    let (condition, s) ← block fuel s
    let ((), s) ← expect fuel false "do" s
    let (body, s) ← loopBody fuel s
    return (.loop until_ condition body, s)

def wordList : Nat → Reading (List Word × Token)
  | 0, s => .ok (([], .ending), s)
  | fuel + 1, s => do
    let (t, s) ← take fuel s
    match t with
    | .word w =>
      let ((ws, t), s) ← wordList fuel s
      return ((w :: ws, t), s)
    | t => return (([], t), s)

def forLoop : Nat → Reading Command
  | 0, s => .ok (emptyCommand, s)
  | fuel + 1, s => do
    let (t, s) ← take fuel s
    match (keyword? t).filter fun name => isName name.toList with
    | none => s.fault "Bad for loop variable"
    | some name =>
      let (t, s) ← takeFirst fuel true true s
      let (words, s) ← if keyword? t = some "in" then do
          let ((ws, t), s) ← wordList fuel s
          match t with
          | .newline => pure (some ws, s)
          | .sign ";" => pure (some ws, s)
          | t => unexpectedAs false t "" s
        else match t with
          | .sign ";" => pure (none, s)
          | t => pure (none, s.push t)
      let (t, s) ← takeFirst fuel true true s
      let ((), s) ← expect fuel false "do" (s.push t)
      let (body, s) ← loopBody fuel s
      return (.each name words body, s)

def choice : Nat → Reading Command
  | 0, s => .ok (emptyCommand, s)
  | fuel + 1, s => do
    let (t, s) ← take fuel s
    match t with
    | .word w =>
      let (t, s) ← takeFirst fuel true true s
      let ((), s) ← expect fuel false "in" (s.push t)
      let (cases, s) ← choiceItems fuel s
      return (.choose w cases, s)
    | t => unexpectedAs false t "word" s

def patterns : Nat → Token → Reading (List Word)
  | 0, _, s => .ok ([], s)
  | fuel + 1, t, s => do
    let w := match t with
      | .word w => w
      | _ => []
    let (next, s) ← take fuel s
    match next with
    | .sign "|" =>
      let (t, s) ← take fuel s
      let (ws, s) ← patterns fuel t s
      return (w :: ws, s)
    | .sign ")" => return ([w], s)
    | next => unexpectedAs false next "\")\"" s

def choiceItems : Nat → Reading (List (List Word × Command))
  | 0, s => .ok ([], s)
  | fuel + 1, s => do
    let (t, s) ← takeBeyondLines fuel s
    if keyword? t = some "esac" then return ([], s)
    else
      let (t, s) ← match t with
        | .sign "(" => take fuel s
        | t => pure (t, s)
      let (ps, s) ← patterns fuel t s
      let (body, s) ← list fuel 2 s
      let item := (ps, Command.sequence (body.getD []))
      let (t, s) ← takeBeyondLines fuel s
      match t with
      | .sign ";;" =>
        let (items, s) ← choiceItems fuel s
        return (item :: items, s)
      | t => if keyword? t = some "esac" then return ([item], s) else unexpected t ";;" s

end

def next : Reading (Option Command) := fun s => do
  let (cs, s) ← list (30 * s.rest.length + 20000) 1 { s with pushed := none }
  return (cs.map .sequence, s)

end Anneal.Shell
