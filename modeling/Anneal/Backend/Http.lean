import Anneal.Backend.Error
import Anneal.Json.Value
import Anneal.World

/-!
# HTTP requests

A request and what may come back. How a request travels is up to the connection; one whose address
or headers cannot be sent at all fails before anybody is called.
-/

namespace Anneal.Http

structure Request where
  url : String
  headers : List (String × String)
  body : Json

structure Response where
  status : Nat
  body : String
  deriving DecidableEq, Repr

/-- What carries a request: a response, or why there is none. -/
abbrev Connection (σ : Type) := Request → World σ → Except String Response × World σ

def isSuccess (status : Nat) : Bool := 200 ≤ status && status ≤ 299

def isSchemeChar (c : Char) : Bool := c.isAlphanum || ['+', '-', '.'].contains c

def scheme? (url : List Char) : Option (List Char × List Char) :=
  let scheme := url.takeWhile isSchemeChar
  match scheme, url.drop scheme.length with
  | first :: _, ':' :: rest => if first.isAlpha then some (scheme, rest) else none
  | _, _ => none

def isWebScheme (scheme : List Char) : Bool :=
  let name := Text.lowerChars scheme
  name == "http".toList || name == "https".toList

def isPort (cs : List Char) : Bool :=
  cs.all Char.isDigit && (String.ofList cs).toNat?.getD 0 < 65536

def endsAuthority (c : Char) : Bool := c = '/' || c = '?' || c = '#'

def hasHost (rest : List Char) : Bool :=
  let authority := (rest.dropWhile (· == '/')).takeWhile fun c => !endsAuthority c
  let host := authority.takeWhile (· != ':')
  !host.isEmpty && !host.any Text.isBlank && isPort (authority.drop (host.length + 1))

def isTokenChar (c : Char) : Bool := c.isAlphanum || "!#$%&'*+-.^_`|~".toList.contains c

def isHeaderName (s : String) : Bool := !s.isEmpty && s.toList.all isTokenChar

def isHeaderValue (s : String) : Bool :=
  s.toList.all fun c => (32 ≤ c.toNat && c.toNat ≠ 127) || c = '\t'

def unsendableText : String := "builder error"

/-- Why a request cannot be sent, if so: its address is not absolute, has no host, or a header is
malformed. -/
def Request.complaint? (r : Request) : Option String :=
  match scheme? r.url.toList with
  | none => some unsendableText
  | some (scheme, rest) =>
    if isWebScheme scheme && !hasHost rest then some unsendableText
    else if !isWebScheme scheme && !"//".toList.isPrefixOf rest then
      some s!"{unsendableText} for url ({r.url})"
    else if r.headers.all fun h => isHeaderName h.1 && isHeaderValue h.2 then none
    else some unsendableText

def checking {σ : Type} (connection : Connection σ) : Connection σ := fun request w =>
  match request.complaint? with
  | some text => (.error text, w)
  | none => connection request w

def unansweredText (url : String) : String := s!"error sending request for url ({url})"

def unreachable {σ : Type} : Connection σ := checking fun request w =>
  (.error (unansweredText request.url), w)

end Anneal.Http
