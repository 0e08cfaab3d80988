import Anneal.Conversation.Message
import Anneal.Text.Search

/-!
# Bounded conversation history

A history keeps the last exchanges behind a fixed system prompt. An exchange is a user message with
its reply and perhaps a note; when the history is full the oldest exchange leaves as a whole, so
that no message loses its counterpart.
-/

namespace Anneal

structure Exchange where
  user : String
  assistant : String
  note : Option String
  deriving DecidableEq, Repr

def Exchange.messages (e : Exchange) : List Message :=
  [.user e.user, .assistant e.assistant] ++ (e.note.map Message.system).toList

structure History where
  systemPrompt : String
  exchanges : List Exchange
  bound : Nat
  deriving DecidableEq, Repr

namespace History

/-- An empty history. At least one exchange is kept. A deque that reserves room for all of them at
once cannot be made for a bound near the size of the memory; a list needs no room, and that such a
history is refused is left out here. -/
def new (systemPrompt : String) (maxHistory : Nat) : History :=
  ⟨systemPrompt, [], max maxHistory 1⟩

/-- Appends an exchange; the oldest leaves a full history. -/
def record (h : History) (user assistant : String) : History :=
  let kept := if h.exchanges.length = h.bound then h.exchanges.drop 1 else h.exchanges
  { h with exchanges := kept ++ [⟨user, assistant, none⟩] }

def annotateList (note : String) : List Exchange → List Exchange
  | [] => []
  | [e] => [{ e with note := some note }]
  | e :: rest => e :: annotateList note rest

/-- Attaches a note to the newest exchange, if there is one. -/
def annotate (h : History) (note : String) : Bool × History :=
  (!h.exchanges.isEmpty, { h with exchanges := annotateList note h.exchanges })

def reset (h : History) : History := { h with exchanges := [] }

def messages (h : History) : List Message :=
  .system h.systemPrompt :: h.exchanges.flatMap Exchange.messages

/-- The messages with one more from the user that has no reply yet. -/
def messagesWith (h : History) (pending : String) : List Message :=
  h.messages ++ [.user pending]

def transcriptWith (h : History) (pending : String) : String :=
  Text.join "\n" ((h.messagesWith pending).map Message.line)

end History
end Anneal
