import Anneal.Backend.Registry
import Anneal.Conversation.History

/-!
# Agents

An agent is a conversation with one backend. It sends the conversation so far with every input and
records the exchange once a reply has come; a call that fails leaves no trace.
-/

namespace Anneal

structure Agent where
  backend : String
  history : History
  deriving DecidableEq, Repr

namespace Agent

def new (backend systemPrompt : String) (maxHistory : Nat) : Agent :=
  ⟨backend, .new (Text.trim systemPrompt) maxHistory⟩

def promptFor (a : Agent) (input : String) : PromptShape → Prompt
  | .messages => .messages (a.history.messagesWith input)
  | .text => .text (a.history.transcriptWith input ++ "\nAssistant:")

def chat {σ : Type} (client : Client σ) (a : Agent) (input : String)
    (options : CompletionOptions) (w : World σ) :
    Except ClientError String × Agent × World σ :=
  match client.shape a.backend with
  | .error e => (.error e, a, w)
  | .ok shape =>
    match client.complete a.backend (a.promptFor input shape) options w with
    | (.error e, w) => (.error e, a, w)
    | (.ok reply, w) => (.ok reply, { a with history := a.history.record input reply }, w)

/-- Attaches a note to the newest exchange. -/
def annotate (a : Agent) (note : String) : Agent :=
  { a with history := (a.history.annotate note).2 }

end Agent
end Anneal
