import Anneal.Conversation.Agent
import Anneal.Proofs.Conversation.Bounded

/-! An agent by everything that it was told: its history is the end of that. -/

namespace Anneal

/-- What of an agent stays the same in every conversation. -/
structure Speaker where
  backend : String
  systemPrompt : String
  bound : Nat
  positive : 0 < bound

namespace Speaker

open History (window)

variable {σ : Type} {speaker : Speaker} {told : List Exchange} {client : Client σ}
  {input reply : String} {options : CompletionOptions} {w w' : World σ} {a a' : Agent}

def new (backend systemPrompt : String) (maxHistory : Nat) : Speaker :=
  ⟨backend, Text.trim systemPrompt, max maxHistory 1, by omega⟩

/-- The agent after it was told these exchanges. -/
def after (speaker : Speaker) (told : List Exchange) : Agent :=
  ⟨speaker.backend, window speaker.systemPrompt speaker.bound told⟩

theorem new_after (backend systemPrompt : String) (maxHistory : Nat) :
    (new backend systemPrompt maxHistory).after [] = Agent.new backend systemPrompt maxHistory := by
  simp [after, window, new, Agent.new, History.new]

theorem chat_error {e : ClientError}
    (h : a.chat client input options w = (.error e, a', w')) : a' = a := by
  unfold Agent.chat at h
  split at h
  · cases h
    rfl
  · split at h
    · cases h
      rfl
    · cases h

theorem chat_ok
    (h : (speaker.after told).chat client input options w = (.ok reply, a, w')) :
    a = speaker.after (told ++ [⟨input, reply, none⟩]) := by
  unfold Agent.chat at h
  split at h
  · cases h
  · split at h
    · cases h
    · cases h
      dsimp only [after]
      rw [History.record_window speaker.positive]

theorem annotate_after {e : Exchange} {note : String} :
    (speaker.after (told ++ [e])).annotate note =
      speaker.after (told ++ [{ e with note := some note }]) := by
  dsimp only [Agent.annotate, after]
  rw [History.annotate_window speaker.positive, History.annotateList_append]

end Speaker
end Anneal
