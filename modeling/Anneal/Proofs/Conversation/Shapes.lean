import Anneal.Proofs.Conversation.Failures
import Anneal.Proofs.Text.Lines

/-! Two conversations in step, one with a backend that takes text and one with a backend that takes
messages. As long as the answers are the same, so are the histories, and each text is the message
list of the same turn, written out. -/

namespace Anneal.Agent

open Scripted (Part Script)

variable {σ τ : Type}

def labelled (m : Message) : String :=
  (match m.role with
    | .system => "System: "
    | .user => "User: "
    | .assistant => "Assistant: ") ++ m.content

/-- A line for each message, and behind them the label of the answer that is due. -/
def transcript (messages : List Message) : String :=
  "\n".intercalate (messages.map labelled) ++ "\nAssistant:"

theorem line_eq (m : Message) : m.line = labelled m := by
  obtain ⟨role, content⟩ := m
  cases role <;> rfl

theorem promptOf_text (messages : List Message) :
    promptOf messages .text = .text (transcript messages) := by
  have hlines : messages.map Message.line = messages.map labelled :=
    List.map_congr_left fun m _ => line_eq m
  rw [promptOf, transcript, ← hlines, Text.join_eq_intercalate]

def exchangeText (e : Exchange) : String :=
  "User: " ++ e.user ++ "\n" ++ "Assistant: " ++ e.assistant ++ "\n" ++
    match e.note with
    | none => ""
    | some note => "System: " ++ note ++ "\n"

/-- What a text backend is sent for an input behind these exchanges. -/
def spoken (systemPrompt : String) (kept : List Exchange) (input : String) : String :=
  "System: " ++ Text.trim systemPrompt ++ "\n" ++ String.join (kept.map exchangeText) ++
    "User: " ++ input ++ "\nAssistant:"

theorem transcript_cons (m : Message) {messages : List Message} (h : messages ≠ []) :
    transcript (m :: messages) = labelled m ++ "\n" ++ transcript messages := by
  have hne : messages.map labelled ≠ [] := by simpa using h
  rw [transcript, List.map_cons, String.intercalate_cons_of_ne_nil hne, transcript,
    String.append_assoc, String.append_assoc]

theorem transcript_pairs (es : List Exchange) (input : String) :
    transcript (History.pairs es ++ [.user input]) =
      String.join (es.map exchangeText) ++ ("User: " ++ input ++ "\nAssistant:") := by
  induction es with
  | nil =>
    rw [History.pairs, List.nil_append, transcript, List.map_singleton]
    simp [labelled, Message.user]
  | cons e es ih =>
    obtain ⟨user, assistant, note⟩ := e
    rw [List.map_cons, String.join_cons, String.append_assoc, ← ih]
    cases note with
    | none =>
      rw [History.pairs, List.cons_append, List.cons_append, transcript_cons _ (by simp),
        transcript_cons _ (by simp)]
      simp only [exchangeText, labelled, Message.user, Message.assistant, String.append_assoc,
        String.empty_append]
    | some note =>
      rw [History.pairs, List.cons_append, List.cons_append, List.cons_append,
        transcript_cons _ (by simp), transcript_cons _ (by simp), transcript_cons _ (by simp)]
      simp only [exchangeText, labelled, Message.user, Message.assistant, Message.system,
        String.append_assoc]

theorem transcript_shown (systemPrompt : String) (maxHistory : Nat) (es : List Event)
    (input : String) : transcript (shown systemPrompt maxHistory es input) =
      spoken systemPrompt
        ((History.recorded (es.filterMap Event.op?)).rtake (max maxHistory 1)) input := by
  rw [shown, List.cons_append, transcript_cons _ (by simp), transcript_pairs, spoken]
  simp only [labelled, Message.system, String.append_assoc]

/-- A turn with a backend that takes text, and the same turn with one that takes messages. -/
inductive Alike : Event → Event → Prop where
  | chat (input : String) (options : CompletionOptions) (messages : List Message)
      (result : Answer) :
      Alike (.chat input options [(.text (transcript messages), result)] result)
        (.chat input options [(.messages messages, result)] result)
  | annotate (note : String) : Alike (.annotate note) (.annotate note)

section Step

variable {a a' : Agent} {e e' : Event} {es es' : List Event}

theorem alike_of_told (h : Told (.ok .text) a e) (h' : Told (.ok .messages) a' e')
    (hhistory : a.history = a'.history) (hturn : e.turn = e'.turn)
    (hanswers : e.answers = e'.answers) : Alike e e' := by
  cases e with
  | annotate note =>
    cases e' with
    | annotate note' =>
      cases hturn
      exact .annotate note
    | chat => cases hturn
  | chat input options asked result =>
    cases e' with
    | annotate => cases hturn
    | chat input' options' asked' result' =>
      cases hturn
      obtain rfl := h.2 .text rfl
      obtain rfl := h'.2 .messages rfl
      cases hanswers
      rw [hhistory, promptOf_text]
      exact .chat input options _ result

theorem Alike.op? (h : Alike e e') : e.op? = e'.op? := by
  cases h with
  | annotate => rfl
  | chat input options messages result => cases result <;> rfl

theorem Alike.apply (h : Alike e e') (hhistory : a.history = a'.history) :
    (e.apply a).history = (e'.apply a').history := by
  unfold Event.apply
  rw [h.op?]
  cases e'.op? with
  | none => exact hhistory
  | some op =>
    dsimp only
    rw [hhistory]

/-- The histories stay the same from turn to turn, and so the turns stay alike. -/
theorem Faithful.alike (h : Faithful (.ok .text) a es) (h' : Faithful (.ok .messages) a' es')
    (hhistory : a.history = a'.history) (hturns : es.map Event.turn = es'.map Event.turn)
    (hanswers : es.map Event.answers = es'.map Event.answers) :
    List.Forall₂ Alike es es' ∧
      (es.foldl Event.apply a).history = (es'.foldl Event.apply a').history := by
  induction es generalizing a a' es' with
  | nil =>
    obtain rfl := List.map_eq_nil_iff.1 hturns.symm
    exact ⟨.nil, hhistory⟩
  | cons e es ih =>
    cases es' with
    | nil => cases hturns
    | cons e' es' =>
      obtain ⟨hturn, hmore⟩ := List.cons.inj hturns
      obtain ⟨hanswer, hothers⟩ := List.cons.inj hanswers
      have halike := alike_of_told h.1 h'.1 hhistory hturn hanswer
      obtain ⟨hlater, hend⟩ := ih h.2 h'.2 (halike.apply hhistory) hmore hothers
      exact ⟨.cons halike hlater, hend⟩

end Step

/-- Two conversations that differ in the shape of the prompts only. -/
structure InStep (told : Conversation σ) (listed : Conversation τ) : Prop where
  turns : List.Forall₂ Alike told.events listed.events
  history : told.agent.history = listed.agent.history

theorem converse_inStep {texts : Client σ} {lists : Client τ} (turns : List Turn) (a a' : Agent)
    (w : World σ) (w' : World τ) (htexts : texts.shape a.backend = .ok .text)
    (hlists : lists.shape a'.backend = .ok .messages) (hhistory : a.history = a'.history)
    (hanswers : (converse texts turns a w).events.map Event.answers =
      (converse lists turns a' w').events.map Event.answers) :
    InStep (converse texts turns a w) (converse lists turns a' w') := by
  obtain ⟨hturns, htold, hend⟩ := converse_spec texts turns a w
  obtain ⟨hturns', hlisted, hend'⟩ := converse_spec lists turns a' w'
  rw [htexts] at htold
  rw [hlists] at hlisted
  obtain ⟨halike, hsame⟩ :=
    htold.alike hlisted hhistory (hturns.trans hturns'.symm) hanswers
  refine ⟨halike, ?_⟩
  rw [hend, hend']
  exact hsame

def scriptedAnswers (backend : String) : List Turn → List Answer → List (List Answer)
  | [], _ => []
  | .annotate _ :: turns, queue => [] :: scriptedAnswers backend turns queue
  | .chat _ _ :: turns, queue =>
    [queue.headD (.error (Scripted.noReplyLeft backend))] ::
      scriptedAnswers backend turns (queue.drop 1)

theorem chat_complete (client : Client σ) (a : Agent) (input : String)
    (options : CompletionOptions) (w : World σ) {shape : PromptShape}
    (h : client.shape a.backend = .ok shape) :
    (a.chat client input options w).1 =
        (client.complete a.backend (a.promptFor input shape) options w).1 ∧
      (a.chat client input options w).2.2 =
        (client.complete a.backend (a.promptFor input shape) options w).2 := by
  unfold chat
  rw [h]
  dsimp only
  generalize client.complete a.backend (a.promptFor input shape) options w = r
  obtain ⟨answer, w'⟩ := r
  cases answer with
  | error => exact ⟨rfl, rfl⟩
  | ok => exact ⟨rfl, rfl⟩

theorem scripted_complete (part : Part) (backend : String) (prompt : Prompt) (w : World Script) :
    (Scripted.complete part backend prompt w).1 =
        (w.outside.replies part).queue.headD (.error (Scripted.noReplyLeft backend)) ∧
      ((Scripted.complete part backend prompt w).2.outside.replies part).queue =
        (w.outside.replies part).queue.drop 1 := by
  unfold Scripted.complete Scripted.cancelDuring
  dsimp only
  constructor
  · cases (w.outside.replies part).queue <;> rfl
  · split <;> simp [Scripted.setReplies, World.cancel]

theorem take_scripted (part : Part) (shape : PromptShape) (a : Agent) (w : World Script)
    (t : Turn) (turns : List Turn) :
    let taken := t.take (Scripted.client part shape) a w
    scriptedAnswers a.backend (t :: turns) (w.outside.replies part).queue =
      taken.1.answers ::
        scriptedAnswers a.backend turns (taken.2.2.outside.replies part).queue := by
  cases t with
  | annotate note => rfl
  | chat input options =>
    intro taken
    obtain ⟨hresult, hworld⟩ :=
      chat_complete (Scripted.client part shape) a input options w rfl
    obtain ⟨hanswer, hqueue⟩ := scripted_complete part a.backend (a.promptFor input shape) w
    obtain ⟨-, htold, -⟩ := take_spec (Scripted.client part shape) a w (.chat input options)
    have hasked : taken.1.answers = [(a.chat (Scripted.client part shape) input options w).1] :=
      congrArg (List.map Prod.snd) (htold.2 shape rfl)
    have hafter : taken.2.2 =
        (Scripted.complete part a.backend (a.promptFor input shape) w).2 := hworld
    rw [scriptedAnswers, ← hanswer, ← hqueue, hasked, hresult, hafter]
    rfl

theorem answers_scripted (part : Part) (shape : PromptShape) (turns : List Turn) (a : Agent)
    (w : World Script) :
    (converse (Scripted.client part shape) turns a w).events.map Event.answers =
      scriptedAnswers a.backend turns (w.outside.replies part).queue := by
  induction turns generalizing a w with
  | nil => rfl
  | cons t turns ih =>
    obtain ⟨-, -, hagent⟩ := take_spec (Scripted.client part shape) a w t
    have hbackend : (t.take (Scripted.client part shape) a w).2.1.backend = a.backend := by
      rw [hagent, apply_backend]
    rw [converse, take_scripted part shape, List.map_cons, ih, hbackend]

/-- Agents that talk to a text backend and to a chat backend stay in step as long as they get the
same answers, as from two copies of a script, and what the text backend is sent is the system
prompt, the exchanges that are kept, each note behind its exchange, and the input. -/
theorem shapes_stay_in_step (texts : Client σ) (lists : Client τ)
    (backend backend' systemPrompt : String) (maxHistory : Nat) (turns : List Turn) (w : World σ)
    (w' : World τ) (htexts : texts.shape backend = .ok .text)
    (hlists : lists.shape backend' = .ok .messages) :
    let told := converse texts turns (.new backend systemPrompt maxHistory) w
    let listed := converse lists turns (.new backend' systemPrompt maxHistory) w'
    (told.events.map Event.answers = listed.events.map Event.answers → InStep told listed) ∧
    (∀ before input options asked result after,
      told.events = before ++ .chat input options asked result :: after →
      asked = [(.text (spoken systemPrompt
        ((History.recorded (before.filterMap Event.op?)).rtake (max maxHistory 1)) input),
        result)]) ∧
    ∀ (part : Part) (s s' : World Script),
      (s.outside.replies part).queue = (s'.outside.replies part).queue →
      InStep (converse (Scripted.client part .text) turns (.new backend systemPrompt maxHistory) s)
        (converse (Scripted.client part .messages) turns
          (.new backend systemPrompt maxHistory) s') := by
  intro told listed
  refine ⟨?_, fun before input options asked result after hsplit => ?_, fun part s s' hqueue => ?_⟩
  · intro hanswers
    exact converse_inStep turns _ _ w w' htexts hlists rfl hanswers
  · obtain ⟨-, htold, -⟩ := converse_spec texts turns (.new backend systemPrompt maxHistory) w
    have hfull : Faithful (texts.shape backend) (.new backend systemPrompt maxHistory)
        (before ++ .chat input options asked result :: after) := hsplit ▸ htold
    have hasked := hfull.told.2 .text htexts
    rwa [messagesWith_eq, promptOf_text, transcript_shown] at hasked
  · refine converse_inStep turns _ _ s s' rfl rfl rfl ?_
    rw [answers_scripted, answers_scripted, hqueue]

def shapedScript : World Script :=
  answering [.ok "one", .error (.transport "scripted" "timed out"), .ok "three"]

def shapedTurns : List Turn :=
  [.chat "first" {}, .annotate "a", .chat "second" {}, .annotate "b", .chat "third" {}]

def shapedTalk (shape : PromptShape) (w : World Script) : Conversation Script :=
  converse (Scripted.client .explainer shape) shapedTurns
    (.new "scripted" " Be brief.\n" 1) w

theorem shaped_talk_in_step :
    (shapedTalk .text shapedScript).events.map Event.answers =
      (shapedTalk .messages shapedScript).events.map Event.answers ∧
    InStep (shapedTalk .text shapedScript) (shapedTalk .messages shapedScript) ∧
    (∃ before asked, (shapedTalk .text shapedScript).events =
        before ++ [.chat "third" {} asked (.ok "three")] ∧
      asked = [(.text ("System: Be brief.\nUser: first\nAssistant: one\nSystem: b\n" ++
        "User: third\nAssistant:"), .ok "three")]) ∧
    InStep (shapedTalk .text shapedScript) (shapedTalk .messages (shapedScript.pause 5)) := by
  obtain ⟨hstep, hspoken, hscripted⟩ := shapes_stay_in_step
    (Scripted.client .explainer .text) (Scripted.client .explainer .messages) "scripted"
    "scripted" " Be brief.\n" 1 shapedTurns shapedScript shapedScript rfl rfl
  have hanswers : (shapedTalk .text shapedScript).events.map Event.answers =
      (shapedTalk .messages shapedScript).events.map Event.answers := rfl
  obtain ⟨asked, hsplit⟩ : ∃ asked, (shapedTalk .text shapedScript).events =
      (shapedTalk .text shapedScript).events.take 4 ++
        [.chat "third" {} asked (.ok "three")] := ⟨_, rfl⟩
  exact ⟨hanswers, hstep hanswers, ⟨_, asked, hsplit, hspoken _ _ _ _ _ _ hsplit⟩,
    hscripted .explainer shapedScript (shapedScript.pause 5) rfl⟩

end Anneal.Agent
