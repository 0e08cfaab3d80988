import Anneal.Conversation.Agent
import Anneal.Proofs.Conversation.Bounded
import Anneal.Scripted

/-! Conversations with a client that may fail. A chat that fails changes nothing that a later turn
could notice, so a conversation is told by its other turns alone. What the client was sent in a
chat is seen by letting a watched twin take the call. -/

namespace Anneal

variable {σ τ : Type}

namespace Agent

abbrev Answer := Except ClientError String

inductive Turn where
  | chat (input : String) (options : CompletionOptions)
  | annotate (note : String)

/-- A turn as it went: of a chat, what the client was sent with its answers, and what came of it. -/
inductive Event where
  | chat (input : String) (options : CompletionOptions) (asked : List (Prompt × Answer))
      (result : Answer)
  | annotate (note : String)

def Event.turn : Event → Turn
  | .chat input options _ _ => .chat input options
  | .annotate note => .annotate note

def Event.answers : Event → List Answer
  | .chat _ _ asked _ => asked.map Prod.snd
  | .annotate _ => []

def Event.failed : Event → Bool
  | .chat _ _ _ (.error _) => true
  | _ => false

/-- What the history gets of a turn. -/
def Event.op? : Event → Option History.Op
  | .chat input _ _ (.ok reply) => some (.record input reply)
  | .chat _ _ _ (.error _) => none
  | .annotate note => some (.annotate note)

def watched (client : Client σ) : Client (List (Prompt × Answer) × σ) where
  shape := client.shape
  complete backend prompt options w :=
    let r := client.complete backend prompt options (w.withOutside w.outside.2)
    (r.1, r.2.withOutside (w.outside.1 ++ [(prompt, r.1)], r.2.outside))

def Turn.take (client : Client σ) (a : Agent) (w : World σ) : Turn → Event × Agent × World σ
  | .chat input options =>
    let r := a.chat client input options w
    let seen := a.chat (watched client) input options (w.withOutside ([], w.outside))
    (.chat input options seen.2.2.outside.1 r.1, r.2.1, r.2.2)
  | .annotate note => (.annotate note, a.annotate note, w)

structure Conversation (σ : Type) where
  events : List Event
  agent : Agent
  world : World σ

def converse (client : Client σ) : List Turn → Agent → World σ → Conversation σ
  | [], a, w => ⟨[], a, w⟩
  | t :: turns, a, w =>
    let r := t.take client a w
    let rest := converse client turns r.2.1 r.2.2
    ⟨r.1 :: rest.events, rest.agent, rest.world⟩

/-- A list of messages in the shape that a backend takes. -/
def promptOf (messages : List Message) : PromptShape → Prompt
  | .messages => .messages messages
  | .text => .text (Text.join "\n" (messages.map Message.line) ++ "\nAssistant:")

def Event.apply (a : Agent) (e : Event) : Agent :=
  match e.op? with
  | some op => { a with history := op.apply a.history }
  | none => a

def Told (shape : Except ClientError PromptShape) (a : Agent) : Event → Prop
  | .chat input _ asked result =>
    (∀ e, shape = .error e → asked = [] ∧ result = .error e) ∧
      ∀ s, shape = .ok s → asked = [(promptOf (a.history.messagesWith input) s, result)]
  | .annotate _ => True

theorem promptFor_eq (a : Agent) (input : String) (s : PromptShape) :
    a.promptFor input s = promptOf (a.history.messagesWith input) s := by
  cases s <;> rfl

theorem take_spec (client : Client σ) (a : Agent) (w : World σ) (t : Turn) :
    (t.take client a w).1.turn = t ∧ Told (client.shape a.backend) a (t.take client a w).1 ∧
      (t.take client a w).2.1 = (t.take client a w).1.apply a := by
  cases t with
  | annotate note => exact ⟨rfl, trivial, rfl⟩
  | chat input options =>
    have hwatched : (watched client).shape a.backend = client.shape a.backend := rfl
    unfold Turn.take chat
    dsimp only
    rw [hwatched]
    cases hs : client.shape a.backend with
    | error e =>
      refine ⟨rfl, ⟨?_, ?_⟩, rfl⟩
      · rintro _ ⟨⟩
        exact ⟨rfl, rfl⟩
      · rintro s ⟨⟩
    | ok s =>
      dsimp only [watched, World.withOutside]
      rw [promptFor_eq]
      generalize client.complete a.backend _ options w = r
      obtain ⟨answer, w'⟩ := r
      have htold : Told (.ok s) a (.chat input options
          [(promptOf (a.history.messagesWith input) s, answer)] answer) := by
        refine ⟨?_, ?_⟩
        · rintro e ⟨⟩
        · rintro _ ⟨⟩
          rfl
      cases answer with
      | error e => exact ⟨rfl, htold, rfl⟩
      | ok reply => exact ⟨rfl, htold, rfl⟩

/-- Every turn is what the agent does in it after the turns before. -/
def Faithful (shape : Except ClientError PromptShape) : Agent → List Event → Prop
  | _, [] => True
  | a, e :: es => Told shape a e ∧ Faithful shape (e.apply a) es

@[simp] theorem apply_backend (a : Agent) (e : Event) : (e.apply a).backend = a.backend := by
  unfold Event.apply
  split <;> rfl

theorem converse_spec (client : Client σ) (turns : List Turn) (a : Agent) (w : World σ) :
    (converse client turns a w).events.map Event.turn = turns ∧
      Faithful (client.shape a.backend) a (converse client turns a w).events ∧
      (converse client turns a w).agent =
        (converse client turns a w).events.foldl Event.apply a := by
  induction turns generalizing a w with
  | nil => exact ⟨rfl, trivial, rfl⟩
  | cons t turns ih =>
    obtain ⟨hturn, htold, hagent⟩ := take_spec client a w t
    obtain ⟨hturns, hrest, hend⟩ := ih (t.take client a w).2.1 (t.take client a w).2.2
    rw [hagent] at hturns hrest hend
    rw [apply_backend] at hrest
    rw [converse]
    dsimp only
    rw [hagent]
    refine ⟨?_, ⟨htold, hrest⟩, hend⟩
    rw [List.map_cons, hturn, hturns]

section Faithful

variable {shape : Except ClientError PromptShape} {a : Agent} {e e' : Event}
  {es es' : List Event}

theorem apply_of_failed (h : e.failed = true) : e.apply a = a := by
  cases e with
  | annotate => cases h
  | chat _ _ _ result =>
    cases result with
    | ok => cases h
    | error => rfl

theorem foldl_apply_filter (a : Agent) (es : List Event) :
    (es.filter fun e => !e.failed).foldl Event.apply a = es.foldl Event.apply a := by
  induction es generalizing a with
  | nil => rfl
  | cons e es ih =>
    by_cases he : e.failed = true
    · rw [List.filter_cons_of_neg (by simp [he]), ih, List.foldl_cons, apply_of_failed he]
    · rw [List.filter_cons_of_pos (by simp [he]), List.foldl_cons, ih, List.foldl_cons]

theorem Faithful.filter (h : Faithful shape a es) :
    Faithful shape a (es.filter fun e => !e.failed) := by
  induction es generalizing a with
  | nil => trivial
  | cons e es ih =>
    obtain ⟨htold, hrest⟩ := h
    by_cases he : e.failed = true
    · rw [List.filter_cons_of_neg (by simp [he])]
      rw [apply_of_failed he] at hrest
      exact ih hrest
    · rw [List.filter_cons_of_pos (by simp [he])]
      exact ⟨htold, ih hrest⟩

/-- The turn and the answers of the client leave nothing open. -/
theorem Told.unique (h : Told shape a e) (h' : Told shape a e') (hturn : e.turn = e'.turn)
    (hanswers : e.answers = e'.answers) : e = e' := by
  cases e with
  | annotate note =>
    cases e' with
    | annotate note' =>
      cases hturn
      rfl
    | chat => cases hturn
  | chat input options asked result =>
    cases e' with
    | annotate => cases hturn
    | chat input' options' asked' result' =>
      cases hturn
      cases shape with
      | error f =>
        obtain ⟨rfl, rfl⟩ := h.1 f rfl
        obtain ⟨rfl, rfl⟩ := h'.1 f rfl
        rfl
      | ok s =>
        obtain rfl := h.2 s rfl
        obtain rfl := h'.2 s rfl
        cases hanswers
        rfl

theorem Faithful.unique (h : Faithful shape a es) (h' : Faithful shape a es')
    (hturns : es.map Event.turn = es'.map Event.turn)
    (hanswers : es.map Event.answers = es'.map Event.answers) : es = es' := by
  induction es generalizing a es' with
  | nil => exact (List.map_eq_nil_iff.1 hturns.symm).symm
  | cons e es ih =>
    cases es' with
    | nil => cases hturns
    | cons e' es' =>
      obtain ⟨hturn, hmore⟩ := List.cons.inj hturns
      obtain ⟨hanswer, hothers⟩ := List.cons.inj hanswers
      obtain rfl := h.1.unique h'.1 hturn hanswer
      rw [ih h.2 h'.2 hmore hothers]

theorem Faithful.told {before after : List Event} (h : Faithful shape a (before ++ e :: after)) :
    Told shape (before.foldl Event.apply a) e := by
  induction before generalizing a with
  | nil => exact h.1
  | cons _ before ih => exact ih h.2

theorem foldl_apply_history (a : Agent) (es : List Event) :
    (es.foldl Event.apply a).history = History.run a.history (es.filterMap Event.op?) := by
  induction es generalizing a with
  | nil => rfl
  | cons e es ih =>
    rw [List.foldl_cons, ih, List.filterMap_cons, Event.apply]
    cases e.op? <;> rfl

theorem sinceReset_ops (es : List Event) :
    History.sinceReset (es.filterMap Event.op?) = es.filterMap Event.op? := by
  rw [History.sinceReset, List.rtakeWhile_eq_self_iff]
  intro op hop
  obtain ⟨e, -, he⟩ := List.mem_filterMap.1 hop
  cases e with
  | annotate => cases he; rfl
  | chat _ _ _ result =>
    cases result with
    | error => cases he
    | ok => cases he; rfl

end Faithful

/-- The messages that an agent shows of what happened, with an input at the end. -/
def shown (systemPrompt : String) (maxHistory : Nat) (es : List Event) (input : String) :
    List Message :=
  .system (Text.trim systemPrompt) ::
    History.pairs ((History.recorded (es.filterMap Event.op?)).rtake (max maxHistory 1)) ++
      [.user input]

theorem messagesWith_eq (backend systemPrompt : String) (maxHistory : Nat) (es : List Event)
    (input : String) :
    (es.foldl Event.apply (.new backend systemPrompt maxHistory)).history.messagesWith input =
      shown systemPrompt maxHistory es input := by
  rw [foldl_apply_history, new, History.run_new, sinceReset_ops, History.messagesWith,
    History.messages_window, shown]

/-- Without the chats that failed a conversation is the same, if the client answers the others as
it did; and a chat shows the end of the chats that succeeded before it. -/
theorem failed_chats_leave_no_trace (client : Client σ) (other : Client τ)
    (backend systemPrompt : String) (maxHistory : Nat) (turns : List Turn) (w : World σ)
    (w' : World τ) :
    let full := converse client turns (.new backend systemPrompt maxHistory) w
    let kept := full.events.filter fun e => !e.failed
    let rest := converse other (kept.map Event.turn) (.new backend systemPrompt maxHistory) w'
    (other.shape backend = client.shape backend →
      rest.events.map Event.answers = kept.map Event.answers →
      rest.events = kept ∧ rest.agent = full.agent) ∧
    ∀ before input options asked result after,
      full.events = before ++ .chat input options asked result :: after →
      (∀ e, client.shape backend = .error e → asked = [] ∧ result = .error e) ∧
      ∀ s, client.shape backend = .ok s →
        asked = [(promptOf (shown systemPrompt maxHistory before input) s, result)] := by
  intro full kept rest
  obtain ⟨-, hfull, hagent⟩ :=
    converse_spec client turns (.new backend systemPrompt maxHistory) w
  constructor
  · intro hshape hanswers
    obtain ⟨hturns, hrest, hend⟩ :=
      converse_spec other (kept.map Event.turn) (.new backend systemPrompt maxHistory) w'
    have hsame : Faithful (client.shape backend) (.new backend systemPrompt maxHistory)
        rest.events := hshape ▸ hrest
    have hevents : rest.events = kept := hsame.unique hfull.filter hturns hanswers
    have hends : rest.agent = rest.events.foldl Event.apply (.new backend systemPrompt maxHistory) :=
      hend
    refine ⟨hevents, ?_⟩
    rw [hends, hevents, foldl_apply_filter]
    exact hagent.symm
  · intro before input options asked result after hsplit
    have hfull' : Faithful (client.shape backend) (.new backend systemPrompt maxHistory)
        (before ++ .chat input options asked result :: after) := hsplit ▸ hfull
    have htold := hfull'.told
    rw [Told, messagesWith_eq] at htold
    exact htold

def answering (answers : List Answer) : World Scripted.Script :=
  ⟨.empty, false, 0, ⟨fun _ => ⟨answers, []⟩, fun _ => ⟨[], [], 0, 0, []⟩, none⟩⟩

def talk (turns : List Turn) (answers : List Answer) : Conversation Scripted.Script :=
  converse (Scripted.client .explainer .messages) turns (.new "scripted" " Be brief.\n" 1)
    (answering answers)

def interrupted : Conversation Scripted.Script :=
  talk [.chat "first" {}, .annotate "a", .chat "second" {}, .annotate "b", .chat "third" {}]
    [.ok "one", .error (.transport "scripted" "timed out"), .ok "three"]

def uninterrupted : Conversation Scripted.Script :=
  talk [.chat "first" {}, .annotate "a", .annotate "b", .chat "third" {}] [.ok "one", .ok "three"]

theorem interrupted_talk_leaves_no_trace :
    uninterrupted.events = interrupted.events.filter (fun e => !e.failed) ∧
    uninterrupted.agent = interrupted.agent ∧
    ∃ before, interrupted.events = before ++ [.chat "third" {}
      [(.messages [.system "Be brief.", .user "first", .assistant "one", .system "b",
        .user "third"], .ok "three")] (.ok "three")] ∧
      shown " Be brief.\n" 1 before "third" =
        [.system "Be brief.", .user "first", .assistant "one", .system "b", .user "third"] := by
  obtain ⟨htrace, hshown⟩ := failed_chats_leave_no_trace (Scripted.client .explainer .messages)
    (Scripted.client .explainer .messages) "scripted" " Be brief.\n" 1
    [.chat "first" {}, .annotate "a", .chat "second" {}, .annotate "b", .chat "third" {}]
    (answering [.ok "one", .error (.transport "scripted" "timed out"), .ok "three"])
    (answering [.ok "one", .ok "three"])
  obtain ⟨hevents, hagent⟩ := htrace rfl rfl
  have hsplit : interrupted.events = interrupted.events.take 4 ++ [.chat "third" {}
      [(.messages [.system "Be brief.", .user "first", .assistant "one", .system "b",
        .user "third"], .ok "three")] (.ok "three")] := rfl
  have hasked := (hshown _ _ _ _ _ _ hsplit).2 .messages rfl
  refine ⟨hevents, hagent, interrupted.events.take 4, hsplit, ?_⟩
  simpa [promptOf] using hasked.symm

end Agent
end Anneal
