import Anneal.Proofs.Repair.Notes
import Anneal.Tool.Convert

/-! Notes in the conversation of conversions, and those of both tools together. A conversion that
got a reply adds one exchange, which carries a note just if the conversion succeeded. -/

namespace Anneal

namespace Convert

variable {σ : Type} {client : Client σ} {target : Target} {speaker : Speaker}

/-- A conversion as it was asked for and as it ended. -/
structure Conversion (σ : Type) where
  instruction : Option String
  world : World σ
  result : Except Error Converted

/-- The exchange of a conversion is annotated just if it succeeded; the note shows the code of the
reply, which is the code that was converted to. -/
structure Noted (result : Except Error Converted) (e : Exchange) : Prop where
  iff : e.note.isSome ↔ ∃ converted, result = .ok converted
  text : ∀ note, e.note = some note → ∃ found converted,
    Reply.extract e.assistant .conversion = .ok found ∧ result = .ok converted ∧
      converted.code = found.code ∧ note = conversionNote found.code

/-- The exchange, if there is one, that a conversion adds. -/
inductive Tells (client : Client σ) (target : Target) (speaker : Speaker)
    (before : List Exchange) (c : Conversion σ) : List Exchange → Prop
  | unread {e : OsError}
      (result : c.result = .error (.readReference target.referencePath e)) :
      Tells client target speaker before c []
  | refused {reference : String} {e : ClientError} {a : Agent} {w w' : World σ}
      (read : (c.world.onDisk fun d => d.readText target.referencePath) = (.ok reference, w))
      (spoken : (speaker.after before).chat client
        (Prompts.convert ⟨target.referencePath, reference⟩ c.instruction) options w =
          (.error e, a, w'))
      (result : c.result = .error (.backend e)) : Tells client target speaker before c []
  | told {reference : String} {e : Exchange} {a : Agent} {w w' : World σ}
      (read : (c.world.onDisk fun d => d.readText target.referencePath) = (.ok reference, w))
      (prompted : e.user = Prompts.convert ⟨target.referencePath, reference⟩ c.instruction)
      (spoken : (speaker.after before).chat client e.user options w = (.ok e.assistant, a, w'))
      (noted : Noted c.result e) : Tells client target speaker before c [e]

/-- What an agent that was told `log` has been told after some conversions. -/
inductive Telling (client : Client σ) (target : Target) (speaker : Speaker) :
    List Exchange → List (Conversion σ) → List Exchange → Prop
  | nil {log : List Exchange} : Telling client target speaker log [] log
  | cons {c : Conversion σ} {rest : List (Conversion σ)} {log es all : List Exchange}
      (first : Tells client target speaker log c es)
      (later : Telling client target speaker (log ++ es) rest all) :
      Telling client target speaker log (c :: rest) all

/-- Conversions by one agent, each in a world of its own. -/
def convertAll (client : Client σ) (target : Target) (agent : Agent) :
    List (Option String × World σ) → List (Conversion σ) × Agent
  | [] => ([], agent)
  | (instruction, w) :: rest =>
    let done := convert client target instruction agent w
    let later := convertAll client target done.2.1 rest
    (⟨instruction, w, done.1⟩ :: later.1, later.2)

theorem persistAll_code {found : Reply.Extracted} {converted : Converted} {w w' : World σ}
    (h : persistAll target found w = (.ok converted, w')) : converted.code = found.code := by
  unfold persistAll at h
  split at h
  · cases h
  · split at h
    · cases h
    · cases h
      rfl

theorem noted_error {error : Error} {text reply : String} :
    Noted (.error error) ⟨text, reply, none⟩ where
  iff := by
    constructor
    · intro annotated
      cases annotated
    · rintro ⟨_, ok⟩
      cases ok
  text _ annotated := by cases annotated

theorem noted_ok {found : Reply.Extracted} {converted : Converted} {text reply : String}
    (hx : Reply.extract reply .conversion = .ok found) (code : converted.code = found.code) :
    Noted (.ok converted) ⟨text, reply, some (conversionNote found.code)⟩ where
  iff := ⟨fun _ => ⟨converted, rfl⟩, fun _ => rfl⟩
  text _ annotated := ⟨found, converted, hx, rfl, code, (Option.some.inj annotated).symm⟩

theorem convert_tells (client : Client σ) (target : Target) (speaker : Speaker)
    (log : List Exchange) (instruction : Option String) (w : World σ) :
    let done := convert client target instruction (speaker.after log) w
    ∃ es, Tells client target speaker log ⟨instruction, w, done.1⟩ es ∧
      done.2.1 = speaker.after (log ++ es) := by
  intro done
  cases h : done with
  | mk result rest =>
    obtain ⟨a, w'⟩ := rest
    dsimp only
    change convert client target instruction (speaker.after log) w = _ at h
    unfold convert at h
    split at h
    next e w₁ hr =>
      cases h
      exact ⟨[], .unread rfl, by rw [List.append_nil]⟩
    next reference w₁ hr =>
      dsimp only at h
      split at h
      next e a w₂ hc =>
        cases h
        exact ⟨[], .refused hr hc rfl, by rw [List.append_nil, Speaker.chat_error hc]⟩
      next reply a w₂ hc =>
        have heard := Speaker.chat_ok hc
        split at h
        next e hx =>
          cases h
          exact ⟨[⟨_, reply, none⟩], .told hr rfl hc noted_error, heard⟩
        next found hx =>
          split at h
          next e w₃ hp =>
            cases h
            exact ⟨[⟨_, reply, none⟩], .told hr rfl hc noted_error, heard⟩
          next converted w₃ hp =>
            cases h
            refine ⟨[⟨_, reply, some (conversionNote found.code)⟩],
              .told hr rfl hc (noted_ok hx (persistAll_code hp)), ?_⟩
            rw [heard]
            exact Speaker.annotate_after

theorem convertAll_telling (client : Client σ) (target : Target) (speaker : Speaker)
    (log : List Exchange) (jobs : List (Option String × World σ)) :
    let done := convertAll client target (speaker.after log) jobs
    ∃ told, Telling client target speaker log done.1 told ∧ done.2 = speaker.after told := by
  induction jobs generalizing log with
  | nil => exact ⟨log, .nil, rfl⟩
  | cons job jobs ih =>
    obtain ⟨instruction, w⟩ := job
    obtain ⟨es, tells, spoken⟩ := convert_tells client target speaker log instruction w
    obtain ⟨all, later, agent⟩ := ih (log ++ es)
    dsimp only [convertAll]
    rw [spoken]
    exact ⟨all, .cons tells later, agent⟩

end Convert

/-- Whatever happens in repairs, or in conversions, an agent's history holds the end of what their
replies told it, each with the note of its own code. -/
theorem notes_belong_to_their_replies {σ : Type} (s : Repair.Setup σ)
    (repairs : List (Repair.Request × World σ)) (client : Client σ) (target : Convert.Target)
    (conversions : List (Option String × World σ)) (backend systemPrompt : String)
    (maxHistory : Nat) :
    let speaker := Speaker.new backend systemPrompt maxHistory
    let agent := Agent.new backend systemPrompt maxHistory
    let repaired := Repair.repairAll s agent repairs
    let converted := Convert.convertAll client target agent conversions
    (∃ told, Repair.Retelling s speaker [] repaired.1 told ∧
      repaired.2.history.exchanges = told.rtake (max maxHistory 1)) ∧
    ∃ told, Convert.Telling client target speaker [] converted.1 told ∧
      converted.2.history.exchanges = told.rtake (max maxHistory 1) := by
  intro speaker agent repaired converted
  have fresh : speaker.after [] = agent := Speaker.new_after backend systemPrompt maxHistory
  obtain ⟨told, retelling, last⟩ := Repair.repairAll_retelling s speaker [] repairs
  obtain ⟨told', telling, last'⟩ := Convert.convertAll_telling client target speaker [] conversions
  rw [fresh] at retelling last telling last'
  refine ⟨⟨told, retelling, ?_⟩, told', telling, ?_⟩
  · exact congrArg (·.history.exchanges) last
  · exact congrArg (·.history.exchanges) last'

end Anneal
