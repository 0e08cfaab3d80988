import Anneal.Proofs.Reply.Fence
import Anneal.Proofs.Text.Blank
import Anneal.Reply.Extraction
import Anneal.Scripted

/-! Replies with markers are read back as they were put together, whatever stands around them. -/

namespace Anneal.Reply

open Anneal.Text

/-- Text that can stand in a block: it is not blank and holds no mark. -/
structure Wrappable (text : String) : Prop where
  nonblank : isBlankText text = false
  unfenced : ¬ fenceMark <:+: text.toList

theorem Wrappable.trimChars_ne_nil {text : String} (h : Wrappable text) :
    trimChars text.toList ≠ [] := by
  rw [ne_eq, trimChars_eq_nil_iff_isBlankText, h.nonblank]
  exact Bool.false_ne_true

def sectionText (slot : Slot) (body : List Char) : List Char :=
  bracketed slot.marker ++ fenced slot.fence.toList body

structure Slot.Plain (slot : Slot) : Prop where
  marker : '[' ∉ slot.marker.toList
  fence : '\n' ∉ slot.fence.toList

theorem Slot.Plain.bracketed {slot : Slot} (h : slot.Plain) :
    '[' ∉ (Reply.bracketed slot.marker).tail := by
  simpa [Reply.bracketed] using h.marker

theorem markerBlock?_section {slot : Slot} (hs : slot.Plain) {completion body : String}
    {before : List Char} (hbody : Wrappable body)
    (hbefore : ¬ bracketed slot.marker <:+: before) (after : List Char)
    (htext : completion.toList = before ++ sectionText slot body.toList ++ after) :
    markerBlock? completion slot = some (trim body) := by
  have hmarker : breakOn (bracketed slot.marker) completion.toList =
      some (before, fenced slot.fence.toList body.toList ++ after) := by
    rw [htext, sectionText, ← List.append_assoc, List.append_assoc _ (fenced _ _)]
    exact breakOn_of_head hs.bracketed hbefore
  have hfind : (blocks fenceMark (fenced slot.fence.toList body.toList ++ after)).find?
      (fun b => slot.fence.toList.isPrefixOf b.info) =
        some ⟨slot.fence.toList, body.toList ++ ['\n']⟩ := by
    rw [blocks_cons (nextBlock?_fenced hs.fence hbody.unfenced after)]
    exact List.find?_cons_of_pos (List.isPrefixOf_iff_prefix.2 (List.prefix_refl _))
  -- The line feed behind the code is blank.
  have htrim : trimChars (body.toList ++ ['\n']) = trimChars body.toList :=
    trimChars_between (List.forall_mem_nil _) (List.forall_mem_singleton.2 (by decide)) _
  unfold markerBlock?
  rw [hmarker]
  dsimp only
  rw [hfind]
  dsimp only
  rw [htrim, if_neg (by simpa using hbody.trimChars_ne_nil), trim]

theorem markerBlock?_eq_none {slot : Slot} {completion : String}
    (h : ¬ bracketed slot.marker <:+: completion.toList) : markerBlock? completion slot = none := by
  rw [markerBlock?, breakOn_eq_none_iff.2 h]

/-- What is found behind a marker is trimmed, not empty and without a mark. -/
theorem markerBlock?_spec {slot : Slot} {completion code : String}
    (h : markerBlock? completion slot = some code) :
    Wrappable code ∧ trim code = code := by
  unfold markerBlock? at h
  split at h
  · cases h
  · split at h
    · cases h
    next b hb =>
      dsimp only at h
      split at h
      · cases h
      next hne =>
        cases h
        have hne : trimChars b.body ≠ [] := by simpa using hne
        have hmem := body_of_mem_blocks (List.mem_of_find?_eq_some hb)
        refine ⟨⟨?_, ?_⟩, ?_⟩
        · rw [Bool.eq_false_iff, ne_eq, ← trimChars_eq_nil_iff_isBlankText, String.toList_ofList,
            trimChars_trimChars]
          exact hne
        · rw [String.toList_ofList]
          exact fun hi => hmem (hi.trans (trimChars_within _))
        · rw [trim, String.toList_ofList, trimChars_trimChars]

theorem extract_markers {completion : String} {request : Request} {x : Extracted}
    (h : extract completion request = .ok x) (hx : x.encoding = .markers) :
    markerBlock? completion request.code = some x.code := by
  unfold extract at h
  split at h
  next code hc =>
    cases h
    exact hc
  next =>
    split at h
    next payload _ =>
      -- What is read out of a payload says so.
      unfold ofPayload at h
      split at h
      · cases h
      · dsimp only at h
        split at h
        · cases h
        · cases h
          cases hx
    next => cases h

section Auxiliary

variable (find : Slot → Option String) (warning : Slot → String) (wanted : Option Slot)

theorem auxiliary_found : (auxiliary find warning wanted).1 = wanted.bind find := by
  cases wanted with
  | none => rfl
  | some slot =>
    rw [auxiliary, Option.bind_some]
    cases find slot <;> rfl

theorem auxiliary_warns :
    ((auxiliary find warning wanted).2.length = 1 ↔
      wanted.isSome ∧ (auxiliary find warning wanted).1 = none) ∧
    (¬ (wanted.isSome ∧ (auxiliary find warning wanted).1 = none) →
      (auxiliary find warning wanted).2 = []) := by
  cases wanted with
  | none => simp [auxiliary]
  | some slot => cases hfind : find slot <;> simp [auxiliary, hfind]

end Auxiliary

theorem repair_plain : Request.repair.code.Plain := ⟨by decide, by decide⟩

theorem conversion_plain : Request.conversion.code.Plain := ⟨by decide, by decide⟩

def manifestSlot : Slot := ⟨"TOML", "toml", "manifest"⟩

theorem manifest_plain : manifestSlot.Plain := ⟨by decide, by decide⟩

def repairLead : List Char := "[ANALYSIS]\nscripted fix\n\n".toList

theorem toList_modifiedCodeReply (code : String) : (Scripted.modifiedCodeReply code).toList =
    repairLead ++ sectionText Request.repair.code code.toList ++ ['\n'] := by
  have hopen : "[ANALYSIS]\nscripted fix\n\n[MODIFIED_CODE]\n```rust\n".toList =
      repairLead ++ (bracketed "MODIFIED_CODE" ++
        ('\n' :: fenceMark ++ "rust".toList ++ ['\n'])) := by decide
  have hclose : "\n```\n".toList = '\n' :: fenceMark ++ ['\n'] := by decide
  unfold Scripted.modifiedCodeReply
  simp only [String.toList_append, hopen, hclose, sectionText, fenced, Request.repair,
    List.append_assoc, List.cons_append, List.nil_append]

theorem toList_conversionReply (code : String) (manifest : Option String) :
    (Scripted.conversionReply code manifest).toList =
      sectionText Request.conversion.code code.toList ++ ['\n'] ++
        (manifest.map fun text =>
          '\n' :: sectionText manifestSlot text.toList ++ ['\n']).getD [] := by
  have hopen : "[RUST_CODE]\n```rust\n".toList = bracketed "RUST_CODE" ++
      ('\n' :: fenceMark ++ "rust".toList ++ ['\n']) := by decide
  have hnext : "\n[TOML]\n```toml\n".toList = '\n' :: bracketed "TOML" ++
      ('\n' :: fenceMark ++ "toml".toList ++ ['\n']) := by decide
  have hclose : "\n```\n".toList = '\n' :: fenceMark ++ ['\n'] := by decide
  unfold Scripted.conversionReply
  cases manifest with
  | none =>
    simp only [String.toList_append, hopen, hclose, sectionText, fenced, Request.conversion,
      List.append_assoc, List.cons_append, List.nil_append, Option.map_none, Option.getD_none]
    rfl
  | some text =>
    simp only [String.toList_append, hopen, hnext, hclose, sectionText, fenced,
      Request.conversion, manifestSlot, List.append_assoc, List.cons_append, List.nil_append,
      Option.map_some, Option.getD_some]

theorem bracketed_repair : bracketed Request.repair.code.marker = "[MODIFIED_CODE]".toList := by
  decide

theorem bracketed_conversion : bracketed Request.conversion.code.marker = "[RUST_CODE]".toList := by
  decide

theorem bracketed_manifest : bracketed manifestSlot.marker = "[TOML]".toList := by decide

theorem extract_modifiedCodeReply {c p : String} (hc : Wrappable c)
    (hp : ¬ "[MODIFIED_CODE]".toList <:+: p.toList) (s : String) :
    extract (p ++ Scripted.modifiedCodeReply c ++ s) .repair =
      .ok ⟨trim c, none, [], .markers⟩ := by
  have hbefore : ¬ bracketed Request.repair.code.marker <:+: p.toList ++ repairLead := by
    have hlead : repairLead = '[' :: repairLead.tail := by decide
    rw [hlead, infix_append_cons_iff repair_plain.bracketed, ← hlead, bracketed_repair]
    exact not_or.2 ⟨hp, by decide⟩
  have hcode : markerBlock? (p ++ Scripted.modifiedCodeReply c ++ s) Request.repair.code =
      some (trim c) := by
    refine markerBlock?_section repair_plain hc hbefore ('\n' :: s.toList) ?_
    rw [String.toList_append, String.toList_append, toList_modifiedCodeReply]
    simp
  rw [extract, hcode]
  rfl

theorem manifestMarker_absent {p c : List Char}
    (hp : ¬ bracketed manifestSlot.marker <:+: p) (hc : ¬ bracketed manifestSlot.marker <:+: c)
    (after : List Char) (ha : ¬ bracketed manifestSlot.marker <:+: fenceMark ++ after) :
    ¬ bracketed manifestSlot.marker <:+:
      p ++ sectionText Request.conversion.code c ++ after := by
  -- The line feeds around the code cut the text into pieces that can be looked at alone.
  have htext : p ++ sectionText Request.conversion.code c ++ after =
      p ++ '[' ::
        ("RUST_CODE]\n```rust".toList ++ '\n' :: (c ++ '\n' :: (fenceMark ++ after))) := by
    have hopen : bracketed "RUST_CODE" ++ '\n' :: fenceMark ++ "rust".toList =
        '[' :: "RUST_CODE]\n```rust".toList := by decide
    rw [← List.cons_append, ← hopen]
    simp only [sectionText, fenced, Request.conversion, List.append_assoc, List.cons_append]
  have hline : '\n' ∉ bracketed manifestSlot.marker := by decide
  have hne : bracketed manifestSlot.marker ≠ [] := by decide
  have hopen : ¬ bracketed manifestSlot.marker <:+: '[' :: "RUST_CODE]\n```rust".toList := by
    decide
  rw [htext, infix_append_cons_iff manifest_plain.bracketed, ← List.cons_append,
    infix_append_cons_iff_of_not_mem hne hline, infix_append_cons_iff_of_not_mem hne hline]
  exact not_or.2 ⟨hp, not_or.2 ⟨hopen, not_or.2 ⟨hc, ha⟩⟩⟩

section Conversion

variable {c p : String}

theorem code_of_conversionReply (hc : Wrappable c) (hp : ¬ "[RUST_CODE]".toList <:+: p.toList)
    (manifest : Option String) :
    markerBlock? (p ++ Scripted.conversionReply c manifest) Request.conversion.code =
      some (trim c) := by
  refine markerBlock?_section conversion_plain hc (bracketed_conversion ▸ hp)
    ('\n' :: (manifest.map fun text =>
      '\n' :: sectionText manifestSlot text.toList ++ ['\n']).getD []) ?_
  rw [String.toList_append, toList_conversionReply]
  simp

theorem extract_conversionReply_none (hc : Wrappable c)
    (hct : ¬ "[TOML]".toList <:+: c.toList) (hp : ¬ "[RUST_CODE]".toList <:+: p.toList)
    (hpt : ¬ "[TOML]".toList <:+: p.toList) :
    extract (p ++ Scripted.conversionReply c none) .conversion =
      .ok ⟨trim c, none, [noBlockWarning manifestSlot], .markers⟩ := by
  rw [← bracketed_manifest] at hct hpt
  have hnone : markerBlock? (p ++ Scripted.conversionReply c none) manifestSlot = none := by
    refine markerBlock?_eq_none ?_
    rw [String.toList_append, toList_conversionReply, Option.map_none, Option.getD_none,
      List.append_nil, ← List.append_assoc]
    exact manifestMarker_absent hpt hct ['\n'] (by decide)
  rw [extract, code_of_conversionReply hc hp]
  dsimp only [Request.conversion, auxiliary]
  rw [← manifestSlot, hnone]

theorem extract_conversionReply_some (hc : Wrappable c)
    (hct : ¬ "[TOML]".toList <:+: c.toList) (hp : ¬ "[RUST_CODE]".toList <:+: p.toList)
    (hpt : ¬ "[TOML]".toList <:+: p.toList) {m : String} (hm : Wrappable m) :
    extract (p ++ Scripted.conversionReply c (some m)) .conversion =
      .ok ⟨trim c, some (trim m), [], .markers⟩ := by
  rw [← bracketed_manifest] at hct hpt
  have hsome : markerBlock? (p ++ Scripted.conversionReply c (some m)) manifestSlot =
      some (trim m) := by
    have hbefore := manifestMarker_absent hpt hct ['\n', '\n'] (by decide)
    refine markerBlock?_section manifest_plain hm hbefore ['\n'] ?_
    rw [String.toList_append, toList_conversionReply]
    simp
  rw [extract, code_of_conversionReply hc hp]
  dsimp only [Request.conversion, auxiliary]
  rw [← manifestSlot, hsome]

end Conversion

/-- Code in a reply is read back trimmed, and so is a manifest; where there is none it is missed.
Code that has been read behind a marker is read back as it is. -/
theorem marked_replies_read_back :
    (∀ c p s : String, Wrappable c → ¬ "[MODIFIED_CODE]".toList <:+: p.toList →
      extract (p ++ Scripted.modifiedCodeReply c ++ s) .repair =
        .ok ⟨trim c, none, [], .markers⟩) ∧
    (∀ c p : String, Wrappable c → ¬ "[TOML]".toList <:+: c.toList →
      ¬ "[RUST_CODE]".toList <:+: p.toList → ¬ "[TOML]".toList <:+: p.toList →
      (∀ m, Wrappable m → extract (p ++ Scripted.conversionReply c (some m)) .conversion =
        .ok ⟨trim c, some (trim m), [], .markers⟩) ∧
      ∃ warning, extract (p ++ Scripted.conversionReply c none) .conversion =
        .ok ⟨trim c, none, [warning], .markers⟩) ∧
    ∀ completion request x, extract completion request = .ok x → x.encoding = .markers →
      extract (Scripted.modifiedCodeReply x.code) .repair = .ok ⟨x.code, none, [], .markers⟩ := by
  refine ⟨fun c p s hc hp => extract_modifiedCodeReply hc hp s, fun c p hc hct hp hpt => ?_, ?_⟩
  · exact ⟨fun m hm => extract_conversionReply_some hc hct hp hpt hm, _,
      extract_conversionReply_none hc hct hp hpt⟩
  · intro completion request x hx he
    obtain ⟨hcode, htrim⟩ := markerBlock?_spec (extract_markers hx he)
    have h := extract_modifiedCodeReply (p := "") hcode (by decide) ""
    rwa [String.empty_append, String.append_empty, htrim] at h

/-- Marks and markers stand close to the code, in front of it and in the manifest. -/
theorem marked_example_reads_back :
    extract ("```rust\nold\n``` [MODIFIED_COD" ++
        Scripted.modifiedCodeReply "\tlet `` = [MODIFIED_CODE]; \n" ++ "```rust\nnew\n```")
        .repair =
      .ok ⟨"let `` = [MODIFIED_CODE];", none, [], .markers⟩ ∧
    extract ("[TOM ```" ++ Scripted.conversionReply "[RUST_CODE] " (some " [TOML] ``"))
        .conversion =
      .ok ⟨"[RUST_CODE]", some "[TOML] ``", [], .markers⟩ ∧
    (∃ warning, extract ("[TOM ```" ++ Scripted.conversionReply "[RUST_CODE] " none) .conversion =
      .ok ⟨"[RUST_CODE]", none, [warning], .markers⟩) ∧
    extract (Scripted.modifiedCodeReply "[RUST_CODE]") .repair =
      .ok ⟨"[RUST_CODE]", none, [], .markers⟩ := by
  obtain ⟨hrepair, hconversion, hagain⟩ := marked_replies_read_back
  have hread := hrepair "\tlet `` = [MODIFIED_CODE]; \n" "```rust\nold\n``` [MODIFIED_COD"
    "```rust\nnew\n```" ⟨by decide, by decide⟩ (by decide)
  obtain ⟨hsome, warning, hnone⟩ := hconversion "[RUST_CODE] " "[TOM ```" ⟨by decide, by decide⟩
    (by decide) (by decide) (by decide)
  have hfull := hsome " [TOML] ``" ⟨by decide, by decide⟩
  have hcode : trim "[RUST_CODE] " = "[RUST_CODE]" := by decide
  have hmanifest : trim " [TOML] ``" = "[TOML] ``" := by decide
  have hfixed : trim "\tlet `` = [MODIFIED_CODE]; \n" = "let `` = [MODIFIED_CODE];" := by decide
  rw [hcode] at hnone hfull
  rw [hmanifest] at hfull
  rw [hfixed] at hread
  have hsame := hagain _ _ _ hnone rfl
  exact ⟨hread, hfull, ⟨warning, hnone⟩, hsame⟩

end Anneal.Reply
