import Anneal.Proofs.Json.Compact
import Anneal.Proofs.Reply.Markers

/-! Replies that are JSON objects on one line are read back, whatever their texts hold. A block
needs a line feed with something behind it, and inside the quotes there is none, so no marker in a
text is taken for one of the reply. -/

namespace Anneal.Reply

open Anneal.Text Anneal.Json

section Line

variable {completion : String} {before line after : List Char}

theorem nextBlock?_line {front cs : List Char} (hcs : front ++ cs = before ++ (line ++ after))
    (hb : ∀ c ∈ before, isBlank c = true) (hl : '\n' ∉ line)
    (ha : ∀ c ∈ after, isBlank c = true) : nextBlock? fenceMark cs = none := by
  have hmark : isBlank '`' = false := by decide
  have hblank {ds : List Char} (hd : ∀ c ∈ ds, isBlank c = true) : '`' ∉ ds := fun hm => by
    rw [hd _ hm] at hmark
    cases hmark
  unfold nextBlock?
  split
  · rfl
  next lead rest hopen =>
    -- The mark stands on the line, and what follows the next line feed is blank.
    obtain ⟨rfl, -⟩ := (breakOn_eq_some_iff (by decide)).1 hopen
    have hsplit : before ++ (line ++ after) = (front ++ lead ++ ['`', '`']) ++ '`' :: rest := by
      rw [← hcs]
      simp [fenceMark]
    obtain ⟨_, rfl, -⟩ | ⟨_, hsplit, -⟩ := append_eq_append_cons_iff.1 hsplit
    · exact absurd (by simp) (hblank hb)
    obtain ⟨tail, rfl, rfl⟩ | ⟨_, rfl, -⟩ := append_eq_append_cons_iff.1 hsplit
    · have htail : ∀ c ∈ tail, (c != '\n') = true := fun c hc => by
        rw [bne_iff_ne]
        rintro rfl
        simp [hc] at hl
      rw [List.dropWhile_append_of_pos htail]
      split
      · rfl
      next text hline =>
        have htext : ∀ c ∈ text, isBlank c = true := fun c hc =>
          ha c ((List.dropWhile_suffix _).subset (hline ▸ List.mem_cons_of_mem _ hc))
        have hclose : ¬ fenceMark <:+: text := fun hi =>
          hblank htext (hi.subset (by decide))
        rw [breakOn_eq_none_iff.2 hclose]
    · exact absurd (by simp) (hblank ha)

theorem markerBlock?_line (slot : Slot) (htext : completion.toList = before ++ (line ++ after))
    (hb : ∀ c ∈ before, isBlank c = true) (hl : '\n' ∉ line)
    (ha : ∀ c ∈ after, isBlank c = true) : markerBlock? completion slot = none := by
  unfold markerBlock?
  split
  · rfl
  next front behind hmarker =>
    obtain ⟨hcs, -⟩ := (breakOn_eq_some_iff (by simp [bracketed])).1 hmarker
    rw [blocks_nil (nextBlock?_line (hcs.symm.trans htext) hb hl ha)]
    rfl

end Line

theorem payload?_object {fields : List (String × Json)}
    (h : Plain (depthLimit - 1) (.obj fields)) {before after : String}
    (hb : isBlankText before = true) (ha : isBlankText after = true) :
    payload? (before ++ (Json.obj fields).compact ++ after) = some (normal (.obj fields)) := by
  obtain ⟨inner, hinner⟩ := compactChars_obj fields
  have htrim : trimChars (before ++ (Json.obj fields).compact ++ after).toList =
      compactChars (.obj fields) := by
    rw [String.toList_append, String.toList_append, compact, String.toList_ofList,
      trimChars_between (List.all_eq_true.1 hb) (List.all_eq_true.1 ha), hinner]
    exact trimChars_enclosed (by decide) (by decide) inner
  have hopen : (compactChars (.obj fields)).head? = some '\x7b' := by
    rw [hinner]
    rfl
  unfold payload?
  rw [htrim]
  dsimp only
  rw [if_pos hopen, ← compact, parse?_compact h]
  rfl

theorem markerBlock?_object {fields : List (String × Json)}
    (h : Plain (depthLimit - 1) (.obj fields)) {before after : String}
    (hb : isBlankText before = true) (ha : isBlankText after = true) (slot : Slot) :
    markerBlock? (before ++ (Json.obj fields).compact ++ after) slot = none := by
  have htext : (before ++ (Json.obj fields).compact ++ after).toList =
      before.toList ++ (compactChars (.obj fields) ++ after.toList) := by
    rw [String.toList_append, String.toList_append, compact, String.toList_ofList,
      List.append_assoc]
  exact markerBlock?_line slot htext (List.all_eq_true.1 hb) h.printable.not_newline
    (List.all_eq_true.1 ha)

theorem extract_object {fields : List (String × Json)}
    (h : Plain (depthLimit - 1) (.obj fields)) {before after : String}
    (hb : isBlankText before = true) (ha : isBlankText after = true) (request : Request) :
    extract (before ++ (Json.obj fields).compact ++ after) request =
      ofPayload (normal (.obj fields)) request := by
  rw [extract, markerBlock?_object h hb ha]
  dsimp only
  rw [payload?_object h hb ha]

theorem ofPayload_accepted {payload : Json} {request : Request} {code : String}
    (hv : violations payload = []) (hc : codeText request.code.field payload = trim code)
    (hne : isBlankText code = false) :
    ofPayload payload request = .ok
      ⟨trim code, (auxiliary (payloadText? payload) noFieldWarning request.auxiliary).1,
        (auxiliary (payloadText? payload) noFieldWarning request.auxiliary).2, .structured⟩ := by
  rw [ofPayload, hv]
  dsimp only
  rw [hc, isEmpty_trim hne]
  rfl

theorem payloadText?_of_member {payload : Json} {slot : Slot} {s : String}
    (h : payload.member? slot.field = some (.str s)) (hs : isBlankText s = false) :
    payloadText? payload slot = some (trim s) := by
  rw [payloadText?, h]
  dsimp only
  rw [isEmpty_trim hs]
  rfl

theorem payloadText?_of_blank {payload : Json} {slot : Slot} {s : String}
    (h : payload.member? slot.field = some (.str s)) (hs : isBlankText s = true) :
    payloadText? payload slot = none := by
  rw [payloadText?, h]
  dsimp only
  rw [isEmpty_trim_eq, if_pos hs]

theorem payloadText?_of_absent {payload : Json} {slot : Slot}
    (h : payload.member? slot.field = none) : payloadText? payload slot = none := by
  rw [payloadText?, h]

theorem violations_eq_nil {fields : Keyed Json} {code : Json}
    (hcode : Keyed.get? fields "code" = some code) (hform : isCode code = true)
    (hexplanation : Keyed.get? fields "explanation" = none)
    (hmanifest : ∀ j, Keyed.get? fields "manifest" = some j → isText j = true) :
    violations (.obj fields) = [] := by
  have htext : textViolations fields "manifest" = [] := by
    unfold textViolations
    split
    next j hj => rw [if_pos (hmanifest j hj)]
    next => rfl
  have hnone : textViolations fields "explanation" = [] := by rw [textViolations, hexplanation]
  rw [violations, hcode, htext, hnone]
  dsimp only
  rw [if_pos hform]
  rfl

theorem read_texts {c m : String} {fields : List (String × Json)} (hc : isBlankText c = false)
    (hp : fields.Perm [("code", .str c), ("manifest", .str m)]) :
    Plain (depthLimit - 1) (.obj fields) ∧ violations (normal (.obj fields)) = [] ∧
      (normal (.obj fields)).member? "code" = some (.str c) ∧
      (normal (.obj fields)).member? "manifest" = some (.str m) := by
  have hkeys : (Keyed.keys fields).Perm ["code", "manifest"] := hp.map _
  have hn : (Keyed.keys fields).Nodup := hkeys.nodup_iff.2 (by decide)
  have hcode : (normal (.obj fields)).member? "code" = some (.str c) :=
    member?_normal_of_mem hn (hp.mem_iff.2 List.mem_cons_self)
  have hmanifest : (normal (.obj fields)).member? "manifest" = some (.str m) :=
    member?_normal_of_mem hn (hp.mem_iff.2 (List.mem_cons_of_mem _ List.mem_cons_self))
  have hexplanation : (normal (.obj fields)).member? "explanation" = none :=
    member?_normal_of_not_mem (hkeys.mem_iff.not.2 (by decide))
  refine ⟨.obj fun e he => ?_, ?_, hcode, hmanifest⟩
  · have he := hp.mem_iff.1 he
    simp only [List.mem_cons, List.not_mem_nil, or_false] at he
    rcases he with rfl | rfl <;> exact .str _ _
  · refine violations_eq_nil hcode ?_ hexplanation fun j hj => ?_
    · show (!c.isEmpty) = true
      rw [isEmpty_of_not_blank hc]
      rfl
    · cases hmanifest.symm.trans hj
      rfl

theorem filterMap_asStr? (lines : List String) : (lines.map Json.str).filterMap asStr? = lines := by
  rw [List.filterMap_map]
  exact List.filterMap_some

theorem read_lines {t : String} {lines : List String} {block : List (String × Json)}
    (hne : lines ≠ []) (hp : block.Perm [("type", .str t), ("content", .arr (lines.map .str))]) :
    Plain (depthLimit - 1) (.obj [("code", .obj block)]) ∧
      violations (normal (.obj [("code", .obj block)])) = [] ∧
      codeText "code" (normal (.obj [("code", .obj block)])) = trim (join "\n" lines) ∧
      (normal (.obj [("code", .obj block)])).member? "manifest" = none := by
  have hkeys : (Keyed.keys block).Perm ["type", "content"] := hp.map _
  have hn : (Keyed.keys block).Nodup := hkeys.nodup_iff.2 (by decide)
  have hlines : normal (.arr (lines.map .str)) = .arr (lines.map .str) := by
    rw [normal, normalItems_eq_map, List.map_map]
    rfl
  have htype : (normal (.obj block)).member? "type" = some (.str t) :=
    member?_normal_of_mem hn (hp.mem_iff.2 List.mem_cons_self)
  have hcontent : (normal (.obj block)).member? "content" = some (.arr (lines.map .str)) :=
    hlines ▸ member?_normal_of_mem hn (hp.mem_iff.2 (List.mem_cons_of_mem _ List.mem_cons_self))
  have hcode : (normal (.obj [("code", .obj block)])).member? "code" = some (normal (.obj block)) :=
    member?_normal_of_mem (by simp [Keyed.keys]) List.mem_cons_self
  have habsent (key : String) (hkey : key ≠ "code") :
      (normal (.obj [("code", .obj block)])).member? key = none :=
    member?_normal_of_not_mem (by simpa [Keyed.keys] using hkey)
  have hmanifest := habsent "manifest" (by decide)
  have hform : isCode (normal (.obj block)) = true := by
    have hcontentForm : isContent (.arr (lines.map .str)) = true := by
      simp [isContent, hne, isText]
    rw [normal] at htype hcontent ⊢
    rw [isCode, show Keyed.get? _ "type" = _ from htype,
      show Keyed.get? _ "content" = _ from hcontent]
    exact hcontentForm
  have hread : codeText "code" (normal (.obj [("code", .obj block)])) = trim (join "\n" lines) := by
    rw [codeText, hcode]
    rw [normal] at hcontent ⊢
    dsimp only
    rw [show Keyed.get? _ "content" = _ from hcontent]
    dsimp only
    rw [filterMap_asStr?]
  refine ⟨.obj fun e he => ?_, ?_, hread, hmanifest⟩
  · obtain rfl := List.mem_singleton.1 he
    refine .obj fun e he => ?_
    have he := hp.mem_iff.1 he
    simp only [List.mem_cons, List.not_mem_nil, or_false] at he
    rcases he with rfl | rfl
    · exact .str _ _
    · refine .arr fun j hj => ?_
      obtain ⟨line, -, rfl⟩ := List.mem_map.1 hj
      exact .str _ _
  · refine violations_eq_nil hcode hform (habsent "explanation" (by decide)) fun j hj => ?_
    cases hmanifest.symm.trans hj

/-- A reply that is an object with the code and a manifest, or with the code as a block of lines,
is read back trimmed, with any blanks around it and its fields in any order. -/
theorem structured_replies_read_back :
    (∀ (c m before after : String) (fields : List (String × Json)), isBlankText c = false →
      isBlankText m = false → isBlankText before = true → isBlankText after = true →
      fields.Perm [("code", .str c), ("manifest", .str m)] →
      extract (before ++ (Json.obj fields).compact ++ after) .conversion =
          .ok ⟨trim c, some (trim m), [], .structured⟩ ∧
        extract (before ++ (Json.obj fields).compact ++ after) .repair =
          .ok ⟨trim c, none, [], .structured⟩) ∧
    ∀ (t before after : String) (lines : List String) (block : List (String × Json)),
      lines ≠ [] → isBlankText (join "\n" lines) = false → isBlankText before = true →
      isBlankText after = true →
      block.Perm [("type", .str t), ("content", .arr (lines.map .str))] →
      extract (before ++ (Json.obj [("code", .obj block)]).compact ++ after) .repair =
          .ok ⟨trim (join "\n" lines), none, [], .structured⟩ ∧
        ∃ warning, extract (before ++ (Json.obj [("code", .obj block)]).compact ++ after)
          .conversion = .ok ⟨trim (join "\n" lines), none, [warning], .structured⟩ := by
  refine ⟨fun c m before after fields hc hm hb ha hp => ?_,
    fun t before after lines block hne hblank hb ha hp => ?_⟩
  · obtain ⟨hplain, hvalid, hcode, hmanifest⟩ := read_texts hc hp
    have hread : codeText "code" (normal (.obj fields)) = trim c := by rw [codeText, hcode]
    have hslot : payloadText? (normal (.obj fields)) manifestSlot = some (trim m) :=
      payloadText?_of_member hmanifest hm
    rw [extract_object hplain hb ha, extract_object hplain hb ha,
      ofPayload_accepted hvalid hread hc, ofPayload_accepted hvalid hread hc]
    dsimp only [Request.conversion, Request.repair, auxiliary]
    rw [← manifestSlot, hslot]
    exact ⟨rfl, rfl⟩
  · obtain ⟨hplain, hvalid, hread, hmanifest⟩ := read_lines hne hp
    have hslot : payloadText? (normal (.obj [("code", .obj block)])) manifestSlot = none :=
      payloadText?_of_absent hmanifest
    rw [extract_object hplain hb ha, extract_object hplain hb ha,
      ofPayload_accepted hvalid hread hblank, ofPayload_accepted hvalid hread hblank]
    dsimp only [Request.conversion, Request.repair, auxiliary]
    rw [← manifestSlot, hslot]
    exact ⟨rfl, _, rfl⟩

/-- Markers and marks stand in the code, in the manifest and in the lines. -/
theorem structured_example_reads_back :
    extract ("\n" ++ (Json.obj [("manifest", .str "[TOML] \"\t"),
        ("code", .str " [RUST_CODE]\n```rust\nx\n```\n")]).compact ++ " \n") .conversion =
      .ok ⟨"[RUST_CODE]\n```rust\nx\n```", some "[TOML] \"", [], .structured⟩ ∧
    extract ("" ++ (Json.obj [("code", .obj [("type", .str "rust"),
        ("content", .arr (["[MODIFIED_CODE]", "```rust", ""].map .str))])]).compact ++ "\n")
        .repair =
      .ok ⟨"[MODIFIED_CODE]\n```rust", none, [], .structured⟩ := by
  obtain ⟨htexts, hlines⟩ := structured_replies_read_back
  have hboth := htexts " [RUST_CODE]\n```rust\nx\n```\n" "[TOML] \"\t" "\n" " \n" _ (by decide)
    (by decide) (by decide) (by decide) (List.Perm.swap _ _ _)
  have hblock := hlines "rust" "" "\n" ["[MODIFIED_CODE]", "```rust", ""] _ (by decide) (by decide)
    (by decide) (by decide) (List.Perm.refl _)
  have hcode : trim " [RUST_CODE]\n```rust\nx\n```\n" = "[RUST_CODE]\n```rust\nx\n```" := by decide
  have hmanifest : trim "[TOML] \"\t" = "[TOML] \"" := by decide
  have hjoined : trim (join "\n" ["[MODIFIED_CODE]", "```rust", ""]) =
      "[MODIFIED_CODE]\n```rust" := by decide
  rw [hcode, hmanifest] at hboth
  rw [hjoined] at hblock
  exact ⟨hboth.1, hblock.1⟩

end Anneal.Reply
