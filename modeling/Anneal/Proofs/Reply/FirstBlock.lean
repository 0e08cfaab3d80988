import Anneal.Proofs.Reply.Markers

/-! The rule by which code is found behind a marker, said by where a block begins and ends. The
blocks of a text lie behind one another from its left end, and the first of the wanted kind counts.
Whatever is read out of a completion, in either encoding, comes out trimmed and not empty. -/

namespace Anneal.Reply

open Anneal.Text

structure BlockAt (cs before : List Char) (b : Block) (rest : List Char) : Prop where
  line : '\n' ∉ b.info
  closed : ∃ text, cs = before ++ fenceMark ++ (b.info ++ '\n' :: text) ∧
    FirstPlace fenceMark text b.body rest

def FirstBlock (cs : List Char) (b : Block) (rest : List Char) : Prop :=
  ∃ before, BlockAt cs before b rest ∧
    ∀ before' b' rest', BlockAt cs before' b' rest' → before.length ≤ before'.length

inductive Tiled : List Char → List Block → Prop where
  | none {cs : List Char} (none : ∀ before b rest, ¬ BlockAt cs before b rest) : Tiled cs []
  | block {cs rest : List Char} {b : Block} {bs : List Block} (first : FirstBlock cs b rest)
      (later : Tiled rest bs) : Tiled cs (b :: bs)

variable {cs rest : List Char} {b : Block} {bs : List Block}

theorem suffix_of_line {info text text' : List Char} (hinfo : '\n' ∉ info)
    (h : '\n' :: text' <:+ info ++ '\n' :: text) : text' <:+ text := by
  obtain ⟨front, hfront⟩ := h
  obtain ⟨_, rfl, -⟩ | ⟨middle, htext, rfl⟩ := append_eq_append_cons_iff.1 hfront.symm
  · exact absurd (by simp) hinfo
  · rcases List.cons_eq_append_iff.1 htext with ⟨rfl, hline⟩ | ⟨middle, rfl, htail⟩
    · obtain ⟨-, rfl⟩ := List.cons.inj hline
      exact List.suffix_refl _
    · exact ⟨middle ++ ['\n'], by simp [htail]⟩

theorem firstBlock_of_nextBlock? (h : nextBlock? fenceMark cs = some (b, rest)) :
    FirstBlock cs b rest := by
  unfold nextBlock? at h
  split at h
  · cases h
  next before after hopen =>
    have hplace := firstPlace_of_breakOn hopen
    split at h
    · cases h
    next newline text hline =>
      obtain rfl := eq_of_dropWhile_bne hline
      split at h
      · cases h
      next body rest hclose =>
        cases h
        have hafter : after = after.takeWhile (· != '\n') ++ '\n' :: text := by
          rw [← hline, List.takeWhile_append_dropWhile]
        refine ⟨before, ⟨notMem_takeWhile_bne _ _, text, ?_, firstPlace_of_breakOn hclose⟩, ?_⟩
        · rw [← hafter]
          exact hplace.text
        · intro before' b' rest' hb'
          obtain ⟨text', htext', -⟩ := hb'.closed
          exact hplace.first _ _ htext'

/-- The first mark is not behind the mark of a block, so the line feed of the block, and with it
the mark that closes the block, stand behind the first mark too. -/
theorem BlockAt.suffix_of_firstPlace {before front after : List Char}
    (h : BlockAt cs before b rest) (hplace : FirstPlace fenceMark cs front after) :
    ∃ text, '\n' :: text <:+ after ∧ fenceMark <:+: text := by
  obtain ⟨-, text, hcs, hclosed⟩ := h
  have hbehind : '\n' :: text <:+ cs := ⟨before ++ fenceMark ++ b.info, by simp [hcs]⟩
  have hafter : after <:+ cs := ⟨front ++ fenceMark, hplace.text.symm⟩
  refine ⟨text, List.suffix_of_suffix_length_le hbehind hafter ?_,
    b.body, rest, hclosed.text.symm⟩
  have hfront := hplace.first _ _ hcs
  have hsame := congrArg List.length (hplace.text.symm.trans hcs)
  simp only [List.length_append, List.length_cons] at hsame ⊢
  omega

theorem not_blockAt_of_nextBlock? (h : nextBlock? fenceMark cs = none) (before : List Char)
    (b : Block) (rest : List Char) : ¬ BlockAt cs before b rest := by
  intro hb
  unfold nextBlock? at h
  split at h
  next hopen =>
    obtain ⟨-, text, hcs, -⟩ := hb
    exact breakOn_eq_none_iff.1 hopen ⟨before, b.info ++ '\n' :: text, hcs.symm⟩
  next front after hopen =>
    obtain ⟨text, hline, hmark⟩ := hb.suffix_of_firstPlace (firstPlace_of_breakOn hopen)
    split at h
    next hdrop =>
      have hbne := List.dropWhile_eq_nil_iff.1 hdrop '\n' (hline.subset List.mem_cons_self)
      simp at hbne
    next newline text' hdrop =>
      obtain rfl := eq_of_dropWhile_bne hdrop
      split at h
      next hclose =>
        rw [← List.takeWhile_append_dropWhile (p := (· != '\n')) (l := after), hdrop] at hline
        have hsuffix := suffix_of_line (notMem_takeWhile_bne _ _) hline
        exact breakOn_eq_none_iff.1 hclose (hmark.trans hsuffix.isInfix)
      next => cases h

theorem blocks_tiled (cs : List Char) : Tiled cs (blocks fenceMark cs) := by
  induction cs using blocks.induct fenceMark with
  | case1 cs hn =>
    rw [blocks_nil hn]
    exact .none (not_blockAt_of_nextBlock? hn)
  | case2 cs b rest hs ih =>
    rw [blocks_cons hs]
    exact .block (firstBlock_of_nextBlock? hs) ih

theorem BlockAt.unique {before before' rest' : List Char} {b' : Block}
    (h : BlockAt cs before b rest) (h' : BlockAt cs before' b' rest')
    (hlength : before.length = before'.length) : b = b' ∧ rest = rest' := by
  obtain ⟨info, body⟩ := b
  obtain ⟨info', body'⟩ := b'
  obtain ⟨hinfo, text, hcs, hclosed⟩ := h
  obtain ⟨hinfo', text', hcs', hclosed'⟩ := h'
  dsimp only at hinfo hinfo' hclosed hclosed'
  have hafter : info ++ '\n' :: text = info' ++ '\n' :: text' := by
    refine (List.append_inj (hcs.symm.trans hcs') ?_).2
    rw [List.length_append, List.length_append, hlength]
  have hsame : info = info' := by
    rw [← takeWhile_bne hinfo text, hafter, takeWhile_bne hinfo']
  subst hsame
  obtain ⟨-, rfl⟩ := List.cons.inj (List.append_cancel_left hafter)
  obtain ⟨rfl, rfl⟩ := hclosed.unique hclosed'
  exact ⟨rfl, rfl⟩

theorem FirstBlock.unique {rest' : List Char} {b' : Block} (h : FirstBlock cs b rest)
    (h' : FirstBlock cs b' rest') : b = b' ∧ rest = rest' := by
  obtain ⟨before, hb, hfirst⟩ := h
  obtain ⟨before', hb', hfirst'⟩ := h'
  exact hb.unique hb' (Nat.le_antisymm (hfirst _ _ _ hb') (hfirst' _ _ _ hb))

theorem Tiled.unique {bs' : List Block} (h : Tiled cs bs) (h' : Tiled cs bs') : bs = bs' := by
  induction h generalizing bs' with
  | none hn =>
    cases h' with
    | none => rfl
    | block first =>
      obtain ⟨before, hb, -⟩ := first
      exact absurd hb (hn _ _ _)
  | block first later ih =>
    cases h' with
    | none hn =>
      obtain ⟨before, hb, -⟩ := first
      exact absurd hb (hn _ _ _)
    | block first' later' =>
      obtain ⟨rfl, rfl⟩ := first.unique first'
      rw [ih later']

theorem blocks_eq_iff : blocks fenceMark cs = bs ↔ Tiled cs bs := by
  constructor
  · rintro rfl
    exact blocks_tiled cs
  · exact (blocks_tiled cs).unique

theorem BlockAt.inside {before : List Char} (h : BlockAt cs before b rest) :
    b.body <:+: cs ∧ rest <:+ cs := by
  obtain ⟨-, text, hcs, hclosed⟩ := h
  have htext : text <:+ cs := ⟨before ++ fenceMark ++ b.info ++ ['\n'], by simp [hcs]⟩
  constructor
  · refine List.IsInfix.trans ?_ htext.isInfix
    rw [hclosed.text, List.append_assoc]
    exact (List.prefix_append _ _).isInfix
  · refine List.IsSuffix.trans ?_ htext
    rw [hclosed.text]
    exact List.suffix_append _ _

theorem Tiled.inside (h : Tiled cs bs) : ∀ b ∈ bs, b.body <:+: cs := by
  induction h with
  | none => simp
  | block first later ih =>
    obtain ⟨before, hb, -⟩ := first
    obtain ⟨hbody, hrest⟩ := hb.inside
    intro other hother
    rcases List.mem_cons.1 hother with rfl | hother
    · exact hbody
    · exact (ih other hother).trans hrest.isInfix

/-- The text behind the first marker, and the first block of the wanted kind in it. -/
structure Marked (completion : List Char) (slot : Slot) (behind : List Char) (b : Block) :
    Prop where
  marker : ∃ before, FirstPlace (bracketed slot.marker) completion before behind
  kind : slot.fence.toList <+: b.info
  first : ∃ front back, Tiled behind (front ++ b :: back) ∧
    ∀ other ∈ front, ¬ slot.fence.toList <+: other.info

theorem find?_kind_iff {kind : List Char} : bs.find? (fun b => kind.isPrefixOf b.info) = some b ↔
    kind <+: b.info ∧ ∃ front back, bs = front ++ b :: back ∧
      ∀ other ∈ front, ¬ kind <+: other.info := by
  have hkind (other : Block) : (!kind.isPrefixOf other.info) = true ↔ ¬ kind <+: other.info := by
    rw [← List.isPrefixOf_iff_prefix, Bool.not_eq_true', Bool.not_eq_true]
  rw [List.find?_eq_some_iff_append, List.isPrefixOf_iff_prefix]
  simp only [hkind]

theorem markerBlock?_eq_some_iff {completion code : String} {slot : Slot} :
    markerBlock? completion slot = some code ↔
      ∃ behind b, Marked completion.toList slot behind b ∧
        (∃ c ∈ b.body, isBlank c = false) ∧ code = trim (String.ofList b.body) := by
  have hgiven (b : Block) : trim (String.ofList b.body) = String.ofList (trimChars b.body) := by
    rw [trim, String.toList_ofList]
  unfold markerBlock?
  constructor
  · intro h
    split at h
    · cases h
    next before behind hmarker =>
      split at h
      · cases h
      next b hb =>
        dsimp only at h
        split at h
        · cases h
        next hbody =>
          cases h
          obtain ⟨hkind, front, back, hblocks, hfront⟩ := find?_kind_iff.1 hb
          have hmarked : Marked completion.toList slot behind b :=
            ⟨⟨before, firstPlace_of_breakOn hmarker⟩, hkind, front, back,
              blocks_eq_iff.1 hblocks, hfront⟩
          exact ⟨behind, b, hmarked, trimChars_ne_nil_iff.1 (by simpa using hbody),
            (hgiven b).symm⟩
  · rintro ⟨behind, b, ⟨⟨before, hmarker⟩, hkind, front, back, htiled, hfront⟩, hbody, rfl⟩
    have hfind := find?_kind_iff.2 ⟨hkind, front, back, blocks_eq_iff.2 htiled, hfront⟩
    have hne := trimChars_ne_nil_iff.2 hbody
    rw [breakOn_eq_some_iff_firstPlace.2 hmarker]
    dsimp only
    rw [hfind]
    dsimp only
    rw [if_neg (by simpa using hne), hgiven]

structure Tidy (text : String) : Prop where
  nonempty : text ≠ ""
  trimmed : trim text = text

def FoundBehind (completion : String) (slot : Slot) (text : String) : Prop :=
  ∃ before behind, FirstPlace (bracketed slot.marker) completion.toList before behind ∧
    text.toList <:+: behind ∧ ¬ fenceMark <:+: text.toList

structure Extracted.WellRead (x : Extracted) (completion : String) (request : Request) :
    Prop where
  code : Tidy x.code
  behind : x.encoding = .markers → FoundBehind completion request.code x.code
  auxiliary : ∀ text, x.auxiliary = some text → request.auxiliary.isSome ∧ Tidy text
  warned : x.warnings.length = 1 ↔ request.auxiliary.isSome ∧ x.auxiliary = none
  silent : ¬ (request.auxiliary.isSome ∧ x.auxiliary = none) → x.warnings = []

theorem markerBlock?_tidy {completion code : String} {slot : Slot}
    (h : markerBlock? completion slot = some code) : Tidy code := by
  obtain ⟨hwrap, htrim⟩ := markerBlock?_spec h
  refine ⟨?_, htrim⟩
  rintro rfl
  cases hwrap.nonblank

theorem markerBlock?_behind {completion code : String} {slot : Slot}
    (h : markerBlock? completion slot = some code) : FoundBehind completion slot code := by
  obtain ⟨behind, b, hmarked, -, hcode⟩ := markerBlock?_eq_some_iff.1 h
  obtain ⟨before, hmarker⟩ := hmarked.marker
  obtain ⟨front, back, htiled, -⟩ := hmarked.first
  have hbody : b.body <:+: behind := htiled.inside b (by simp)
  refine ⟨before, behind, hmarker, ?_, (markerBlock?_spec h).1.unfenced⟩
  rw [hcode, toList_trim, String.toList_ofList]
  exact (trimChars_within _).trans hbody

theorem payloadText?_tidy {payload : Json} {slot : Slot} {text : String}
    (h : payloadText? payload slot = some text) : Tidy text := by
  unfold payloadText? at h
  split at h
  next s _ =>
    split at h
    · cases h
    next hne =>
      cases h
      exact ⟨by simpa using hne, trim_trim s⟩
  next => cases h

theorem trim_codeText (field : String) (payload : Json) :
    trim (codeText field payload) = codeText field payload := by
  unfold codeText
  split
  · exact trim_trim _
  · split
    · exact trim_trim _
    · exact trim_trim _
    · rfl
  · rfl

theorem wellRead_of_found {completion code : String} {request : Request} {encoding : Encoding}
    {find : Slot → Option String} {warning : Slot → String} (hcode : Tidy code)
    (hbehind : encoding = .markers → FoundBehind completion request.code code)
    (hfind : ∀ slot text, find slot = some text → Tidy text) :
    Extracted.WellRead ⟨code, (auxiliary find warning request.auxiliary).1,
      (auxiliary find warning request.auxiliary).2, encoding⟩ completion request := by
  obtain ⟨hwarned, hsilent⟩ := auxiliary_warns find warning request.auxiliary
  refine ⟨hcode, hbehind, fun text htext => ?_, hwarned, hsilent⟩
  rw [auxiliary_found] at htext
  obtain ⟨slot, hslot, htext⟩ := Option.bind_eq_some_iff.1 htext
  exact ⟨Option.isSome_iff_exists.2 ⟨slot, hslot⟩, hfind slot text htext⟩

theorem extract_wellRead {completion : String} {request : Request} {x : Extracted}
    (h : extract completion request = .ok x) : x.WellRead completion request := by
  unfold extract at h
  split at h
  next code hcode =>
    cases h
    exact wellRead_of_found (markerBlock?_tidy hcode) (fun _ => markerBlock?_behind hcode)
      fun _ _ => markerBlock?_tidy
  next =>
    split at h
    next payload _ =>
      unfold ofPayload at h
      split at h
      · cases h
      · dsimp only at h
        split at h
        · cases h
        next hne =>
          cases h
          have hcode : Tidy (codeText request.code.field payload) :=
            ⟨by simpa using hne, trim_codeText _ _⟩
          exact wellRead_of_found hcode nofun fun _ _ => payloadText?_tidy
    next => cases h

/-- Code is found behind a marker just if the first block of the wanted kind there is not blank; it
is the body of that block, trimmed. What is read out of a completion comes out so in any case, with
one warning if a second artifact is missed. -/
theorem first_block_of_kind_is_read :
    (∀ completion slot code, markerBlock? completion slot = some code ↔
      ∃ behind b, Marked completion.toList slot behind b ∧
        (∃ c ∈ b.body, isBlank c = false) ∧ code = trim (String.ofList b.body)) ∧
    ∀ completion request x, extract completion request = .ok x →
      x.WellRead completion request :=
  ⟨fun _ _ _ => markerBlock?_eq_some_iff, fun _ _ _ => extract_wellRead⟩

/-- A block in front of the marker, one of another kind whose mark is too long, and a second marker
with nothing behind it. -/
def crowdedReply : String :=
  "[RUST_COD ```rust\nold\n``` [RUST_CODE] see ```toml\nx\n````\n```rust,ignore\n use a;\n\n``` " ++
    "[TOML]"

theorem crowded_reply_well_read :
    extract crowdedReply .conversion =
      .ok ⟨"use a;", none, [noBlockWarning manifestSlot], .markers⟩ ∧
    Extracted.WellRead ⟨"use a;", none, [noBlockWarning manifestSlot], .markers⟩
      crowdedReply .conversion ∧
    (∃ behind b, Marked crowdedReply.toList Request.conversion.code behind b ∧
      (∃ c ∈ b.body, isBlank c = false) ∧ "use a;" = trim (String.ofList b.body)) ∧
    ¬ ∃ behind b, Marked crowdedReply.toList manifestSlot behind b ∧
      ∃ c ∈ b.body, isBlank c = false := by
  obtain ⟨hrule, hread⟩ := first_block_of_kind_is_read
  have hextract : extract crowdedReply .conversion =
      .ok ⟨"use a;", none, [noBlockWarning manifestSlot], .markers⟩ := by decide +kernel
  have hcode : markerBlock? crowdedReply Request.conversion.code = some "use a;" := by
    decide +kernel
  have hmanifest : markerBlock? crowdedReply manifestSlot = none := by decide +kernel
  refine ⟨hextract, hread _ _ _ hextract, (hrule _ _ _).1 hcode, ?_⟩
  rintro ⟨behind, b, hmarked, hbody⟩
  have hsome := (hrule _ _ _).2 ⟨behind, b, hmarked, hbody, rfl⟩
  rw [hmanifest] at hsome
  cases hsome

end Anneal.Reply
