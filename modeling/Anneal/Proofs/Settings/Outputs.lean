import Anneal.Proofs.Disk.Names
import Anneal.Settings.Basic

/-! The files that are written by way of the settings, and when the reference is one of them. Two
paths are the same file if they lead to the same place. -/

namespace Anneal

def Path.extension? (path : String) : Option String :=
  (fileName? path).bind fun name => (splitName name).2

namespace Settings

open Disk

/-- What a conversion and a repair write, and what they have the compilers write. -/
def outputs (s : Settings) : List String :=
  [s.candidatePath, s.manifestPath, Artifact.temporary s.candidatePath,
    Artifact.temporary s.manifestPath, executableFor s.candidatePath,
    executableFor s.referencePath]

structure StoresReference (s : Settings) (home : Place) (name : String) : Prop where
  file : Path.fileName? s.referencePath = some name
  place : placeOf home s.referencePath = placeOf home s.outputDir ++ [name]

/-- The references that are written over. -/
inductive Overwrites (s : Settings) (home : Place) : Prop
  | bare (h : Path.extension? s.referencePath = none)
  | candidate {name : String} (h : s.StoresReference home name)
      (hext : Path.extension? s.referencePath = some "rs")
  | manifest (h : s.StoresReference home "Cargo.toml")
  | temporary (h : s.StoresReference home "Cargo.toml.tmp")
  | dots (hstem : s.stem = "." ∨ s.stem = "..")
      (hplace : stepInto (placeOf home s.outputDir) s.stem = placeOf home s.referencePath)

variable {s : Settings} {home : Place}

theorem stem_spec (s : Settings) : s.stem.toList ≠ [] ∧ '/' ∉ s.stem.toList := by
  unfold stem Path.fileStem?
  cases h : Path.fileName? s.referencePath with
  | none => exact ⟨by decide, by decide⟩
  | some name => exact Path.stem_of_ordinary (ordinary_fileName h).2

theorem candidateName_ordinary (s : Settings) : Ordinary (s.stem ++ "." ++ "rs") := by
  have hlength : (s.stem ++ "." ++ "rs").toList.length = s.stem.toList.length + 3 := by simp
  refine ⟨by simp, by simp [(stem_spec s).2], fun h => ?_, fun h => ?_⟩
  · rw [h] at hlength
    simp at hlength
  · rw [h] at hlength
    simp at hlength

theorem fileName?_candidatePath (s : Settings) :
    Path.fileName? s.candidatePath = some (s.stem ++ "." ++ "rs") :=
  fileName?_join (candidateName_ordinary s) s.outputDir

theorem ordinary_manifestName : Ordinary "Cargo.toml" :=
  ⟨by decide, by decide, by decide, by decide⟩

theorem fileName?_manifestPath (s : Settings) :
    Path.fileName? s.manifestPath = some "Cargo.toml" :=
  fileName?_join ordinary_manifestName s.outputDir

theorem placeOf_candidatePath (s : Settings) (home : Place) :
    placeOf home s.candidatePath = placeOf home s.outputDir ++ [s.stem ++ "." ++ "rs"] :=
  placeOf_join (candidateName_ordinary s) home

theorem placeOf_manifestPath (s : Settings) (home : Place) :
    placeOf home s.manifestPath = placeOf home s.outputDir ++ ["Cargo.toml"] :=
  placeOf_join ordinary_manifestName home

theorem placeOf_candidateTemporary (s : Settings) (home : Place) :
    placeOf home (Artifact.temporary s.candidatePath) =
      placeOf home s.outputDir ++ [s.stem ++ "." ++ "rs" ++ ".tmp"] := by
  rw [placeOf_temporary (fileName?_candidatePath s), placeOf_candidatePath, List.dropLast_concat]

theorem placeOf_manifestTemporary (s : Settings) (home : Place) :
    placeOf home (Artifact.temporary s.manifestPath) =
      placeOf home s.outputDir ++ ["Cargo.toml.tmp"] := by
  rw [placeOf_temporary (fileName?_manifestPath s), placeOf_manifestPath, List.dropLast_concat]
  rfl

theorem placeOf_candidateExecutable (s : Settings) (home : Place) :
    placeOf home (executableFor s.candidatePath) =
      stepInto (placeOf home s.outputDir) s.stem := by
  rw [placeOf_executableFor (fileName?_candidatePath s), placeOf_candidatePath,
    List.dropLast_concat, Path.splitName_append (stem_spec s).1 (by decide)]

section Extension

variable {name extension : String}

structure Extended (s : Settings) (name extension : String) : Prop where
  file : Path.fileName? s.referencePath = some name
  cut : name = s.stem ++ "." ++ extension
  dot : '.' ∉ extension.toList

theorem extension?_cases (s : Settings) :
    Path.extension? s.referencePath = none ∨ ∃ name extension, s.Extended name extension ∧
      Path.extension? s.referencePath = some extension := by
  unfold Path.extension?
  cases hname : Path.fileName? s.referencePath with
  | none => exact .inl rfl
  | some name =>
    have hstem : s.stem = (Path.splitName name).1 := by
      rw [stem, Path.fileStem?, hname]
      rfl
    have hsplit := Path.splitName_split name
    rw [Option.bind_some]
    revert hstem hsplit
    generalize Path.splitName name = cut
    rintro hstem (_ | ⟨hcut, -, hdot⟩)
    · exact .inl rfl
    · exact .inr ⟨name, _, ⟨hname, hstem ▸ hcut, hdot⟩, rfl⟩

theorem storesReference_iff (hname : Path.fileName? s.referencePath = some name)
    {other : String} :
    placeOf home s.outputDir ++ [other] = placeOf home s.referencePath ↔
      s.StoresReference home other := by
  constructor
  · intro h
    have hlast := placeOf_parent hname home
    rw [← h] at hlast
    obtain rfl := List.singleton_inj.1 (List.append_inj_right' hlast rfl)
    exact ⟨hname, h.symm⟩
  · exact fun h => h.place.symm

theorem Extended.candidate (h : s.Extended name extension) :
    placeOf home s.candidatePath = placeOf home s.referencePath ↔
      s.StoresReference home name ∧ extension = "rs" := by
  rw [placeOf_candidatePath, storesReference_iff h.file]
  constructor
  · intro hs
    have hcut : s.stem ++ "." ++ "rs" = s.stem ++ "." ++ extension :=
      (Option.some.inj (hs.file.symm.trans h.file)).trans h.cut
    have hrs := (String.append_right_inj _).1 hcut
    rw [h.cut, ← hrs]
    exact ⟨hs, rfl⟩
  · rintro ⟨hs, rfl⟩
    rwa [← h.cut]

theorem Extended.candidateTemporary (h : s.Extended name extension) :
    placeOf home (Artifact.temporary s.candidatePath) ≠ placeOf home s.referencePath := by
  rw [placeOf_candidateTemporary, Ne, storesReference_iff h.file]
  intro hs
  have hcut : s.stem ++ "." ++ "rs" ++ ".tmp" = s.stem ++ "." ++ extension :=
    (Option.some.inj (hs.file.symm.trans h.file)).trans h.cut
  rw [String.append_assoc] at hcut
  have hextension := (String.append_right_inj _).1 hcut
  exact h.dot (hextension ▸ by decide)

theorem Extended.stem_ne (h : s.Extended name extension) : s.stem ≠ name := by
  intro he
  have hlength := congrArg String.length h.cut
  rw [← he, String.length_append, String.length_append] at hlength
  have : (".").length = 1 := rfl
  omega

theorem Extended.candidateExecutable (h : s.Extended name extension) :
    placeOf home (executableFor s.candidatePath) = placeOf home s.referencePath ↔
      (s.stem = "." ∨ s.stem = "..") ∧
        stepInto (placeOf home s.outputDir) s.stem = placeOf home s.referencePath := by
  rw [placeOf_candidateExecutable]
  refine ⟨fun he => ⟨?_, he⟩, And.right⟩
  by_contra hn
  rw [not_or] at hn
  rw [(⟨(stem_spec s).1, (stem_spec s).2, hn.1, hn.2⟩ : Ordinary s.stem).stepInto,
    storesReference_iff h.file] at he
  exact h.stem_ne (Option.some.inj (he.file.symm.trans h.file))

theorem Extended.referenceExecutable (h : s.Extended name extension) :
    placeOf home (executableFor s.referencePath) ≠ placeOf home s.referencePath := by
  have hstem : (Path.splitName name).1 = s.stem := by
    rw [h.cut, Path.splitName_append (stem_spec s).1 h.dot]
  rw [placeOf_executableFor h.file, hstem, placeOf_parent h.file, List.dropLast_concat, stepInto]
  intro he
  split at he
  · simpa using congrArg List.length he
  · split at he
    · have := congrArg List.length he
      rw [List.length_dropLast, List.length_append, List.length_singleton] at this
      omega
    · exact h.stem_ne (List.singleton_inj.1 (List.append_inj_right' he rfl))

end Extension

theorem executableFor_bare {path : String} (h : Path.extension? path = none) (home : Place) :
    placeOf home (executableFor path) = placeOf home path := by
  cases hname : Path.fileName? path with
  | none => rw [executableFor, Path.withoutExtension, Path.fileStem?, hname]; rfl
  | some name =>
    have hsplit := Path.splitName_split name
    rw [Path.extension?, hname, Option.bind_some] at h
    rw [placeOf_executableFor hname, placeOf_parent hname, List.dropLast_concat]
    revert h hsplit
    generalize Path.splitName name = cut
    rintro h (_ | _)
    · exact (ordinary_fileName hname).2.stepInto _
    · cases h

/-- One of the outputs is the reference where it is overwritten, and nowhere else. -/
theorem mem_outputs_iff (s : Settings) (home : Place) :
    (∃ path ∈ s.outputs, placeOf home path = placeOf home s.referencePath) ↔
      s.Overwrites home := by
  constructor
  · rintro ⟨path, hpath, h⟩
    obtain hbare | ⟨name, extension, hx, hext⟩ := extension?_cases s
    · exact .bare hbare
    · simp only [outputs, List.mem_cons, List.not_mem_nil, or_false] at hpath
      rcases hpath with rfl | rfl | rfl | rfl | rfl | rfl
      · obtain ⟨hs, rfl⟩ := hx.candidate.1 h
        exact .candidate hs hext
      · rw [placeOf_manifestPath, storesReference_iff hx.file] at h
        exact .manifest h
      · exact absurd h hx.candidateTemporary
      · rw [placeOf_manifestTemporary, storesReference_iff hx.file] at h
        exact .temporary h
      · obtain ⟨hstem, hplace⟩ := hx.candidateExecutable.1 h
        exact .dots hstem hplace
      · exact absurd h hx.referenceExecutable
  · rintro (h | ⟨h, hext⟩ | h | h | ⟨hstem, hplace⟩)
    · exact ⟨executableFor s.referencePath, by simp [outputs], executableFor_bare h home⟩
    · obtain hbare | ⟨name, extension, hx, hext'⟩ := extension?_cases s
      · rw [hbare] at hext
        cases hext
      · obtain rfl := Option.some.inj (hext'.symm.trans hext)
        obtain rfl := Option.some.inj (h.file.symm.trans hx.file)
        exact ⟨s.candidatePath, by simp [outputs], hx.candidate.2 ⟨h, rfl⟩⟩
    · exact ⟨s.manifestPath, by simp [outputs], (placeOf_manifestPath s home).trans h.place.symm⟩
    · refine ⟨Artifact.temporary s.manifestPath, by simp [outputs], ?_⟩
      exact (placeOf_manifestTemporary s home).trans h.place.symm
    · refine ⟨executableFor s.candidatePath, by simp [outputs], ?_⟩
      exact (placeOf_candidateExecutable s home).trans hplace

end Settings
end Anneal
