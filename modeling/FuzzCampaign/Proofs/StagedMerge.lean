import FuzzCampaign.Proofs.CoverageFile
import FuzzCampaign.Proofs.CoverageSum
import FuzzCampaign.Proofs.FilesKept

/-!
# Merging in stages

Coverage files may be merged in groups, and the files of the groups merged again, to any depth: what
comes out is what merging all files at once gives. A merge that cannot read one of its files leaves
everything as it was.

* `MergePlan`, `CommandLine.stagedMerge`: merging in stages;
* `CommandLine.OnlyRead`, `CommandLine.Spares`: what reading and writing leave as it was;
* `CommandLine.carryOut_settles`: what a stage leaves behind;
* **`CommandLine.stagedMerge_eq`**: stages make no difference.
-/

namespace FuzzCampaign

/-! ## Plans -/

/-- How coverage files are merged: a file is taken as it is, or made of others. -/
inductive MergePlan
  | file (path : String)
  /-- The parts, of which there is at least one, are merged into the file `output`. -/
  | merged (output : String) (first : MergePlan) (rest : List MergePlan)

namespace MergePlan

/-- Where a plan leaves its coverage. -/
def place : MergePlan → String
  | .file path => path
  | .merged output .. => output

mutual

/-- The files that a plan starts from. -/
def sources : MergePlan → List String
  | .file path => [path]
  | .merged _ first rest => first.sources ++ sourcesOf rest

/-- The files that plans start from. -/
def sourcesOf : List MergePlan → List String
  | [] => []
  | plan :: plans => plan.sources ++ sourcesOf plans

end

mutual

/-- The files that a plan writes, in order. -/
def outputs : MergePlan → List String
  | .file _ => []
  | .merged output first rest => first.outputs ++ outputsOf rest ++ [output]

/-- The files that plans write, in order. -/
def outputsOf : List MergePlan → List String
  | [] => []
  | plan :: plans => plan.outputs ++ outputsOf plans

end

theorem sources_ne_nil : ∀ plan : MergePlan, plan.sources ≠ []
  | .file path => by rw [sources]; exact List.cons_ne_nil _ _
  | .merged _ first rest => fun h => by
    rw [sources] at h
    exact first.sources_ne_nil (List.append_eq_nil_iff.1 h).1

theorem place_mem (plan : MergePlan) : plan.place ∈ plan.sources ∨ plan.place ∈ plan.outputs := by
  cases plan with
  | file path => exact .inl (by simp [sources, place])
  | merged output first rest => exact .inr (by simp [outputs, place])

end MergePlan

namespace CommandLine

open CommandAction

section

variable {m : Type → Type} [Monad m]

mutual

/-- Carry out a plan; gives the place of its coverage. -/
def carryOut (host : CommandHost m) : MergePlan → CommandAction m String
  | .file path => return path
  | .merged output first rest => do
    let file ← carryOut host first
    let files ← carryOutAll host rest
    let merged ← mergedCoverage host (file :: files)
    orStop (.failed <| .io ·) (← ask (host.writeFile output merged.fileText))
    return output

/-- Carry out plans; gives the places of their coverage. -/
def carryOutAll (host : CommandHost m) : List MergePlan → CommandAction m (List String)
  | [] => return []
  | plan :: plans => do
    let file ← carryOut host plan
    let files ← carryOutAll host plans
    return file :: files

end

/-- Merge what plans come to. -/
def stagedMerge (host : CommandHost m) (first : MergePlan) (rest : List MergePlan) :
    CommandAction m Coverage := do
  mergedCoverage host (← carryOutAll host (first :: rest))

end

variable {σ : Type} {host : CommandHost (StateM σ)}

/-! ## Reading -/

theorem outcome_readCoverage (s : σ) (path : String) :
    outcome (readCoverage host path) s =
      ((match host.contents s path with
        | .error reason => .error (.failed (.campaign (.io reason)))
        | .ok bytes => (Coverage.ofFileBytes bytes).mapError (.failed <| .campaign ·)),
      ((host.fileBytes path).run s).2) := by
  rw [readCoverage, outcome_bind, outcome_ask]
  change outcome (match host.contents s path with
    | .error reason => throw (.failed (.campaign (.io reason)))
    | .ok bytes => orFail (Coverage.ofFileBytes bytes)) _ = _
  rcases host.contents s path with reason | bytes
  · rfl
  · simp only [orFail, orStop]
    rcases Coverage.ofFileBytes bytes with e | c <;> rfl

/-- A world that differs from another by what reading leaves behind. -/
structure OnlyRead (laws : FileLaws host) (s s' : σ) : Prop where
  contents : ∀ path, host.contents s' path = host.contents s path
  writable : ∀ {path}, laws.writable s path → laws.writable s' path

theorem OnlyRead.holds {laws : FileLaws host} {s s' : σ} (h : OnlyRead laws s s') {path : String}
    {c : Coverage} : host.Holds s' path c ↔ host.Holds s path c := by
  rw [CommandHost.Holds, CommandHost.Holds, h.contents]

theorem onlyRead_refl (laws : FileLaws host) (s : σ) : OnlyRead laws s s := ⟨fun _ => rfl, id⟩

theorem OnlyRead.trans {laws : FileLaws host} {s s' s'' : σ} (h : OnlyRead laws s s')
    (h' : OnlyRead laws s' s'') : OnlyRead laws s s'' :=
  ⟨fun path => (h'.contents path).trans (h.contents path), fun hw => h'.writable (h.writable hw)⟩

theorem onlyRead_readCoverage (laws : FileLaws host) (s : σ) (path : String) :
    OnlyRead laws s (outcome (readCoverage host path) s).2 := by
  rw [outcome_readCoverage]
  exact ⟨laws.contents_read s path, laws.writable_read path⟩

theorem outcome_readAll_cons (path : String) (files : List String) (s : σ) :
    outcome ((path :: files).mapM (readCoverage host)) s =
      match outcome (readCoverage host path) s with
      | (.ok c, s') => ((outcome (files.mapM (readCoverage host)) s').1.map (c :: ·),
        (outcome (files.mapM (readCoverage host)) s').2)
      | (.error stop, s') => (.error stop, s') := by
  rw [List.mapM_cons, outcome_bind]
  rcases outcome (readCoverage host path) s with ⟨stop | c, s'⟩
  · rfl
  · simp only [outcome_bind]
    rcases outcome (files.mapM (readCoverage host)) s' with ⟨stop | cs, s''⟩ <;> rfl

theorem onlyRead_readAll (laws : FileLaws host) (files : List String) (s : σ) :
    OnlyRead laws s (outcome (files.mapM (readCoverage host)) s).2 := by
  induction files generalizing s with
  | nil => exact onlyRead_refl laws s
  | cons path files ih =>
    have hread := onlyRead_readCoverage laws s path
    rw [outcome_readAll_cons]
    generalize outcome (readCoverage host path) s = r at hread ⊢
    rcases r with ⟨stop | c, s'⟩
    · exact hread
    · exact hread.trans (ih s')

theorem readCoverage_of_holds {s : σ} {path : String} {c : Coverage} (h : host.Holds s path c) :
    (outcome (readCoverage host path) s).1 = .ok c := by
  obtain ⟨bytes, hbytes, hc⟩ := h
  rw [outcome_readCoverage, hbytes]
  simp only [hc]
  rfl

theorem holds_of_readCoverage {s : σ} {path : String} {c : Coverage}
    (h : (outcome (readCoverage host path) s).1 = .ok c) : host.Holds s path c := by
  rw [outcome_readCoverage] at h
  rcases hbytes : host.contents s path with reason | bytes
  · rw [hbytes] at h
    contradiction
  · rw [hbytes] at h
    rcases hc : Coverage.ofFileBytes bytes with e | c'
    · simp only [hc] at h
      contradiction
    · simp only [hc] at h
      cases h
      exact ⟨bytes, hbytes, hc⟩

theorem readAll_of_holds (laws : FileLaws host) {files : List String} {cs : List Coverage} {s : σ}
    (h : List.Forall₂ (host.Holds s) files cs) :
    (outcome (files.mapM (readCoverage host)) s).1 = .ok cs := by
  induction files generalizing s cs with
  | nil =>
    cases h
    rfl
  | cons path files ih =>
    rcases h with _ | ⟨hpath, hfiles⟩
    have hread := onlyRead_readCoverage laws s path
    have hfirst := readCoverage_of_holds hpath
    rw [outcome_readAll_cons]
    generalize outcome (readCoverage host path) s = r at hread hfirst ⊢
    rcases r with ⟨stop | c, s'⟩
    · contradiction
    · cases hfirst
      have hrest : OnlyRead laws s s' := hread
      simp only [ih (hfiles.imp fun _ _ => hrest.holds.2)]
      rfl

theorem readAll_fails (laws : FileLaws host) {files : List String} {s : σ}
    (h : ∃ path ∈ files, ∀ c, ¬host.Holds s path c) :
    ∃ stop, (outcome (files.mapM (readCoverage host)) s).1 = .error stop := by
  induction files generalizing s with
  | nil => simp at h
  | cons path files ih =>
    have hread := onlyRead_readCoverage laws s path
    have hfirst : ∀ c, (outcome (readCoverage host path) s).1 = .ok c → host.Holds s path c :=
      fun c => holds_of_readCoverage
    rw [outcome_readAll_cons]
    generalize outcome (readCoverage host path) s = r at hread hfirst ⊢
    rcases r with ⟨stop | c, s'⟩
    · exact ⟨stop, rfl⟩
    · obtain ⟨bad, hbad, hnone⟩ := h
      rcases List.mem_cons.1 hbad with rfl | hbad
      · exact absurd (hfirst c rfl) (hnone c)
      · have hrest : OnlyRead laws s s' := hread
        obtain ⟨stop, hstop⟩ := ih ⟨bad, hbad, fun c hc => hnone c (hrest.holds.1 hc)⟩
        refine ⟨stop, ?_⟩
        simp only [hstop]
        rfl

theorem outcome_mergedCoverage {files : List String} (hne : files ≠ []) (s : σ) :
    outcome (mergedCoverage host files) s =
      ((outcome (files.mapM (readCoverage host)) s).1.map Coverage.merge,
        (outcome (files.mapM (readCoverage host)) s).2) := by
  have hempty : files.isEmpty = false := by simp [hne]
  rw [mergedCoverage, hempty]
  simp only [Bool.false_eq_true, if_false, outcome_bind]
  rcases outcome (files.mapM (readCoverage host)) s with ⟨stop | cs, s'⟩ <;> rfl

theorem onlyRead_mergedCoverage (laws : FileLaws host) (files : List String) (s : σ) :
    OnlyRead laws s (outcome (mergedCoverage host files) s).2 := by
  by_cases hne : files = []
  · subst hne
    exact onlyRead_refl laws s
  · rw [outcome_mergedCoverage hne]
    exact onlyRead_readAll laws files s

theorem mergedCoverage_of_holds (laws : FileLaws host) {files : List String} {cs : List Coverage}
    {s : σ} (hne : files ≠ []) (h : List.Forall₂ (host.Holds s) files cs) :
    (outcome (mergedCoverage host files) s).1 = .ok (.merge cs) := by
  rw [outcome_mergedCoverage hne, readAll_of_holds laws h]
  rfl

/-! ## Stages -/

variable (laws : FileLaws host)

/-- Files to start from, which hold the coverage `f`, and files to write in a world. -/
structure Fits (f : String → Coverage) (s : σ) (sources outputs : List String) : Prop where
  holds : ∀ path ∈ sources, host.Holds s path (f path)
  writable : ∀ output ∈ outputs, laws.writable s output
  different : outputs.Pairwise laws.apart
  apart : ∀ output ∈ outputs, ∀ path ∈ sources, laws.apart output path

/-- What is left as it was when some files are written. -/
structure Spares (s s' : σ) (outputs : List String) : Prop where
  holds : ∀ path c, (∀ output ∈ outputs, laws.apart output path) → host.Holds s path c →
    host.Holds s' path c
  writable : ∀ {path}, laws.writable s path → laws.writable s' path

variable {laws} {f : String → Coverage} {s s' s'' : σ} {sources more outputs next : List String}

theorem OnlyRead.spares (h : OnlyRead laws s s') : Spares laws s s' [] :=
  ⟨fun _ _ _ => h.holds.2, h.writable⟩

theorem Spares.trans (h : Spares laws s s' outputs) (h' : Spares laws s' s'' next) :
    Spares laws s s'' (outputs ++ next) where
  holds path c hapart hc := h'.holds path c
    (fun output ho => hapart output (List.mem_append_right _ ho))
    (h.holds path c (fun output ho => hapart output (List.mem_append_left _ ho)) hc)
  writable hw := h'.writable (h.writable hw)

theorem Fits.first (h : Fits laws f s (sources ++ more) (outputs ++ next)) :
    Fits laws f s sources outputs where
  holds path hp := h.holds path (List.mem_append_left _ hp)
  writable output ho := h.writable output (List.mem_append_left _ ho)
  different := (List.pairwise_append.1 h.different).1
  apart output ho path hp :=
    h.apart output (List.mem_append_left _ ho) path (List.mem_append_left _ hp)

theorem Fits.later (h : Fits laws f s (sources ++ more) (outputs ++ next))
    (hspares : Spares laws s s' outputs) : Fits laws f s' more next where
  holds path hp := hspares.holds path _
    (fun output ho => h.apart output (List.mem_append_left _ ho) path (List.mem_append_right _ hp))
    (h.holds path (List.mem_append_right _ hp))
  writable output ho := hspares.writable (h.writable output (List.mem_append_right _ ho))
  different := (List.pairwise_append.1 h.different).2.1
  apart output ho path hp :=
    h.apart output (List.mem_append_right _ ho) path (List.mem_append_right _ hp)

theorem spares_write {path : String} (text : String) (h : laws.writable s path) :
    Spares laws s ((host.writeFile path text).run s).2 [path] where
  holds other c hapart hc := by
    obtain ⟨bytes, hbytes, hc⟩ := hc
    have hother := hapart path (List.mem_singleton_self path)
    exact ⟨bytes, laws.contents_write_apart text h hother hbytes, hc⟩
  writable := laws.writable_write text h

theorem holds_write {path : String} (c : Coverage) (h : laws.writable s path) :
    host.Holds ((host.writeFile path c.fileText).run s).2 path c :=
  ⟨_, laws.contents_write c.fileText h, Coverage.ofFileBytes_fileText c⟩

/-- What carrying out a plan comes to: its place holds coverage that adds what the files do that it
starts from, and no other file changes. -/
def Settles (laws : FileLaws host) (f : String → Coverage) (plan : MergePlan) : Prop :=
  ∀ s, Fits laws f s plan.sources plan.outputs → ∃ c s',
    outcome (carryOut host plan) s = (.ok plan.place, s') ∧ host.Holds s' plan.place c ∧
      Coverage.SameSum [c] (plan.sources.map f) ∧ Spares laws s s' plan.outputs

/-- What carrying out several plans comes to. -/
def SettlesAll (laws : FileLaws host) (f : String → Coverage) (plans : List MergePlan) : Prop :=
  ∀ s, Fits laws f s (MergePlan.sourcesOf plans) (MergePlan.outputsOf plans) → ∃ cs s',
    outcome (carryOutAll host plans) s = (.ok (plans.map (·.place)), s') ∧
      List.Forall₂ (host.Holds s') (plans.map (·.place)) cs ∧
      Coverage.SameSum cs ((MergePlan.sourcesOf plans).map f) ∧
      Spares laws s s' (MergePlan.outputsOf plans)

theorem settlesAll_nil : SettlesAll laws f [] := by
  intro s _
  exact ⟨[], s, rfl, .nil, Coverage.sameSum_refl _, (onlyRead_refl laws s).spares⟩

theorem SettlesAll.cons {plan : MergePlan} {plans : List MergePlan} (h : Settles laws f plan)
    (hplans : SettlesAll laws f plans) : SettlesAll laws f (plan :: plans) := by
  intro s hfits
  rw [MergePlan.sourcesOf, MergePlan.outputsOf] at hfits ⊢
  obtain ⟨c, s', hrun, hholds, hsum, hspares⟩ := h s hfits.first
  obtain ⟨cs, s'', hrun', hholds', hsum', hspares'⟩ := hplans s' (hfits.later hspares)
  -- what the first plan leaves is not written over by the later ones
  have hapart : ∀ output ∈ MergePlan.outputsOf plans, laws.apart output plan.place := by
    intro output ho
    rcases plan.place_mem with hplace | hplace
    · exact hfits.apart output (List.mem_append_right _ ho) _ (List.mem_append_left _ hplace)
    · exact laws.apart_symm ((List.pairwise_append.1 hfits.different).2.2 _ hplace _ ho)
  refine ⟨c :: cs, s'', ?_, .cons (hspares'.holds _ _ hapart hholds) hholds', ?_,
    hspares.trans hspares'⟩
  · rw [carryOutAll, outcome_bind, hrun]
    simp only [outcome_bind, hrun']
    rfl
  · rw [List.map_append]
    exact hsum.append hsum'

theorem carryOut_merged (output : String) (first : MergePlan) (rest : List MergePlan) :
    carryOut host (.merged output first rest) = (do
      let merged ← mergedCoverage host (← carryOutAll host (first :: rest))
      orStop (.failed <| .io ·) (← ask (host.writeFile output merged.fileText))
      return output) := by
  simp only [carryOut, carryOutAll, bind_assoc, pure_bind]

theorem settles_merged {output : String} {first : MergePlan} {rest : List MergePlan}
    (h : SettlesAll laws f (first :: rest)) : Settles laws f (.merged output first rest) := by
  intro s hfits
  have hsources : (MergePlan.merged output first rest).sources =
      MergePlan.sourcesOf (first :: rest) := by
    rw [MergePlan.sources, MergePlan.sourcesOf]
  have houtputs : (MergePlan.merged output first rest).outputs =
      MergePlan.outputsOf (first :: rest) ++ [output] := by
    rw [MergePlan.outputs, MergePlan.outputsOf]
  rw [hsources, houtputs] at hfits ⊢
  rw [← List.append_nil (MergePlan.sourcesOf _)] at hfits
  obtain ⟨cs, s', hrun, hholds, hsum, hspares⟩ := h s hfits.first
  have hmerged := mergedCoverage_of_holds laws (List.cons_ne_nil _ _) hholds
  have hread := onlyRead_mergedCoverage laws ((first :: rest).map (·.place)) s'
  rcases hout : outcome (mergedCoverage host ((first :: rest).map (·.place))) s' with ⟨r, t⟩
  rw [List.map_cons] at hout
  rw [List.map_cons, hout] at hread
  obtain rfl : r = .ok (.merge cs) := by rwa [hout] at hmerged
  -- neither the parts nor reading them took away the place of the sum
  have hwritable : laws.writable t output := hread.writable
    ((hfits.later hspares).writable output (List.mem_singleton_self output))
  have hwrite := laws.write_ok (Coverage.merge cs).fileText hwritable
  refine ⟨.merge cs, ((host.writeFile output (Coverage.merge cs).fileText).run t).2, ?_,
    holds_write _ hwritable, (Coverage.sameSum_merge cs).trans hsum,
    hspares.trans (hread.spares.trans (spares_write _ hwritable))⟩
  rw [carryOut_merged]
  simp only [outcome_bind, hrun, List.map_cons, hout, outcome_ask, hwrite]
  rfl

mutual

/-- **What a stage leaves behind.** -/
theorem carryOut_settles (laws : FileLaws host) (f : String → Coverage) :
    ∀ plan : MergePlan, Settles laws f plan
  | .file path => fun s hfits => ⟨f path, s, rfl, hfits.holds path (by simp [MergePlan.sources]),
    Coverage.sameSum_refl _, (onlyRead_refl laws s).spares⟩
  | .merged _ first rest =>
    settles_merged ((carryOutAll_settles laws f rest).cons (carryOut_settles laws f first))

theorem carryOutAll_settles (laws : FileLaws host) (f : String → Coverage) :
    ∀ plans : List MergePlan, SettlesAll laws f plans
  | [] => settlesAll_nil
  | plan :: plans => (carryOutAll_settles laws f plans).cons (carryOut_settles laws f plan)

end

/-- **Merging in stages is merging at once.** If every file holds coverage and the stages write into
files of their own, then files merged in groups, to any depth and in any order, come to what merging
all of them at once gives; what was merged before is its own merge; and where a file is missing or
malformed the merge fails and every file stays as it was. -/
theorem stagedMerge_eq (laws : FileLaws host) (s : σ) :
    (∀ f first rest files, files.Perm (MergePlan.sourcesOf (first :: rest)) →
      Fits laws f s files (MergePlan.outputsOf (first :: rest)) →
      (outcome (mergedCoverage host files) s).1 = .ok (.merge (files.map f)) ∧
      (outcome (stagedMerge host first rest) s).1 = .ok (.merge (files.map f))) ∧
    (∀ path parts,
      host.contents s path = .ok (Utf8.encode (Coverage.merge parts).fileText.toList) →
      (outcome (mergedCoverage host [path]) s).1 = .ok (.merge parts)) ∧
    ∀ files console output, (∃ path ∈ files, ∀ c, ¬host.Holds s path c) →
      ∃ stop s', outcome (mergedCoverage host files) s = (.error stop, s') ∧
        outcome (mergeInto host console files output) s = (.error stop, s') ∧
        ∀ path, host.contents s' path = host.contents s path := by
  refine ⟨fun f first rest files hperm hfits => ⟨?_, ?_⟩, fun path parts h => ?_,
    fun files console output h => ?_⟩
  · have hne : files ≠ [] := by
      rintro rfl
      rw [MergePlan.sourcesOf] at hperm
      exact first.sources_ne_nil (List.append_eq_nil_iff.1 hperm.nil_eq.symm).1
    exact mergedCoverage_of_holds laws hne (List.forall₂_map_right_iff.2
      (List.forall₂_same.2 hfits.holds))
  · have hfits' : Fits laws f s (MergePlan.sourcesOf (first :: rest))
        (MergePlan.outputsOf (first :: rest)) :=
      ⟨fun path hp => hfits.holds path (hperm.mem_iff.2 hp), hfits.writable, hfits.different,
        fun output ho path hp => hfits.apart output ho path (hperm.mem_iff.2 hp)⟩
    obtain ⟨cs, s', hrun, hholds, hsum, -⟩ := carryOutAll_settles laws f (first :: rest) s hfits'
    rw [stagedMerge, outcome_bind, hrun]
    have hmerged := mergedCoverage_of_holds laws (List.cons_ne_nil _ _) hholds
    rw [(hsum.trans (Coverage.sameSum_perm (hperm.map f).symm)).merge_eq] at hmerged
    exact hmerged
  · have hholds : host.Holds s path (.merge parts) := ⟨_, h, Coverage.ofFileBytes_fileText _⟩
    rw [mergedCoverage_of_holds laws (List.cons_ne_nil _ _) (.cons hholds .nil),
      (Coverage.reduced_merge parts).merge_singleton]
  · have hne : files ≠ [] := by
      rintro rfl
      simp at h
    obtain ⟨stop, hstop⟩ := readAll_fails laws h
    have hread := onlyRead_mergedCoverage laws files s
    have hfails : (outcome (mergedCoverage host files) s).1 = .error stop := by
      rw [outcome_mergedCoverage hne, hstop]
      rfl
    refine ⟨stop, (outcome (mergedCoverage host files) s).2, Prod.ext hfails rfl, ?_,
      hread.contents⟩
    rw [mergeInto, outcome_bind]
    generalize outcome (mergedCoverage host files) s = r at hfails ⊢
    rcases r with ⟨_, s'⟩
    subst hfails
    rfl

/-! ### Four files -/

/-- Coverage of one position. -/
def onePlace (hits : UInt64) : Coverage := .ofRecords [("c", ⟨1, 2, 3, 4⟩, ⟨"f", hits⟩)]

/-- A disk with three coverage files and one that was merged before. -/
def fourFiles : Disk where
  files := [(["a"], Utf8.encode (onePlace 1).fileText.toList),
    (["b"], Utf8.encode (onePlace 2).fileText.toList),
    (["c"], Utf8.encode (onePlace 3).fileText.toList),
    (["m"], Utf8.encode (Coverage.merge [onePlace 4]).fileText.toList)]
  directories := []

/-- What three of the files hold. -/
def inFile (path : String) : Coverage :=
  onePlace (if path = "a" then 1 else if path = "b" then 2 else 3)

theorem contents_fourFiles {path : String} (parts : DiskPath) (h : Disk.parts path = parts) :
    Disk.host.contents fourFiles path = (fourFiles.bytes parts).mapError (·.message) := by
  subst h
  rfl

theorem holds_fourFiles {path : String} (parts : DiskPath) (c : Coverage)
    (h : Disk.parts path = parts)
    (hbytes : fourFiles.bytes parts = .ok (Utf8.encode c.fileText.toList)) :
    Disk.host.Holds fourFiles path c := by
  refine ⟨_, ?_, Coverage.ofFileBytes_fileText c⟩
  rw [contents_fourFiles parts h, hbytes]
  rfl

theorem fits_fourFiles : Fits Disk.fileLaws inFile fourFiles ["c", "a", "b"] ["ab"] where
  holds path hp := by
    have hcases : path = "c" ∨ path = "a" ∨ path = "b" := by simpa using hp
    rcases hcases with rfl | rfl | rfl
    · exact holds_fourFiles ["c"] (onePlace 3) (by decide) rfl
    · exact holds_fourFiles ["a"] (onePlace 1) (by decide) rfl
    · exact holds_fourFiles ["b"] (onePlace 2) (by decide) rfl
  writable output ho := by
    obtain rfl : output = "ab" := by simpa using ho
    have hparts : Disk.parts "ab" = ["ab"] := by decide
    change fourFiles.Writable (Disk.parts "ab")
    rw [hparts]
    exact ⟨rfl, by simp, rfl⟩
  different := List.pairwise_singleton _ _
  apart output ho path hp := by
    obtain rfl : output = "ab" := by simpa using ho
    have hparts : Disk.parts "ab" = ["ab"] := by decide
    have hcases : path = "c" ∨ path = "a" ∨ path = "b" := by simpa using hp
    change Disk.parts "ab" ≠ Disk.parts path
    rw [hparts]
    rcases hcases with rfl | rfl | rfl
    · rw [show Disk.parts "c" = ["c"] by decide]
      decide
    · rw [show Disk.parts "a" = ["a"] by decide]
      decide
    · rw [show Disk.parts "b" = ["b"] by decide]
      decide

/-- Two of three files merged first; a file merged before; and a file that is missing. -/
theorem stagedMerge_eq_fourFiles :
    (outcome (mergedCoverage Disk.host ["c", "a", "b"]) fourFiles).1 =
      .ok (.merge [onePlace 3, onePlace 1, onePlace 2]) ∧
    (outcome (stagedMerge Disk.host (.merged "ab" (.file "a") [.file "b"]) [.file "c"])
      fourFiles).1 = .ok (.merge [onePlace 3, onePlace 1, onePlace 2]) ∧
    (outcome (mergedCoverage Disk.host ["m"]) fourFiles).1 = .ok (.merge [onePlace 4]) ∧
    ∃ stop d, outcome (mergeInto Disk.host ⟨false, false, true⟩ ["a", "d"] "m") fourFiles =
      (.error stop, d) ∧ Disk.host.contents d "m" = Disk.host.contents fourFiles "m" := by
  obtain ⟨hstaged, hsingle, hfails⟩ := stagedMerge_eq Disk.fileLaws fourFiles
  obtain ⟨hflat, hstages⟩ := hstaged inFile (.merged "ab" (.file "a") [.file "b"]) [.file "c"]
    ["c", "a", "b"] (by decide) fits_fourFiles
  have hmissing : ∀ c, ¬Disk.host.Holds fourFiles "d" c := by
    rintro c ⟨bytes, hbytes, -⟩
    rw [contents_fourFiles ["d"] (by decide)] at hbytes
    exact absurd hbytes nofun
  obtain ⟨stop, d, -, hinto, hcontents⟩ := hfails ["a", "d"] ⟨false, false, true⟩ "m"
    ⟨"d", by simp, hmissing⟩
  have hcontents' : Disk.host.contents fourFiles "m" =
      .ok (Utf8.encode (Coverage.merge [onePlace 4]).fileText.toList) := by
    rw [contents_fourFiles ["m"] (by decide)]
    rfl
  exact ⟨hflat, hstages, hsingle "m" [onePlace 4] hcontents', stop, d, hinto, hcontents "m"⟩

end CommandLine

end FuzzCampaign
