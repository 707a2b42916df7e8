import FunctionMap.Proofs.Batch.Policy
import FunctionMap.Proofs.Output.Unloadable

/-!
# What a successful batch has delivered

An output is no source, so a job whose input was overwritten by an earlier one fails. In a batch that
succeeds, every job has therefore read its input as it was at the start. An output can be overwritten by
a later one, though: two jobs may ask for the same file, and both succeed.

Main statement: `successful_batch_delivers`.
-/

namespace FunctionMap
namespace Batch

variable {σ ι : Type}

/-! ## 1. Attempts that succeed -/

section Lawful

variable {files : FileAccess (StateM σ)} {file? : σ → String → Option ι} {format : String}
  {extension : String}

/-- An attempt that succeeds has read a source and written its conversion. -/
theorem Attempt.Legal.exists_written {c : Converter} {a : Attempt σ}
    (h : a.Legal files c extension) (hdone : a.succeeded = true) :
    ∃ source bytes, files.content? a.before a.job.input = some source ∧
      c.output source = .ok bytes ∧
      (files.write (outputPath extension a.job) bytes).run a.before = (.ok (), a.after) := by
  cases h with
  | unread hread => cases hdone
  | refused hread houtput => cases hdone
  | unwritten hread houtput hwrite => cases hdone
  | written hread houtput hwrite =>
    refine ⟨_, _, ?_, houtput, hwrite⟩
    rw [FileAccess.content?, hread]
    rfl

namespace Chain

variable {c : Converter} {s s' : σ} {attempts before after : List (Attempt σ)} {a : Attempt σ}

/-- What comes before an attempt, and what comes behind it. -/
theorem split (h : Chain files c extension s (before ++ a :: after) s') :
    Chain files c extension s before a.before ∧ a.Legal files c extension ∧
      Chain files c extension a.after after s' := by
  induction before generalizing s with
  | nil =>
    cases h with
    | cons ha hrest => exact ⟨.nil _, ha, hrest⟩
  | cons b before ih =>
    cases h with
    | cons hb hrest =>
      obtain ⟨hbefore, ha, hafter⟩ := ih hrest
      exact ⟨.cons hb hbefore, ha, hafter⟩

/-- A file at an output holds an output in the end. -/
theorem content?_output (hfiles : files.Lawful file?) (h : Chain files c extension s attempts s')
    (hdone : ∀ a ∈ attempts, a.succeeded = true) {path : String}
    (hwritten : ∃ a ∈ attempts, FileAccess.SameFile file? s (outputPath extension a.job) path) :
    ∃ source bytes, c.output source = .ok bytes ∧ files.content? s' path = some bytes := by
  induction h with
  | nil s =>
    obtain ⟨a, ha, -⟩ := hwritten
    exact absurd ha List.not_mem_nil
  | @cons a rest s' ha hrest ih =>
    obtain ⟨hadone, hdone⟩ := List.forall_mem_cons.mp hdone
    by_cases hlater : ∃ b ∈ rest, FileAccess.SameFile file? a.after (outputPath extension b.job) path
    · exact ih hdone hlater
    · -- nothing behind it writes there, so what it wrote is there in the end
      obtain ⟨b, hb, hpath⟩ := hwritten
      obtain rfl | hb := List.mem_cons.mp hb
      · obtain ⟨source, bytes, -, houtput, hwrite⟩ := ha.exists_written hadone
        refine ⟨source, bytes, houtput, ?_⟩
        rw [hrest.content?_after hfiles fun d hd _ hsame => hlater ⟨d, hd, hsame⟩]
        exact hfiles.written hwrite path hpath
      · exact absurd ⟨b, hb, (ha.sameFile_iff hfiles).mpr hpath⟩ hlater

end Chain

/-- What a batch that has attempted every job and done it has delivered for one of them. -/
theorem Chain.delivers (hfiles : files.Lawful file?) {s s' : σ} {before after : List (Attempt σ)}
    {a : Attempt σ} (h : Chain files (.ofFormat format) extension s (before ++ a :: after) s')
    (hdone : ∀ b ∈ before ++ a :: after, b.succeeded = true) :
    (∀ b ∈ before, ¬ FileAccess.SameFile file? s (outputPath extension b.job) a.job.input) ∧
    ∃ source bytes, files.content? s a.job.input = some source ∧
      (Converter.ofFormat format).output source = .ok bytes ∧
      ∀ path, FileAccess.SameFile file? s (outputPath extension a.job) path →
        (∀ b ∈ after, ¬ FileAccess.SameFile file? s (outputPath extension b.job) path) →
        files.content? s' path = some bytes := by
  obtain ⟨hbefore, ha, hafter⟩ := h.split
  obtain ⟨hbeforeDone, hdone⟩ := List.forall_mem_append.mp hdone
  obtain ⟨hadone, -⟩ := List.forall_mem_cons.mp hdone
  obtain ⟨source, bytes, hread, houtput, hwrite⟩ := ha.exists_written hadone
  have hinput : ∀ b ∈ before,
      ¬ FileAccess.SameFile file? s (outputPath extension b.job) a.job.input := by
    -- an output at the input would have been read, and it does not load
    intro b hb hsame
    obtain ⟨source', bytes', houtput', hread'⟩ :=
      hbefore.content?_output hfiles hbeforeDone ⟨b, hb, hsame⟩
    obtain rfl : source = bytes' := Option.some.inj (hread.symm.trans hread')
    obtain ⟨e, hrefused⟩ := Converter.load_output houtput'
    obtain ⟨t, hload, -⟩ := Converter.ofFormat_output_eq_ok houtput
    rw [hload] at hrefused
    cases hrefused
  refine ⟨hinput, source, bytes, ?_, houtput, fun path hpath hlast => ?_⟩
  · rw [← hread, hbefore.content?_after hfiles fun b hb _ => hinput b hb]
  · rw [hafter.content?_after hfiles fun b hb _ hsame => hlast b hb ?_]
    · exact hfiles.written hwrite path ((hbefore.sameFile_iff hfiles).mpr hpath)
    · exact (hbefore.sameFile_iff hfiles).mp ((ha.sameFile_iff hfiles).mp hsame)

end Lawful

/-! ## 2. Batches that succeed -/

/-- A batch that succeeds had a format, and every job was attempted and done. -/
theorem exists_chain_of_succeeded {files : FileAccess (StateM σ)} {file? : σ → String → Option ι}
    (hfiles : files.Lawful file?) {settings : ConvertSettings} {jobs : List Job} {s s' : σ}
    {report : Report} (hrun : (run files settings jobs).run s = (report, s'))
    (hdone : report.succeeded = true) : ∃ attempts,
      Chain files (.ofFormat settings.format) settings.outputExtension s attempts s' ∧
      attempts.map (·.job) = jobs ∧ ∀ a ∈ attempts, a.succeeded = true := by
  cases hformat : Registry.builtin.has settings.format with
  | true =>
    obtain ⟨attempts, s₁, hchain, hattempted, hrun'⟩ := run_spec hfiles hformat jobs s
    obtain ⟨rfl, rfl⟩ := Prod.mk.inj (hrun.symm.trans hrun')
    exact ⟨attempts, hchain, hattempted.map_job_of_all hdone, List.all_eq_true.mp hdone⟩
  | false =>
    rw [run_of_not_has files hformat] at hrun
    cases hrun
    cases hdone

/-- **A batch that succeeds has delivered every conversion that no later job wrote over.** Each job has
    read its input as it was at the start: no earlier job wrote there. The file at its output holds the
    conversion of that in the end, unless a later job has written to the same file. -/
theorem successful_batch_delivers {files : FileAccess (StateM σ)} {file? : σ → String → Option ι}
    (hfiles : files.Lawful file?) {settings : ConvertSettings} {jobs : List Job} {s s' : σ}
    {report : Report} (hrun : (run files settings jobs).run s = (report, s'))
    (hdone : report.succeeded = true) :
    ∀ before job after, jobs = before ++ job :: after →
      (∀ earlier ∈ before, ¬ FileAccess.SameFile file? s
        (outputPath settings.outputExtension earlier) job.input) ∧
      ∃ source bytes, files.content? s job.input = some source ∧
        (Converter.ofFormat settings.format).output source = .ok bytes ∧
        ∀ path, FileAccess.SameFile file? s (outputPath settings.outputExtension job) path →
          (∀ later ∈ after, ¬ FileAccess.SameFile file? s
            (outputPath settings.outputExtension later) path) →
          files.content? s' path = some bytes := by
  intro before job after hjobs
  obtain ⟨attempts, hchain, hmap, hall⟩ := exists_chain_of_succeeded hfiles hrun hdone
  rw [hjobs] at hmap
  obtain ⟨front, back, rfl, rfl, hback⟩ := List.map_eq_append_iff.mp hmap
  obtain ⟨a, behind, rfl, rfl, rfl⟩ := List.map_eq_cons_iff.mp hback
  obtain ⟨hinput, source, bytes, hread, houtput, hdelivered⟩ := hchain.delivers hfiles hall
  refine ⟨List.forall_mem_map.mpr hinput, source, bytes, hread, houtput, fun path hpath hlast => ?_⟩
  exact hdelivered path hpath fun b hb => hlast b.job (List.mem_map_of_mem hb)

/-- Two jobs ask for the same output. The batch succeeds, and the output holds the conversion of the
    second source. -/
theorem successful_batch_delivers_last_of_two : ∃ report t',
    (run FileTree.access ⟨"yaml", "yaml", true⟩
      [⟨"a.mfm", some "out.yaml"⟩, ⟨"b.mfm", some "out.yaml"⟩]).run twoSources = (report, t') ∧
    report.succeeded = true ∧ ∃ source bytes,
      FileTree.access.content? twoSources "b.mfm" = some source ∧
      (Converter.ofFormat "yaml").output source = .ok bytes ∧
      FileTree.access.content? t' "out.yaml" = some bytes := by
  have hdone : ((run FileTree.access ⟨"yaml", "yaml", true⟩
      [⟨"a.mfm", some "out.yaml"⟩, ⟨"b.mfm", some "out.yaml"⟩]).run twoSources).1.succeeded = true := by
    decide +kernel
  obtain ⟨-, source, bytes, hread, houtput, hdelivered⟩ :=
    successful_batch_delivers FileTree.lawful_access (Prod.eta _).symm hdone
      [⟨"a.mfm", some "out.yaml"⟩] ⟨"b.mfm", some "out.yaml"⟩ [] rfl
  refine ⟨_, _, (Prod.eta _).symm, hdone, source, bytes, hread, houtput, ?_⟩
  exact hdelivered "out.yaml" ⟨["out.yaml"], by decide +kernel, by decide +kernel⟩ (by simp)

/-! ## 3. Outputs that are not kept -/

/-- At the end, every output path is read as the conversion of what the input of the job was read as at
    the start. -/
def DeliversAll (files : FileAccess (StateM σ)) (settings : ConvertSettings) (jobs : List Job)
    (s s' : σ) : Prop :=
  ∀ job ∈ jobs, ∃ source bytes, files.content? s job.input = some source ∧
    (Converter.ofFormat settings.format).output source = .ok bytes ∧
    files.content? s' (outputPath settings.outputExtension job) = some bytes

theorem DeliversAll.content?_eq {files : FileAccess (StateM σ)} {settings : ConvertSettings}
    {jobs : List Job} {s s' : σ} (h : DeliversAll files settings jobs s s') {job : Job}
    (hjob : job ∈ jobs) : files.content? s' (outputPath settings.outputExtension job)
      = (files.content? s job.input).bind fun source =>
          ((Converter.ofFormat settings.format).output source).toOption := by
  obtain ⟨source, bytes, hread, houtput, hdelivered⟩ := h job hjob
  rw [hread, hdelivered, Option.bind_some, houtput]
  rfl

/-- **A batch may succeed without having delivered every conversion**: where two jobs ask for the same
    output, and where an output goes to a device that keeps nothing. -/
theorem success_without_delivery :
    (∃ report t', (run FileTree.access ⟨"yaml", "yaml", true⟩
        [⟨"a.mfm", some "out.yaml"⟩, ⟨"b.mfm", some "out.yaml"⟩]).run twoSources = (report, t') ∧
      report.succeeded = true ∧ ¬ DeliversAll FileTree.access ⟨"yaml", "yaml", true⟩
        [⟨"a.mfm", some "out.yaml"⟩, ⟨"b.mfm", some "out.yaml"⟩] twoSources t') ∧
    ∃ report t', (run FileTree.access ⟨"yaml", "yaml", true⟩
        [⟨"a.mfm", some "/dev/null"⟩]).run twoSources = (report, t') ∧
      report.succeeded = true ∧ ¬ DeliversAll FileTree.access ⟨"yaml", "yaml", true⟩
        [⟨"a.mfm", some "/dev/null"⟩] twoSources t' := by
  refine ⟨⟨_, _, (Prod.eta _).symm, by decide +kernel, fun h => ?_⟩,
    ⟨_, _, (Prod.eta _).symm, by decide +kernel, fun h => ?_⟩⟩
  · exact absurd (h.content?_eq List.mem_cons_self) (by decide +kernel)
  · exact absurd (h.content?_eq List.mem_cons_self) (by decide +kernel)

end Batch
end FunctionMap
