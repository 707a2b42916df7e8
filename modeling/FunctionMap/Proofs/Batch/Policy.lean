import FunctionMap.Batch.Run
import FunctionMap.Proofs.Files.Tree

/-!
# What a batch does with its jobs

A job that is attempted reads its input, converts what it has read and writes its output, and each of
the three may fail. A batch attempts its jobs in order, each on the files that the attempt before it
left, and stops early only where the settings say so and an attempt has failed.

* `Attempt.Legal` -- the four ways in which an attempt ends;
* `Chain s attempts s'` -- attempts in a row that lead from the files `s` to the files `s'`;
* `Attempted goOn jobs attempts` -- which jobs of a batch are attempted.

Main statements: a batch does what these say (`runJobs_spec`), and with a format that exists or without
one it follows its policy (`run_follows_policy`).
-/

namespace FunctionMap
namespace Batch

variable {σ ι : Type}

/-! ## 1. Attempts -/

/-- A job that was attempted: the files before it and after it, what its conversion said about itself,
    and how it ended. -/
structure Attempt (σ : Type) where
  job : Job
  before : σ
  after : σ
  events : List Log.Event
  result : Except String Unit

namespace Attempt

/-- Whether the job was done. -/
def succeeded (a : Attempt σ) : Bool := a.result.isOk

/-- What is told of an attempt; an output that is not asked for has the extension `extension`. -/
def notices (extension : String) (a : Attempt σ) : List Notice :=
  .event (Log.converting a.job.input (outputPath extension a.job)) :: a.events.map .event ++
    match a.result with
    | .ok () => [.event (Log.wrote (outputPath extension a.job))]
    | .error message => [.event (Log.failed a.job.input), .message (a.job.input ++ ": " ++ message)]

variable (files : FileAccess (StateM σ)) (c : Converter) (extension : String)

/-- How an attempt ends: with the input unread, its source refused or the output unwritten, and so on
    the same files as before, or with the output written. -/
inductive Legal : Attempt σ → Prop where
  | unread {job : Job} {s : σ} {e : FileError}
      (hread : (files.read job.input).run s = (.error e, s)) :
      Legal ⟨job, s, s, [], .error ("Error reading file: " ++ e.message)⟩
  | refused {job : Job} {s : σ} {source : Bytes} {e : ConversionError}
      (hread : (files.read job.input).run s = (.ok source, s))
      (houtput : c.output source = .error e) :
      Legal ⟨job, s, s, conversionEvents c source, .error (e.diagnosis source)⟩
  | unwritten {job : Job} {s : σ} {source bytes : Bytes} {e : FileError}
      (hread : (files.read job.input).run s = (.ok source, s))
      (houtput : c.output source = .ok bytes)
      (hwrite : (files.write (outputPath extension job) bytes).run s = (.error e, s)) :
      Legal ⟨job, s, s, conversionEvents c source,
        .error ("Error writing '" ++ outputPath extension job ++ "': " ++ e.message)⟩
  | written {job : Job} {s s' : σ} {source bytes : Bytes}
      (hread : (files.read job.input).run s = (.ok source, s))
      (houtput : c.output source = .ok bytes)
      (hwrite : (files.write (outputPath extension job) bytes).run s = (.ok (), s')) :
      Legal ⟨job, s, s', conversionEvents c source, .ok ()⟩

end Attempt

section Lawful

variable {files : FileAccess (StateM σ)} {file? : σ → String → Option ι} {c : Converter}
  {extension : String}

/-- **Converting a file is a legal attempt.** -/
theorem legal_convertFile (hfiles : files.Lawful file?) (c : Converter) (extension : String)
    (job : Job) (s : σ) :
    ∃ a : Attempt σ, a.Legal files c extension ∧ a.job = job ∧ a.before = s ∧
      (convertFile files c job.input (outputPath extension job)).run s
        = ((a.events, a.result), a.after) := by
  unfold convertFile
  cases hread : (files.read job.input).run s with
  | mk answer s₁ =>
    obtain rfl := hfiles.read_keeps hread
    rw [run_bind_of_run hread]
    cases answer with
    | error e => exact ⟨_, .unread hread, rfl, rfl, rfl⟩
    | ok source =>
      dsimp only
      cases houtput : c.output source with
      | error e => exact ⟨_, .refused hread houtput, rfl, rfl, rfl⟩
      | ok bytes =>
        dsimp only
        cases hwrite : (files.write (outputPath extension job) bytes).run s₁ with
        | mk answer s₂ =>
          rw [run_bind_of_run hwrite]
          cases answer with
          | error e =>
            obtain rfl := hfiles.refused_keeps hwrite
            exact ⟨_, .unwritten hread houtput hwrite, rfl, rfl, rfl⟩
          | ok _ => exact ⟨_, .written hread houtput hwrite, rfl, rfl, rfl⟩

namespace Attempt

variable {a : Attempt σ}

theorem Legal.file?_after (hfiles : files.Lawful file?) (h : a.Legal files c extension)
    (path : String) : file? a.after path = file? a.before path := by
  cases h with
  | unread hread => rfl
  | refused hread houtput => rfl
  | unwritten hread houtput hwrite => rfl
  | written hread houtput hwrite => exact hfiles.file?_write hwrite path

theorem Legal.sameFile_iff (hfiles : files.Lawful file?) (h : a.Legal files c extension)
    {path other : String} : FileAccess.SameFile file? a.after path other ↔
      FileAccess.SameFile file? a.before path other := by
  simp only [FileAccess.SameFile, h.file?_after hfiles]

/-- An attempt changes the file at the path of its output, and only if it succeeds. -/
theorem Legal.content?_after (hfiles : files.Lawful file?) (h : a.Legal files c extension)
    {path : String} (hother : a.succeeded = true →
      ¬ FileAccess.SameFile file? a.before (outputPath extension a.job) path) :
    files.content? a.after path = files.content? a.before path := by
  cases h with
  | unread hread => rfl
  | refused hread houtput => rfl
  | unwritten hread houtput hwrite => rfl
  | written hread houtput hwrite => exact hfiles.others hwrite path (hother rfl)

end Attempt

/-! ## 2. Attempts in a row -/

/-- Attempts in a row, each on the files that the one before it left. -/
inductive Chain (files : FileAccess (StateM σ)) (c : Converter) (extension : String) :
    σ → List (Attempt σ) → σ → Prop where
  | nil (s : σ) : Chain files c extension s [] s
  | cons {a : Attempt σ} {rest : List (Attempt σ)} {s' : σ} (ha : a.Legal files c extension)
      (hrest : Chain files c extension a.after rest s') :
      Chain files c extension a.before (a :: rest) s'

namespace Chain

variable {s s' : σ} {attempts : List (Attempt σ)}

/-- Paths lead to the same file if they did before. -/
theorem sameFile_iff (hfiles : files.Lawful file?) (h : Chain files c extension s attempts s')
    {path other : String} :
    FileAccess.SameFile file? s' path other ↔ FileAccess.SameFile file? s path other := by
  induction h with
  | nil s => exact Iff.rfl
  | cons ha hrest ih => rw [ih, ha.sameFile_iff hfiles]

/-- **Attempts change only the files at the outputs of those that succeed.** -/
theorem content?_after (hfiles : files.Lawful file?) (h : Chain files c extension s attempts s')
    {path : String} (hothers : ∀ a ∈ attempts, a.succeeded = true →
      ¬ FileAccess.SameFile file? s (outputPath extension a.job) path) :
    files.content? s' path = files.content? s path := by
  induction h with
  | nil s => rfl
  | @cons a rest s' ha hrest ih =>
    obtain ⟨hother, hothers⟩ := List.forall_mem_cons.mp hothers
    rw [ih, ha.content?_after hfiles hother]
    exact fun b hb hdone hsame => hothers b hb hdone ((ha.sameFile_iff hfiles).mp hsame)

end Chain

/-! ## 3. Which jobs are attempted -/

/-- The attempts that belong to the jobs of a batch: one for each, or only up to the first one that
    fails, if the batch is not to go on behind it. -/
inductive Attempted (goOn : Bool) : List Job → List (Attempt σ) → Prop where
  | atEnd : Attempted goOn [] []
  | succeeded {a : Attempt σ} {jobs : List Job} {attempts : List (Attempt σ)}
      (ha : a.succeeded = true) (hrest : Attempted goOn jobs attempts) :
      Attempted goOn (a.job :: jobs) (a :: attempts)
  | failed {a : Attempt σ} {jobs : List Job} {attempts : List (Attempt σ)}
      (ha : a.succeeded = false) (hon : goOn = true) (hrest : Attempted goOn jobs attempts) :
      Attempted goOn (a.job :: jobs) (a :: attempts)
  | stopped {a : Attempt σ} {jobs : List Job} (ha : a.succeeded = false) (hoff : goOn = false) :
      Attempted goOn (a.job :: jobs) [a]

namespace Attempted

variable {goOn : Bool} {jobs : List Job} {attempts : List (Attempt σ)}

/-- So does a batch in which every attempt succeeds. -/
theorem map_job_of_all (h : Attempted goOn jobs attempts)
    (hall : attempts.all (·.succeeded) = true) : attempts.map (·.job) = jobs := by
  induction h with
  | atEnd => rfl
  | succeeded ha hrest ih =>
    rw [List.all_cons, ha, Bool.true_and] at hall
    rw [List.map_cons, ih hall]
  | failed ha _ hrest ih =>
    rw [List.all_cons, ha, Bool.false_and] at hall
    cases hall
  | stopped ha hoff =>
    rw [List.all_cons, ha, Bool.false_and] at hall
    cases hall

end Attempted

/-- **What a batch does with its jobs.** -/
theorem runJobs_spec (hfiles : files.Lawful file?) (settings : ConvertSettings) (jobs : List Job)
    (s : σ) : ∃ attempts s', Chain files c settings.outputExtension s attempts s' ∧
      Attempted settings.continueOnError jobs attempts ∧
      (runJobs files c settings jobs).run s
        = (⟨attempts.all (·.succeeded),
            attempts.flatMap (·.notices settings.outputExtension)⟩, s') := by
  induction jobs generalizing s with
  | nil => exact ⟨[], s, .nil s, .atEnd, rfl⟩
  | cons job rest ih =>
    obtain ⟨a, hlegal, rfl, rfl, hrun⟩ :=
      legal_convertFile hfiles c settings.outputExtension job s
    obtain ⟨attempts, s', hchain, hattempted, hrest⟩ := ih a.after
    unfold runJobs
    dsimp only
    rw [run_bind_of_run hrun]
    cases hresult : a.result with
    | ok _ =>
      have ha : a.succeeded = true := by rw [Attempt.succeeded, hresult]; rfl
      refine ⟨_, s', .cons hlegal hchain, .succeeded ha hattempted, ?_⟩
      dsimp only
      rw [run_bind_of_run hrest, List.all_cons, ha, Bool.true_and, List.flatMap_cons,
        Attempt.notices, hresult, List.append_assoc]
      rfl
    | error message =>
      have ha : a.succeeded = false := by rw [Attempt.succeeded, hresult]; rfl
      cases hon : settings.continueOnError with
      | true =>
        rw [hon] at hattempted
        refine ⟨_, s', .cons hlegal hchain, .failed ha rfl hattempted, ?_⟩
        dsimp only
        rw [if_pos rfl, run_bind_of_run hrest, List.all_cons, ha, Bool.false_and,
          List.flatMap_cons, Attempt.notices, hresult]
        rfl
      | false =>
        refine ⟨_, a.after, .cons hlegal (.nil _), .stopped ha rfl, ?_⟩
        dsimp only
        rw [if_neg Bool.false_ne_true, List.all_cons, ha, Bool.false_and, List.flatMap_cons,
          Attempt.notices, hresult, List.flatMap_nil, List.append_nil]
        rfl

end Lawful

theorem run_of_has {m : Type → Type} [Monad m] (files : FileAccess m) {settings : ConvertSettings}
    (h : Registry.builtin.has settings.format = true) (jobs : List Job) :
    run files settings jobs = do
      let report ← runJobs files (.ofFormat settings.format) settings jobs
      return { report with
        notices := .event (Log.startingBatch settings.format jobs.length) :: report.notices } :=
  if_pos h

/-- **Without its format a batch does nothing**, whatever files are. -/
theorem run_of_not_has {m : Type → Type} [Monad m] (files : FileAccess m)
    {settings : ConvertSettings} (h : Registry.builtin.has settings.format = false)
    (jobs : List Job) : run files settings jobs = pure ⟨false,
      [.message (FormatError.notFound settings.format).message,
       .message ("Available formats: " ++ String.intercalate ", " Registry.builtin.names)]⟩ :=
  if_neg (Bool.eq_false_iff.mp h)

theorem run_spec {files : FileAccess (StateM σ)} {file? : σ → String → Option ι}
    (hfiles : files.Lawful file?) {settings : ConvertSettings}
    (hformat : Registry.builtin.has settings.format = true) (jobs : List Job) (s : σ) :
    ∃ attempts s',
      Chain files (.ofFormat settings.format) settings.outputExtension s attempts s' ∧
      Attempted settings.continueOnError jobs attempts ∧
      (run files settings jobs).run s = (⟨attempts.all (·.succeeded),
        .event (Log.startingBatch settings.format jobs.length) ::
          attempts.flatMap (·.notices settings.outputExtension)⟩, s') := by
  obtain ⟨attempts, s', hchain, hattempted, hrun⟩ :=
    runJobs_spec (c := .ofFormat settings.format) hfiles settings jobs s
  refine ⟨attempts, s', hchain, hattempted, ?_⟩
  rw [run_of_has files hformat, run_bind_of_run hrun]
  rfl

/-- A tree with two sources, and a device. -/
def twoSources : FileTree :=
  ⟨[(["a.mfm"], Utf8.encode "[1, 2] a\n".toList), (["b.mfm"], Utf8.encode "[1, 2] b\n".toList)],
    [], [["/", "dev", "null"]]⟩

end Batch
end FunctionMap
