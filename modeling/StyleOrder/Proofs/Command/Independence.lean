import Mathlib.Data.List.Find
import StyleOrder.Command.Run
import StyleOrder.Proofs.Lint.Scheduling

namespace StyleOrder

/-!
# What a run depends on

A run has two halves.  First it works out a verdict: a complaint about the settings,
or the report of a batch.  Then the verdict is presented.  Format and quietness are
looked at in the second half only, and there they decide what is written and never
the status.  The number of workers is looked at in the first half, but does not show
in the report, so long as there is a worker at all.

Settings come first of all.  If they cannot be used the run ends before it has looked
at the files or the text it was given, and nothing has been written to the output.
On the disk it has looked at the places of settings files and nowhere else.
-/

namespace Disk

/-- Only reading the content of a file shows whether it is text. -/
theorem locate_ne_notText {disk : Disk} {path : Path} {cause : ReadFailure}
    (failed : disk.locate path = .error cause) : cause ≠ .notText := by
  have follow : ∀ segments place, List.foldlM disk.follow place segments = .error cause →
      cause ≠ .notText := by
    intro segments
    induction segments with
    | nil =>
        intro place walked
        cases walked
    | cons segment rest ih =>
        intro place walked
        rw [List.foldlM_cons] at walked
        unfold Disk.follow at walked
        split at walked
        · cases walked
          exact ReadFailure.noConfusion
        · split at walked
          · exact ih _ walked
          · cases walked
            exact ReadFailure.noConfusion
  unfold locate at failed
  split at failed
  · cases failed
    exact ReadFailure.noConfusion
  · exact follow _ _ failed

/-- Whether a path leads to a file can be told from an attempt to read it. -/
theorem isFile_eq_read (disk : Disk) (path : Path) :
    disk.isFile path = match disk.read path with
      | .ok _ | .error .notText => true
      | .error _ => false := by
  unfold isFile read
  cases located : disk.locate path with
  | error cause =>
      have other := locate_ne_notText located
      cases cause with
      | notText => exact absurd rfl other
      | _ => rfl
  | ok place =>
      change (disk.content? place).isSome = _
      cases found : disk.content? place with
      | none =>
          simp only [bind, Except.bind, found]
          rfl
      | some content =>
          simp only [bind, Except.bind, found]
          cases String.fromUTF8? content <;> rfl

end Disk

namespace Context

/-! ## Settings -/

/-- The places at which a run looks for settings. -/
def settingsPaths (base : Path) : Option Path → List Path
  | some path => [base.join path]
  | none => base.ancestors.flatMap Settings.candidates

theorem mem_settingsPaths {disk : Disk} {base path : Path} {asked : Option Path}
    (found : settingsPath disk base asked = some path) : path ∈ settingsPaths base asked := by
  cases asked with
  | some asked =>
      cases found
      exact List.mem_singleton.mpr rfl
  | none =>
      rcases List.exists_of_findSome?_eq_some found with ⟨directory, above, located⟩
      exact List.mem_flatMap.mpr ⟨directory, above, List.mem_of_find?_eq_some located⟩

/-- The settings and the levels of the rules, before workers are counted. -/
def loadRules (disk : Disk) (base : Path) (asked : Option Path) :
    Except Error (Settings × RuleSettings) := do
  let settings ← loadSettings disk (settingsPath disk base asked)
  let rules ← readRules settings
  return (settings, rules)

/-- Workers are counted when everything else is known. -/
theorem load_eq (disk : Disk) (base : Path) (asked : Option Path) (jobs : Option Nat)
    (spare : Nat) :
    load disk base asked jobs spare =
      (loadRules disk base asked).bind fun (settings, rules) =>
        if jobs = some 0 then .error .noWorkers
        else .ok ⟨settings, rules, settingsPath disk base asked,
          chooseJobs jobs settings.jobs spare⟩ := by
  unfold load loadRules
  dsimp only
  cases loadSettings disk (settingsPath disk base asked) with
  | error error => rfl
  | ok settings =>
      dsimp only [bind, Except.bind]
      cases readRules settings with
      | error error => rfl
      | ok rules =>
          by_cases unstaffed : jobs = some 0
          · simp only [if_pos unstaffed]
            rfl
          · simp only [if_neg unstaffed]
            rfl

/-- The workers to spare do not make a context fail. -/
theorem load_error_of_load_error {disk : Disk} {base : Path} {asked : Option Path}
    {jobs : Option Nat} {spare : Nat} {error : Error}
    (failed : load disk base asked jobs spare = .error error) (other : Nat) :
    load disk base asked jobs other = .error error := by
  rw [load_eq] at failed ⊢
  cases loaded : loadRules disk base asked with
  | error cause =>
      rw [loaded] at failed
      exact failed
  | ok pair =>
      rw [loaded] at failed
      by_cases unstaffed : jobs = some 0
      · simpa only [Except.bind, if_pos unstaffed] using failed
      · simp only [Except.bind, if_neg unstaffed] at failed
        cases failed

section SameSettings

variable {disk other : Disk} {base : Path} {asked : Option Path}
  (same : ∀ path ∈ settingsPaths base asked, other.read path = disk.read path)

include same

theorem settingsPath_of_read : settingsPath other base asked = settingsPath disk base asked := by
  cases asked with
  | some path => rfl
  | none =>
      have located : ∀ directory ∈ base.ancestors,
          Settings.locateIn other directory = Settings.locateIn disk directory := by
        intro directory above
        apply List.find?_congr
        intro path candidate
        rw [Disk.isFile_eq_read, Disk.isFile_eq_read,
          same path (List.mem_flatMap.mpr ⟨directory, above, candidate⟩)]
      change Settings.locate other base = Settings.locate disk base
      rw [Settings.locate, Settings.locate, ← List.head?_filterMap, ← List.head?_filterMap,
        List.filterMap_congr located]

theorem loadRules_of_read : loadRules other base asked = loadRules disk base asked := by
  have loaded : loadSettings other (settingsPath disk base asked) =
      loadSettings disk (settingsPath disk base asked) := by
    cases found : settingsPath disk base asked with
    | none => rfl
    | some path =>
        simp only [loadSettings, Settings.load, same path (mem_settingsPaths found)]
  rw [loadRules, settingsPath_of_read same, loaded, loadRules]

theorem load_of_read (jobs : Option Nat) (spare : Nat) :
    load other base asked jobs spare = load disk base asked jobs spare := by
  rw [load_eq, load_eq, settingsPath_of_read same, loadRules_of_read same]

end SameSettings
end Context

/-! ## Verdict and presentation -/

namespace Request

/-- The outcome that presents a verdict. -/
def present (request : Request) (base : Path) : Except Context.Error Report → Outcome
  | .error error => ⟨.badSettings, { err := Output.complaint error.message }⟩
  | .ok report => ⟨.ofReport report,
      { err := request.cautions base } ++ Output.print report request.format request.quiet⟩

/-- What a run works out: why the settings cannot be used, or what one worker finds in
the files, one after the other. -/
def verdict (request : Request) (disk : Disk) (base : Path) :
    Except Discovery.Error (Except Context.Error Report) :=
  match Context.loadRules disk base request.config with
  | .error error => .ok (.error error)
  | .ok (settings, rules) =>
      (request.inputs disk base settings).map fun inputs => .ok ⟨inputs.map (·.lint rules)⟩

theorem run_of_load_error {request : Request} {disk : Disk} {base : Path} {spare : Nat}
    {error : Context.Error}
    (failed : Context.load disk base request.config request.jobs spare = .error error) :
    request.run disk base spare = .ok (request.present base (.error error)) := by
  rw [run, failed]
  rfl

theorem run_of_load {request : Request} {disk : Disk} {base : Path} {spare : Nat}
    {context : Context}
    (loaded : Context.load disk base request.config request.jobs spare = .ok context) :
    request.run disk base spare =
      (request.inputs disk base context.settings).map fun inputs =>
        request.present base (.ok ⟨inputs.map (·.lint context.rules)⟩) := by
  rw [run, loaded]
  dsimp only
  cases request.inputs disk base context.settings with
  | error error => rfl
  | ok inputs =>
      have report : Batch.lint inputs context.rules context.jobs =
          ⟨inputs.map (·.lint context.rules)⟩ :=
        congrArg Report.mk (Batch.lint_files inputs context.rules context.jobs)
      change Except.ok (Outcome.mk (.ofReport (Batch.lint inputs context.rules context.jobs)) _) = _
      rw [report]
      rfl

/-- With a worker at all, a run presents its verdict. -/
theorem run_eq_present {request : Request} (staffed : request.jobs ≠ some 0) (disk : Disk)
    (base : Path) (spare : Nat) :
    request.run disk base spare = (request.verdict disk base).map (request.present base) := by
  have context := Context.load_eq disk base request.config request.jobs spare
  simp only [if_neg staffed] at context
  unfold verdict
  cases loaded : Context.loadRules disk base request.config with
  | error error =>
      rw [loaded] at context
      exact run_of_load_error context
  | ok pair =>
      rw [loaded] at context
      rw [run_of_load context]
      dsimp only
      cases request.inputs disk base pair.1 <;> rfl

/-- Neither the format nor quietness nor the number of workers is looked at. -/
theorem verdict_presented (request : Request) (disk : Disk) (base : Path)
    (format : Output.Format) (quiet : Bool) (jobs : Option Nat) :
    verdict { request with format := format, quiet := quiet, jobs := jobs } disk base =
      request.verdict disk base :=
  rfl

/-- The status is decided by the verdict alone. -/
theorem status_present (request other : Request) (base : Path)
    (verdict : Except Context.Error Report) :
    (other.present base verdict).status = (request.present base verdict).status := by
  cases verdict <;> rfl

/-- What is written does not tell how many workers there were. -/
theorem present_staffed (request : Request) (base : Path) (jobs : Option Nat) :
    present { request with jobs := jobs } base = request.present base := by
  funext verdict
  cases verdict <;> rfl

/-- A run whose workers send all their results presents them, in whatever order they
arrive. -/
theorem run_of_walk {request : Request} {disk : Disk} {base : Path} {spare : Nat}
    {context : Context} {inputs : List Batch.Input} {count : Nat} {pool : Batch.Pool}
    (loaded : Context.load disk base request.config request.jobs spare = .ok context)
    (given : request.inputs disk base context.settings = .ok inputs)
    (walk : Batch.Pool.Walk context.rules count (.start inputs) pool)
    (finished : pool.Finished) (unstopped : pool.stopped = []) :
    request.run disk base spare = .ok (request.present base
      (.ok ⟨Batch.reassemble (inputs.map Batch.Input.name) pool.arrived⟩)) := by
  have all := walk.results_perm finished
  rw [unstopped, List.map_nil, List.append_nil] at all
  rw [run_of_load loaded, given, Batch.reassemble_of_perm all]
  rfl

/-! ## Settings that cannot be used -/

theorem ofReport_ne_badSettings (report : Report) : ExitStatus.ofReport report ≠ .badSettings := by
  unfold ExitStatus.ofReport
  split_ifs <;> exact ExitStatus.noConfusion

/-- Only a run without a context ends like this. -/
theorem load_error_of_badSettings {request : Request} {disk : Disk} {base : Path} {spare : Nat}
    {outcome : Outcome} (ended : request.run disk base spare = .ok outcome)
    (refused : outcome.status = .badSettings) :
    ∃ error, Context.load disk base request.config request.jobs spare = .error error ∧
      outcome = request.present base (.error error) := by
  cases loaded : Context.load disk base request.config request.jobs spare with
  | error error =>
      rw [run_of_load_error loaded] at ended
      exact ⟨error, rfl, (Except.ok.inj ended).symm⟩
  | ok context =>
      rw [run_of_load loaded] at ended
      cases given : request.inputs disk base context.settings with
      | error error =>
          rw [given] at ended
          cases ended
      | ok inputs =>
          rw [given] at ended
          cases ended
          exact absurd refused (ofReport_ne_badSettings _)

/-! ## Neither the presentation nor the workers show -/

/-- Runs that differ in format, quietness and workers end with one status, or with one
failed discovery; if they differ in workers only, they also write the same.  So it is
for every order in which the results of a run can arrive.  A run that cannot use its
settings has no output, and ends in the same way whatever it was to lint and however
it was to present it, on every disk that reads alike where settings are looked for. -/
theorem run_independent (request : Request) (disk : Disk) (base : Path) (spare : Nat) :
    (∀ format quiet jobs otherSpare, request.jobs ≠ some 0 → jobs ≠ some 0 →
      (run { request with format := format, quiet := quiet, jobs := jobs } disk base
          otherSpare).map Outcome.status = (request.run disk base spare).map Outcome.status ∧
      run { request with jobs := jobs } disk base otherSpare = request.run disk base spare) ∧
    (∀ context inputs pool,
      Context.load disk base request.config request.jobs spare = .ok context →
      request.inputs disk base context.settings = .ok inputs →
      Batch.Pool.Walk context.rules (Batch.workers context.jobs inputs.length)
        (.start inputs) pool → pool.Finished → pool.stopped = [] →
      request.run disk base spare = .ok (request.present base
        (.ok ⟨Batch.reassemble (inputs.map Batch.Input.name) pool.arrived⟩))) ∧
    (∀ outcome, request.run disk base spare = .ok outcome → outcome.status = .badSettings →
      outcome.written.out = [] ∧
      ∀ files text format quiet otherDisk otherSpare,
        (∀ path ∈ Context.settingsPaths base request.config,
          Disk.read otherDisk path = disk.read path) →
        run { request with files := files, text := text, format := format, quiet := quiet }
          otherDisk base otherSpare = .ok outcome) := by
  refine ⟨?_, fun _ _ _ => run_of_walk, ?_⟩
  · intro format quiet jobs otherSpare staffed otherStaffed
    constructor
    · rw [run_eq_present staffed, run_eq_present otherStaffed, verdict_presented]
      cases request.verdict disk base with
      | error error => rfl
      | ok verdict => exact congrArg Except.ok (status_present request _ base verdict)
    · rw [run_eq_present staffed, run_eq_present otherStaffed, present_staffed]
      exact congrArg _ (verdict_presented request disk base request.format request.quiet jobs)
  · intro outcome ended refused
    rcases load_error_of_badSettings ended refused with ⟨error, failed, rfl⟩
    refine ⟨rfl, ?_⟩
    intro files text format quiet otherDisk otherSpare same
    apply run_of_load_error
    rw [Context.load_of_read same]
    exact Context.load_error_of_load_error failed otherSpare

/-- One file with a violation and one that is missing, linted by two workers for people
to read and by any number of workers as a document; the result of the missing file may
arrive first.  With a settings file that is not there, other files make no difference,
and neither does a text. -/
theorem run_independent_missing_file :
    let sheet := Path.ofString "/w/a.sass"
    let missing := Path.ofString "/w/b.sass"
    let disk := Disk.put {} sheet (.file ".a\n  top: 0\n  position: fixed\n".toUTF8)
    let base := Path.ofString "/w"
    let request : Request :=
      { files := [.ofString "a.sass", .ofString "b.sass"], format := .human, jobs := some 2 }
    let first := Batch.Input.ofFile disk sheet.string sheet
    let second := Batch.Input.ofFile disk missing.string missing
    let arrived := [Batch.result {} (second, 1), Batch.result {} (first, 0)]
    let unset : Request := { request with config := some (.ofString "c.yml") }
    (∀ jobs spare, jobs ≠ some 0 →
      ((run { request with format := .json, quiet := true, jobs := jobs } disk base
        spare).map Outcome.status).toOption = some .ioFailure) ∧
    request.run disk base 1 = .ok (request.present base
      (.ok ⟨Batch.reassemble [sheet.string, missing.string] arrived⟩)) ∧
    ∃ outcome, unset.run disk base 1 = .ok outcome ∧ outcome.status = .badSettings ∧
      outcome.written.out = [] ∧
      run { unset with files := [], text := some ".a\n" } {} base 7 = .ok outcome := by
  intro sheet missing disk base request first second arrived unset
  have failure : ((request.run disk base 1).map Outcome.status).toOption = some .ioFailure := by
    decide +kernel
  have loaded : Context.load disk base none (some 2) 1 = .ok ⟨{}, {}, none, 2⟩ := by
    rw [Context.load_eq, Context.loadRules]
    have nowhere : Context.settingsPath disk base none = none := by decide +kernel
    rw [nowhere]
    rfl
  rcases run_independent request disk base 1 with ⟨presented, arriving, -⟩
  refine ⟨?_, ?_, ?_⟩
  · intro jobs spare staffed
    rw [(presented .json true jobs spare (by decide) staffed).1]
    exact failure
  · have turned : ([(second, 1), (first, 0)] ++ []).Perm [(first, 0), (second, 1)] :=
      List.Perm.swap (first, 0) (second, 1) []
    have resolved : request.resolved base = [sheet, missing] := by decide +kernel
    have given : request.inputs disk base {} = .ok [first, second] := by
      change Except.ok ((request.resolved base).map _) = _
      rw [resolved]
      rfl
    exact arriving _ _ _ loaded given (Batch.Pool.walk_of_perm (Batch.workers_pos 2 2) turned)
      ⟨rfl, rfl, rfl⟩ rfl
  · have refused : ((unset.run disk base 1).map Outcome.status).toOption = some .badSettings := by
      decide +kernel
    cases ended : unset.run disk base 1 with
    | error error =>
        rw [ended] at refused
        cases refused
    | ok outcome =>
        rw [ended] at refused
        have status : outcome.status = .badSettings := Option.some.inj refused
        rcases (run_independent unset disk base 1).2.2 outcome ended status with ⟨silent, same⟩
        have alike : ∀ path ∈ Context.settingsPaths base unset.config,
            Disk.read {} path = disk.read path := by decide +kernel
        exact ⟨outcome, rfl, status, silent, same [] (some ".a\n") .human false {} 7 alike⟩

end Request
end StyleOrder
