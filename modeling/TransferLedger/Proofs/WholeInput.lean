import Mathlib.Tactic
import TransferLedger.Proofs.Listing
import TransferLedger.Proofs.Requests
import TransferLedger.Proofs.Spelling

/-!
# What success says of the input

A worker that asks for some transfers at a time fails, or it reads its input to the end. Whatever
command line and variables the program is started with, it asks for some at a time, or it fails
before it opens its database.

* `Worker.AsksForSome`: no request of a worker is for nothing;
* `Program.IsInput`: the bytes that the program reads;
* `Program.skips_no_input`: what an environment can change, and that it cannot make the program pass
  over its input.
-/

namespace TransferLedger

/-! ### Requests -/

namespace Worker

variable (w : Worker)

/-- Whatever the worker runs over, it asks for one transfer at least each time. All requests are
seen: those of a run that comes to the end of its source are one more than its batches. -/
def AsksForSome (w : Worker) : Prop :=
  ∀ (σ τ : Type) [Source σ] [Store τ] (c : Conditions) (source : σ) (store : τ),
    let noted := w.run c ({ source } : Noted σ) store
    noted.map Noted.source id = w.run c source store ∧
      (∀ size ∈ noted.progress.source.asked, 1 ≤ size) ∧
      (c.IsUndisturbed → noted.ending = .finished .exhausted →
        noted.progress.source.asked.length = noted.progress.stats.batches + 1)

theorem asksForSome (hsize : 0 < w.batchSize) : w.AsksForSome := by
  intro σ τ _ _ c source store
  obtain ⟨hsame, hasked, hall⟩ := w.run_noted c source store
  refine ⟨hsame, fun size hmem => (hasked size hmem).symm ▸ hsize, fun hc hending => ?_⟩
  rw [hall hc hending, List.length_replicate]

end Worker

/-! ### The program -/

namespace Config

/-- The worker with the settings of the program. -/
def worker (config : Config) : Worker where
  batchSize := config.batchSize
  pollInterval := config.pollInterval

theorem fault_of_zero {config : Config} (h : config.batchSize = 0) :
    config.fault = some .zeroBatchSize := by
  rw [fault, if_pos h]

theorem fault_of_empty {config : Config} (h : config.batchSize ≠ 0) (h' : config.dbPath = []) :
    config.fault = some .emptyDbPath := by
  rw [fault, if_neg h, h']
  rfl

theorem fault_of_valid {config : Config} (h : config.batchSize ≠ 0) (h' : config.dbPath ≠ []) :
    config.fault = none := by
  rw [fault, if_neg h, if_neg (by simpa using h')]

end Config

namespace Program

/-- The bytes that the program reads: those of the standard input or of a file. -/
inductive IsInput (config : Config) (stdin : List UInt8) (d : Directory) : List UInt8 → Prop
  | stdin (dash : config.input = ['-']) : IsInput config stdin d stdin
  | file {bytes : List UInt8} (name : config.input ≠ ['-'])
      (found : d.find (Text.Utf8.encode config.input) = .ok (.file bytes)) :
      IsInput config stdin d bytes

section Plans

variable [FileFormat] {s : Surroundings} {plan : Plan} {config : Config} {stdin : List UInt8}
  {stop : Option ℕ} {db : Database} {d : Directory}

/-- What comes of records that are to be committed: the input cannot be opened, or the worker runs
over a folder, which fails the first request, or over the lines of the input. -/
inductive Commits (config : Config) (stdin : List UInt8) (stop : Option ℕ) (db : Database)
    (d : Directory) : Outcome → Prop
  | unopened {fault : FileFault} (name : config.input ≠ ['-'])
      (found : d.find (Text.Utf8.encode config.input) = .error fault) :
      Commits config stdin stop db d (failure
        ⟨s!"Failed to open input {String.ofList config.input}", some fault.message⟩ (db.close d) [])
  | folder (name : config.input ≠ ['-'])
      (found : d.find (Text.Utf8.encode config.input) = .ok .folder) :
      Commits config stdin stop db d (ofRun (config.worker.run (conditions stop)
        (⟨[], .fails (.reported FileFault.isADirectory.message)⟩ : Script) db) d)
  | lines {bytes : List UInt8} (input : IsInput config stdin d bytes) :
      Commits config stdin stop db d
        (ofRun (config.worker.run (conditions stop) (Lines.ofBytes bytes) db) d)

theorem commits_commit (config : Config) (stdin : List UInt8) (stop : Option ℕ) (db : Database)
    (d : Directory) : Commits config stdin stop db d (commit config stdin stop db d) := by
  unfold commit
  by_cases hdash : config.input = ['-']
  · have hstdin : config.readsStdin = true := by rw [Config.readsStdin, hdash]; rfl
    rw [if_pos hstdin]
    exact .lines (.stdin hdash)
  · have hfile : ¬config.readsStdin = true := by simpa [Config.readsStdin] using hdash
    rw [if_neg hfile]
    split
    · exact .unopened hdash ‹_›
    · exact .lines (.file hdash ‹_›)
    · exact .folder hdash ‹_›

omit [FileFormat] in
/-- A folder fails the first request. -/
theorem ending_of_folder (w : Worker) (error : SourceError) (db : Database) :
    (w.run {} (⟨[], .fails error⟩ : Script) db).ending = .failed (.source error) := by
  have hquiet : ({} : Conditions).IsUndisturbed := ⟨rfl, rfl⟩
  have hsupply : (Source.pull w.batchSize (⟨[], .fails error⟩ : Script)).supply = .failed error := rfl
  obtain ⟨hending, -⟩ :=
    w.turn_of_failure (p := { source := (⟨[], .fails error⟩ : Script), store := db }) hsupply
      (hquiet.isQuietUntil _)
  exact (w.runFrom_succ_of_some {} 0 hending).2

/-- When records are committed in success, and nothing has asked for a stop, the input has been read
to its end. -/
theorem commit_reads (hsize : 0 < config.batchSize) (h : (commit config stdin none db d).code = 0) :
    ∃ bytes, IsInput config stdin d bytes ∧
      commit config stdin none db d = ofRun (config.worker.run {} (Lines.ofBytes bytes) db) d ∧
      Worker.ReadsToEnd bytes (config.worker.run {} (Lines.ofBytes bytes) db) := by
  have hquiet : ({} : Conditions).IsUndisturbed := ⟨rfl, rfl⟩
  have hcommits := commits_commit config stdin none db d
  generalize commit config stdin none db d = outcome at h hcommits ⊢
  cases hcommits with
  | unopened => cases h
  | folder => exact absurd (ending_of_folder config.worker _ db) (ending_of_success h _)
  | @lines bytes input =>
    refine ⟨bytes, input, rfl, ?_⟩
    rcases config.worker.run_reads hquiet hsize bytes db with ⟨error, hfails⟩ | hall
    · exact absurd hfails (ending_of_success h error)
    · exact hall

/-- Settings without sense fail the program before anything is opened. -/
theorem run_of_fault {fault : Config.Fault} (hplan : Plan.make s.args s.environment = .ok plan)
    (hfault : plan.config.fault = some fault) :
    run s = failure ⟨fault.message, none⟩ s.directory plan.events := by
  simp only [run, hplan, hfault]

/-- After success the reports are those of the worker, and the totals once more. -/
theorem events_ofRun {σ : Type} {run : Run σ Database} (hcode : (ofRun run d).code = 0)
    (h : Event.stopReceived ∉ (ofRun run d).events) :
    (ofRun run d).events = run.events ++ [.done run.progress.stats] := by
  have htrace := trace_of_unstopped (not_mem_trace_of_ofRun h)
  unfold ofRun at hcode ⊢
  dsimp only at hcode ⊢
  split at hcode
  · cases hcode
  · rw [htrace]

/-- What the program does under some settings. -/
structure RunsUnder (s : Surroundings) (command : Command) (config : Config)
    (warnings : List Event) : Prop where
  /-- Batches without transfers fail the program, and nothing is opened. -/
  zero : config.batchSize = 0 → run s =
    failure ⟨"Batch size must be greater than zero (TI_BATCH_SIZE)", none⟩ s.directory warnings
  /-- So does a database without a path. -/
  empty : config.batchSize ≠ 0 → config.dbPath = [] → run s =
    failure ⟨"Database path is empty (TI_DB_PATH)", none⟩ s.directory warnings
  /-- Otherwise no request is for nothing. -/
  asks : config.batchSize ≠ 0 → config.worker.AsksForSome
  /-- What becomes of records, when the database can be opened. -/
  commits : config.batchSize ≠ 0 → config.dbPath ≠ [] → ∀ input size, command = .run input size →
    ∀ db, (Database.openAt config.dbPath s.directory).result = .ok db →
      ∃ outcome,
        Commits config s.stdin s.stop db (Database.openAt config.dbPath s.directory).directory
          outcome ∧
        run s = { outcome with
          events := warnings ++ (Database.openAt config.dbPath s.directory).events ++
            outcome.events }
  /-- Success without a stop says that the worker has read the input to its end. -/
  reads : config.batchSize ≠ 0 → config.dbPath ≠ [] → ∀ input size, command = .run input size →
    (run s).code = 0 → Event.stopReceived ∉ (run s).events → ∃ db bytes,
      let opening := Database.openAt config.dbPath s.directory
      let run' := config.worker.run {} (Lines.ofBytes bytes) db
      opening.result = .ok db ∧ IsInput config s.stdin opening.directory bytes ∧
        Worker.ReadsToEnd bytes run' ∧
        (run s).directory = run'.progress.store.close opening.directory ∧
        (run s).events = warnings ++ opening.events ++
          (run'.events ++ [.done run'.progress.stats])

/-- What a program has done that has run in success and was not stopped. -/
theorem run_reads {input : Option (List Char)} {size : Option ℕ}
    (hplan : Plan.make s.args s.environment = .ok plan) (hsize : plan.config.batchSize ≠ 0)
    (hpath : plan.config.dbPath ≠ []) (hcommand : plan.command = .run input size)
    (hcode : (run s).code = 0) (hstop : Event.stopReceived ∉ (run s).events) :
    ∃ db bytes,
      let opening := Database.openAt plan.config.dbPath s.directory
      let run' := plan.config.worker.run {} (Lines.ofBytes bytes) db
      opening.result = .ok db ∧ IsInput plan.config s.stdin opening.directory bytes ∧
        Worker.ReadsToEnd bytes run' ∧
        (run s).directory = run'.progress.store.close opening.directory ∧
        (run s).events = plan.events ++ opening.events ++
          (run'.events ++ [.done run'.progress.stats]) := by
  have hfault := Config.fault_of_valid hsize hpath
  have halone : run s = runPlan plan s.stdin none s.directory :=
    (run_of_unstopped hstop).trans (run_eq (s := { s with stop := none }) hplan hfault)
  rw [halone] at hcode hstop ⊢
  obtain ⟨db, hopen, hperform, hdirectory⟩ := opens_of_success hcode
  simp only [perform, hcommand] at hperform hdirectory
  obtain ⟨bytes, hinput, hcommit, hreads⟩ := commit_reads (Nat.pos_of_ne_zero hsize) hperform
  simp only [runPlan, hopen, perform, hcommand, hcommit] at hstop ⊢
  rw [hcommit] at hperform
  refine ⟨db, bytes, rfl, hinput, hreads, directory_ofRun _ _, ?_⟩
  rw [events_ofRun hperform fun hmem => hstop (List.mem_append_right _ hmem)]

/-- A plan is carried out under its settings. -/
theorem runsUnder_of_plan (hplan : Plan.make s.args s.environment = .ok plan) :
    RunsUnder s plan.command plan.config plan.events where
  zero hsize := run_of_fault hplan (Config.fault_of_zero hsize)
  empty hsize hpath := run_of_fault hplan (Config.fault_of_empty hsize hpath)
  asks hsize := plan.config.worker.asksForSome (Nat.pos_of_ne_zero hsize)
  commits hsize hpath input size hcommand db hopen := by
    refine ⟨_, commits_commit _ _ _ _ _, ?_⟩
    rw [run_eq hplan (Config.fault_of_valid hsize hpath)]
    simp only [runPlan, hopen, perform, hcommand]
  reads hsize hpath input size hcommand hcode hstop :=
    run_reads hplan hsize hpath hcommand hcode hstop

/-- **No environment makes the program pass over its input.** A command line that spells no
invocation comes to a notice, and one that gives an empty path or a size that is no number is
misuse; nothing is opened then. Otherwise each setting comes from its option, or else from its
variable, if that is of use, or else it has its default; a text that writes no number is warned of
once. Under these settings the program fails before anything is opened, or its worker asks for one
transfer at least each time and has read the input to its end when there is success, unless the
program was stopped. -/
theorem skips_no_input (s : Surroundings) :
    ((∀ i : Invocation, ¬i.IsSpelledBy s.args) → ∃ n, run s = notice n s.directory) ∧
    (∀ path input size, Invocation.GivesTexts path input size s.args →
      (path = some [] ∨ (∃ text, size = some text ∧ ∀ n, ¬Decimal.WritesWord text n) →
        run s = notice .misuse s.directory) ∧
      (path ≠ some [] → ∀ batchSize, Option.Rel Decimal.WritesWord size batchSize →
        Invocation.IsSpelledBy ⟨path, .run input batchSize⟩ s.args)) ∧
    ∀ i : Invocation, i.IsSpelledBy s.args → ∃ config warnings,
      config.IsLayered i s.environment ∧ s.environment.WarnsOf warnings ∧
      RunsUnder s i.command config warnings := by
  have hnotice : ∀ n, Invocation.parse s.args = .error n → run s = notice n s.directory := by
    intro n hn
    simp only [run, Plan.make, hn, Except.map]
  refine ⟨fun hnone => ?_, fun path input size htexts => ⟨fun hunusable => ?_, ?_⟩, fun i hi => ?_⟩
  · cases hparse : Invocation.parse s.args with
    | error n => exact ⟨n, hnotice n hparse⟩
    | ok i => exact absurd (Invocation.parse_eq_ok_iff.1 hparse) (hnone i)
  · exact hnotice _ (Invocation.parse_of_unusable htexts hunusable)
  · exact fun hpath _ hsize => Invocation.isSpelledBy_of_givesTexts htexts hpath hsize
  · obtain ⟨plan, hplan, hcommand, hlayered, hwarns⟩ :=
      Plan.make_of_parse s.environment (Invocation.parse_eq_ok_iff.2 hi)
    exact ⟨plan.config, plan.events, hlayered, hwarns, hcommand ▸ runsUnder_of_plan hplan⟩

end Plans

/-- The variables give no path, no transfers to a batch and no time. With options for path and size
the program reads the sample to its end, without them it fails, and an empty path is misuse. -/
theorem skips_no_input_of_sample :
    let environment : Environment :=
      { dbPath := some [], batchSize := some (Text.Utf8.encode ['0'])
        pollInterval := some (Text.Utf8.encode ['1', 's']) }
    let started := fun args : List (List Char) =>
      ({ args, environment, stdin := Text.Utf8.encode sampleText } : Surroundings)
    let given := started [['-', 'd'], "a.db".toList, "run".toList, ['-', 'b', '=', '+', '2']]
    let silent := started ["run".toList]
    let unnamed := started [['-', 'd'], [], "run".toList]
    ((run given).code = 0 ∧ ∃ (config : Config) (db : Database), config.batchSize = 2 ∧
      config.dbPath = "a.db".toList ∧ config.pollInterval = 0 ∧ config.worker.AsksForSome ∧
      Worker.ReadsToEnd (Text.Utf8.encode sampleText)
        (config.worker.run {} (Lines.ofBytes (Text.Utf8.encode sampleText)) db)) ∧
    (∃ warnings, run silent =
      failure ⟨"Batch size must be greater than zero (TI_BATCH_SIZE)", none⟩ {} warnings) ∧
    run unnamed = notice .misuse {} := by
  intro environment started given silent unnamed
  refine ⟨?_, ?_, ?_⟩
  · obtain ⟨-, htexts, hspelled⟩ := skips_no_input given
    have hgiven : Invocation.GivesTexts (some "a.db".toList) none (some ['+', '2'])
        ([['-', 'd'], "a.db".toList] ++ "run".toList ::
          (([] ++ [['-', 'b', '=', '+', '2']]) ++ [])) :=
      .intro (.value (.apart .short (by decide +kernel)) rfl)
        (.straight (.nothing _) (.value (.together .short_equals) rfl)) .nothing
    have hword : Decimal.WritesWord ['+', '2'] 2 := Decimal.word?_eq_some_iff.1 (by decide +kernel)
    have hi := (htexts _ _ _ hgiven).2 (by decide +kernel) _ (.some hword)
    obtain ⟨config, warnings, hlayered, -, hruns⟩ := hspelled _ hi
    have htime : ∀ n, ¬Environment.HasWord environment.pollInterval n := by
      intro n hn
      have hnone : (Environment.word? "" environment.pollInterval).1 = none := by decide +kernel
      rw [((Environment.word?_spec "" _).1 n).2 hn] at hnone
      cases hnone
    have hinput : ∀ path, ¬Environment.HasText environment.input path := fun _ h => by cases h
    have hsize : config.batchSize = 2 := (hlayered.batchSize 2).2 (.byOption rfl)
    have hpath : config.dbPath = "a.db".toList := (hlayered.dbPath _).2 (.byOption rfl)
    have hdash : config.input = ['-'] := (hlayered.input _).2 (.byDefault rfl hinput)
    have hpoll : config.pollInterval = 0 := (hlayered.pollInterval 0).2 (.byDefault rfl htime)
    have hsome : config.batchSize ≠ 0 := by rw [hsize]; decide
    have hnamed : config.dbPath ≠ [] := by rw [hpath]; decide +kernel
    have hcode : (run given).code = 0 := by decide +kernel
    have hstop : Event.stopReceived ∉ (run given).events := by decide +kernel
    obtain ⟨db, bytes, -, hbytes, hreads, -⟩ :=
      hruns.reads hsome hnamed none (some 2) rfl hcode hstop
    cases hbytes with
    | stdin => exact ⟨hcode, config, db, hsize, hpath, hpoll, hruns.asks hsome, hreads⟩
    | file name => exact absurd hdash name
  · obtain ⟨-, htexts, hspelled⟩ := skips_no_input silent
    have hgiven : Invocation.GivesTexts none none none ([] ++ "run".toList :: (([] ++ []) ++ [])) :=
      .intro (.nothing _) (.straight (.nothing _) (.nothing _)) .nothing
    have hi := (htexts _ _ _ hgiven).2 (by decide) none .none
    obtain ⟨config, warnings, hlayered, -, hruns⟩ := hspelled _ hi
    have hword : (Environment.word? "" environment.batchSize).1 = some 0 := by decide +kernel
    have hzero : config.batchSize = 0 := (hlayered.batchSize 0).2
      (.byVariable rfl (((Environment.word?_spec "" _).1 0).1 hword))
    exact ⟨warnings, hruns.zero hzero⟩
  · obtain ⟨-, htexts, -⟩ := skips_no_input unnamed
    have hgiven : Invocation.GivesTexts (some []) none none
        ([['-', 'd'], []] ++ "run".toList :: (([] ++ []) ++ [])) :=
      .intro (.value (.apart .short rfl) rfl) (.straight (.nothing _) (.nothing _)) .nothing
    exact (htexts _ _ _ hgiven).1 (.inl rfl)

end Program

end TransferLedger
