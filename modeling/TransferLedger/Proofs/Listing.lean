import Mathlib.Tactic
import TransferLedger.Program
import TransferLedger.Proofs.History
import TransferLedger.Proofs.OpenedAgain
import TransferLedger.Proofs.ReadThrough
import TransferLedger.Proofs.RecordText
import TransferLedger.Proofs.StopSignal
import TransferLedger.Proofs.WholeRun

/-!
# What is committed is listed

The program commits the records of an input to a fresh database, and a later run of it lists what
the database holds: the newest first, those of one block and log index in the order of the input.

* `IsListing`: transfers in the order in which they are listed;
* `isListing_mergeSort`: a stable sort puts them into this order;
* `Program.CommitsTo`, `Program.Lists`: the plans of the two runs;
* `Program.commit_spec`: a run that succeeds has kept in the file what is to be committed;
* `Program.list_shows_committed`: what the second run shows.
-/

namespace TransferLedger

open LawfulStore

/-! ### The order of a listing -/

section Pairs

variable {α : Type} {a b : α} {l : List α}

/-- Of two elements one stands before the other. -/
theorem pair_sublist_or (ha : a ∈ l) (hb : b ∈ l) (hne : a ≠ b) :
    [a, b].Sublist l ∨ [b, a].Sublist l := by
  induction l with
  | nil => exact absurd ha List.not_mem_nil
  | cons c l ih =>
    rcases List.mem_cons.1 ha with rfl | ha'
    · have hb' := (List.mem_cons.1 hb).resolve_left hne.symm
      exact .inl ((List.singleton_sublist.2 hb').cons_cons a)
    · rcases List.mem_cons.1 hb with rfl | hb'
      · exact .inr ((List.singleton_sublist.2 ha').cons_cons b)
      · exact (ih ha' hb').imp (List.Sublist.cons c) (List.Sublist.cons c)

/-- Without repetitions it is only one of them. -/
theorem not_pair_sublist_swap (hl : l.Nodup) (hab : [a, b].Sublist l) : ¬[b, a].Sublist l := by
  induction l with
  | nil => cases hab
  | cons c l ih =>
    obtain ⟨hc, hl⟩ := List.nodup_cons.1 hl
    intro hba
    cases hab with
    | cons _ hab =>
      cases hba with
      | cons _ hba => exact ih hl hab hba
      | cons_cons => exact hc (hab.subset (by simp))
    | cons_cons _ hb =>
      cases hba with
      | cons _ hba => exact hc (hba.subset (by simp))
      | cons_cons => exact hc (hb.subset (by simp))

end Pairs

/-- A transfer is listed before another: it has the larger block number or, in the same block, the
larger log index or, with the same one, it comes first among those that are committed. -/
def ListsBefore (committed : List Transfer) (a b : Transfer) : Prop :=
  b.blockNumber < a.blockNumber ∨ b.blockNumber = a.blockNumber ∧
    (b.logIndex < a.logIndex ∨ b.logIndex = a.logIndex ∧ [a, b].Sublist committed)

/-- All committed transfers in the order in which they are listed. -/
structure IsListing (committed listed : List Transfer) : Prop where
  perm : listed.Perm committed
  order : listed.Pairwise (ListsBefore committed)

theorem newerOrSame_iff (a b : Transfer) : newerOrSame a b = true ↔
    b.blockNumber.toNat < a.blockNumber.toNat ∨
      b.blockNumber.toNat = a.blockNumber.toNat ∧ b.logIndex.toNat ≤ a.logIndex.toNat := by
  simp only [newerOrSame, Bool.or_eq_true, Bool.and_eq_true, decide_eq_true_eq, beq_iff_eq,
    UInt64.lt_iff_toNat_lt, UInt64.le_iff_toNat_le, UInt64.toNat_inj]

theorem newerOrSame_trans (a b c : Transfer) (hab : newerOrSame a b = true)
    (hbc : newerOrSame b c = true) : newerOrSame a c = true := by
  rw [newerOrSame_iff] at hab hbc ⊢
  omega

theorem newerOrSame_total (a b : Transfer) : (newerOrSame a b || newerOrSame b a) = true := by
  rw [Bool.or_eq_true, newerOrSame_iff, newerOrSame_iff]
  omega

/-- A stable sort lists transfers, when no two are the same. -/
theorem isListing_mergeSort {committed : List Transfer} (h : committed.Nodup) :
    IsListing committed (committed.mergeSort newerOrSame) where
  perm := List.mergeSort_perm committed newerOrSame
  order := by
    have hperm := List.mergeSort_perm committed newerOrSame
    have hnodup := hperm.nodup_iff.2 h
    have hsorted := List.pairwise_mergeSort newerOrSame_trans newerOrSame_total committed
    rw [List.pairwise_iff_forall_sublist] at hsorted ⊢
    intro a b hab
    have hle := (newerOrSame_iff a b).1 (hsorted hab)
    rw [ListsBefore, UInt64.lt_iff_toNat_lt, UInt64.lt_iff_toNat_lt, ← UInt64.toNat_inj,
      ← UInt64.toNat_inj]
    by_cases hsame : b.blockNumber.toNat = a.blockNumber.toNat ∧ b.logIndex.toNat = a.logIndex.toNat
    · refine .inr ⟨hsame.1, .inr ⟨hsame.2, ?_⟩⟩
      have hne : a ≠ b := by
        rintro rfl
        exact List.nodup_iff_sublist.1 hnodup a hab
      -- Were the second one before the first, it would have stayed there.
      refine (pair_sublist_or (hperm.subset (hab.subset (by simp)))
        (hperm.subset (hab.subset (by simp))) hne).resolve_right fun hba => ?_
      have hge : newerOrSame b a = true := (newerOrSame_iff b a).2 (by omega)
      exact not_pair_sublist_swap hnodup hab
        (List.pair_sublist_mergeSort newerOrSame_trans newerOrSame_total hge hba)
    · omega

theorem nodup_additions (held handed : List Transfer) : (additions held handed).Nodup :=
  (nodup_newcomers Transfer.key _ _).of_map

/-- What is added can be stored. -/
theorem isStorable_of_mem_additions {held handed : List Transfer} {t : Transfer}
    (h : t ∈ additions held handed) : t.IsStorable := by
  have := (newcomers_sublist Transfer.key _ _).subset h
  simpa using (List.mem_filter.1 this).2

/-! ### A run that commits -/

namespace Worker

/-- A run leaves the database where it is. -/
theorem isServing_run {σ : Type} [Source σ] (w : Worker) (c : Conditions) {l : Location}
    {p : Place} {db : Database} {d : Directory} (h : Database.IsServing l p db d) (source : σ) :
    Database.IsServing l p (w.run c source db).progress.store d := by
  refine w.runFrom_store_invariant (Q := fun db => Database.IsServing l p db d) c ?_ _ h
  intro db batch hdb
  by_cases hnil : (w.guard.screen batch).accepted = []
  · rw [commitBatch_of_accepted_nil hnil]
    exact hdb
  · rw [commitBatch_of_accepted_ne_nil hnil]
    obtain ⟨-, -, hw, hb, hplace, hlog⟩ := Database.commit_spec hdb.writable hdb.unblocked
      (w.guard.screen batch).accepted
    exact ⟨hdb.clear, hplace.trans hdb.place, hw, hb, hlog.trans hdb.log⟩

end Worker

namespace Program

/-- The program is to commit the records of some text to a fresh database in a file. -/
structure CommitsTo (s : Surroundings) (plan : Plan) (l : Location) (bytes : List UInt8) :
    Prop where
  planned : Plan.make s.args s.environment = .ok plan
  command : ∃ input batchSize, plan.command = .run input batchSize
  valid : plan.config.fault = none
  location : Location.parse plan.config.dbPath = .ok l
  filed : l.isPrivate = false
  fresh : Database.IsFresh (Place.shorten s.directory.home l.path) s.directory
  input : if plan.config.readsStdin then s.stdin = bytes
    else s.directory.find (Text.Utf8.encode plan.config.input) = .ok (.file bytes)
  text : IsText bytes

/-- The program is to list up to a number of transfers of the database at a place, which its name
leads to. -/
structure Lists (s : Surroundings) (plan : Plan) (l : Location) (p : Place) (limit : ℕ) :
    Prop where
  planned : Plan.make s.args s.environment = .ok plan
  command : plan.command = .list limit
  valid : plan.config.fault = none
  location : Location.parse plan.config.dbPath = .ok l
  found : s.directory.resolve l.path = some p

variable {s : Surroundings} {plan : Plan} {l : Location} {bytes : List UInt8}

/-- Valid settings ask for some transfers at a time. -/
theorem batchSize_pos_of_valid {config : Config} (h : config.fault = none) :
    0 < config.batchSize := by
  unfold Config.fault at h
  split at h
  · cases h
  · omega

/-- A transfer's direction is to itself when its receiver is there and is its sender. -/
theorem direction_row_iff (t : Transfer) :
    t.row.direction = .toSelf ↔ t.receiver = some t.sender :=
  Direction.between_eq_toSelf_iff

section Commits

variable [FileFormat]

/-- Valid settings are followed. -/
theorem run_eq (hplan : Plan.make s.args s.environment = .ok plan)
    (hvalid : plan.config.fault = none) : run s = runPlan plan s.stdin s.stop s.directory := by
  simp only [run, hplan, hvalid]

/-- A plan that does not fail has opened its database. -/
theorem opens_of_success {stdin : List UInt8} {stop : Option ℕ} {d : Directory}
    (h : (runPlan plan stdin stop d).code = 0) :
    ∃ db, (Database.openAt plan.config.dbPath d).result = .ok db ∧
      (perform plan stdin stop db (Database.openAt plan.config.dbPath d).directory).code = 0 ∧
      (runPlan plan stdin stop d).directory =
        (perform plan stdin stop db (Database.openAt plan.config.dbPath d).directory).directory := by
  cases hopen : (Database.openAt plan.config.dbPath d).result with
  | error why => simp [runPlan, hopen, failure] at h
  | ok db =>
    simp only [runPlan, hopen] at h ⊢
    exact ⟨db, rfl, h, rfl⟩

/-- The database is closed whether the run fails or not. -/
theorem directory_ofRun {σ : Type} (run : Run σ Database) (d : Directory) :
    (ofRun run d).directory = run.progress.store.close d := by
  unfold ofRun
  dsimp only
  split <;> rfl

theorem ending_of_success {σ : Type} {run : Run σ Database} {d : Directory}
    (h : (ofRun run d).code = 0) (error : WorkerError) : run.ending ≠ .failed error := by
  intro hfails
  simp [ofRun, hfails, failure] at h

/-- What is committed is read from the input, unless the input is the file of the database. -/
theorem commit_eq [LawfulFileFormat] (h : CommitsTo s plan l bytes) {db : Database} {d : Directory}
    (hmade : Database.IsMade l s.directory db d)
    (hsuccess : (commit plan.config s.stdin none db d).code = 0) :
    commit plan.config s.stdin none db d = ofRun (Worker.run
      { batchSize := plan.config.batchSize, pollInterval := plan.config.pollInterval } {}
      (Lines.ofBytes bytes) db) d := by
  have hinput := h.input
  unfold commit at hsuccess ⊢
  dsimp only at hsuccess ⊢
  split at hinput
  · rename_i hstdin
    rw [if_pos hstdin, hinput]
    rfl
  · rename_i hstdin
    rw [if_neg hstdin] at hsuccess ⊢
    rcases Directory.find_of_sameOff hmade.same h.fresh.lookup_ne_folder hinput with hsame | hother
    · rw [hsame]
      rfl
    · -- That file holds the new table by then, which is not read as text.
      rw [hother.2 _ hmade.file] at hsuccess
      have hquiet : ({} : Conditions).IsUndisturbed := ⟨rfl, rfl⟩
      let w : Worker :=
        { batchSize := plan.config.batchSize, pollInterval := plan.config.pollInterval }
      rcases w.run_reads hquiet (batchSize_pos_of_valid h.valid) _ db with ⟨error, herror⟩ | hall
      · exact absurd herror (ending_of_success hsuccess error)
      · exact absurd hall.isText (LawfulFileFormat.not_isText _)

/-- A run that succeeds has kept in the file what is to be committed. -/
theorem commit_spec [LawfulFileFormat] (h : CommitsTo s plan l bytes) (hstop : s.stop = none)
    (hsuccess : (run s).code = 0) :
    let p := Place.shorten s.directory.home l.path
    l.model.all s.directory.isThere = true ∧
      Directory.SameOff p s.directory (run s).directory ∧
      Database.IsClear l p (run s).directory ∧
      ∃ kept : Snapshot, (run s).directory.lookup p = some (.file (FileFormat.encode kept)) ∧
        kept.table.rows = (additions [] (Lines.transfers bytes)).map Cells.ofTransfer := by
  intro p
  rw [run_eq h.planned h.valid, hstop] at hsuccess ⊢
  obtain ⟨db, hopen, hcode, hdirectory⟩ := opens_of_success hsuccess
  have hmade := Database.openAt_of_isFresh h.location h.filed h.fresh hopen
  obtain ⟨input, batchSize, hcommand⟩ := h.command
  simp only [perform, hcommand] at hcode hdirectory
  rw [commit_eq h hmade hcode, directory_ofRun] at hdirectory
  -- The run takes everything, and the database that it leaves is closed in its place.
  let w : Worker :=
    { batchSize := plan.config.batchSize, pollInterval := plan.config.pollInterval }
  have hserving := w.isServing_run {} hmade.isServing (Lines.ofBytes bytes)
  have hempty : rows db = [].map (row Database) := by
    rw [hmade.blank]
    rfl
  have hready : IsReady db := ⟨hmade.isServing.writable, hmade.isServing.unblocked⟩
  have hquiet : ({} : Conditions).IsUndisturbed := ⟨rfl, rfl⟩
  obtain ⟨-, hrows, -⟩ := w.run_adds_newcomers rfl (batchSize_pos_of_valid h.valid) hquiet
    (Lines.isSound_ofBytes h.text) db hready hempty
  obtain ⟨hclosed, hfile⟩ := Database.close_spec hserving
  rw [hdirectory]
  refine ⟨hmade.model, hmade.same.trans hclosed, hmade.clear.of_sameOff hclosed, _, hfile, ?_⟩
  rw [Database.table_kept]
  exact hrows

/-! ### A run that lists -/

/-- A listing of an open database shows the newest transfers, a row for each. -/
theorem list_spec {p : Place} {limit : ℕ} (h : Lists s plan l p limit) {opening : Opening}
    {db : Database} {ts : List Transfer}
    (hopen : Database.openAt plan.config.dbPath s.directory = opening)
    (hdb : opening.result = .ok db) (hrows : db.table.rows = ts.map Cells.ofTransfer) :
    (run s).code = 0 ∧ (run s).report = none ∧
      (run s).lines = ((ts.mergeSort newerOrSame).take limit).map fun t => t.row.toJson := by
  have hrecent : Store.recent limit db = .ok ((ts.mergeSort newerOrSame).take limit) := by
    show db.table.recent limit = _
    have htable : db.table = ⟨ts.map Cells.ofTransfer⟩ := congrArg Table.mk hrows
    rw [htable]
    exact Table.recent_ofTransfer ts limit
  rw [run_eq h.planned h.valid, runPlan, hopen]
  simp only [hdb, perform, h.command, list, hrecent, and_self]

/-- **What is committed is listed.** The program commits the records of some text to a fresh
database in a file and succeeds, without having been asked to stop. Then it lists from the same
database, in the directory as it was left. It succeeds, and shows on a line each, as compact JSON
that reads back, the rows of the first transfers: those within range, the first of each name,
ordered by block number, then by log index, the larger ones first, and then as in the text. A row's
direction is to itself exactly when the transfer's receiver is its sender. -/
theorem list_shows_committed [LawfulFileFormat] {s₁ s₂ : Surroundings} {plan₁ plan₂ : Plan} {l : Location}
    {bytes : List UInt8} {limit : ℕ} (first : CommitsTo s₁ plan₁ l bytes)
    (success : (run s₁).code = 0) (unstopped : Event.stopReceived ∉ (run s₁).events)
    (directory : s₂.directory = (run s₁).directory)
    (second : Lists s₂ plan₂ l (Place.shorten s₁.directory.home l.path) limit) :
    let committed := additions [] (Lines.transfers bytes)
    let shown := run s₂
    ∃ listed, IsListing committed listed ∧ shown.code = 0 ∧ shown.report = none ∧
      shown.lines = (listed.take limit).map (fun t => t.row.toJson) ∧
      shown.lines.length = min limit committed.length ∧
      ∀ t ∈ listed, Json.IsPrintable t.row.toJson ∧ Row.ofJson t.row.toJson = .ok t.row ∧
        (t.row.direction = .toSelf ↔ t.receiver = some t.sender) := by
  intro committed shown
  let alone : Surroundings := { s₁ with stop := none }
  have halone : run s₁ = run alone := run_of_unstopped unstopped
  have hfirst : CommitsTo alone plan₁ l bytes := { first with }
  rw [halone] at success directory
  obtain ⟨hmodel, hsame, hclear, kept, hfile, hrows⟩ := commit_spec hfirst rfl success
  rw [← directory] at hsame hclear hfile
  have hstored : ∀ r ∈ kept.table.rows, r.IsStored := by
    intro r hr
    rw [hrows] at hr
    obtain ⟨t, ht, rfl⟩ := List.mem_map.1 hr
    exact Cells.isStored_ofTransfer (isStorable_of_mem_additions ht).numbers
  have hthere : l.model.all s₂.directory.isThere = true := by
    rw [Option.all_eq_true] at hmodel ⊢
    exact fun path hpath => Directory.isThere_of_sameOff hsame first.fresh.lookup_ne_folder hfile
      (hmodel path hpath)
  have hopen := Database.openAt_kept second.location first.filed second.found hthere hclear hstored
    hfile
  obtain ⟨hcode, hreport, hlines⟩ := list_spec second hopen rfl hrows
  refine ⟨committed.mergeSort newerOrSame, isListing_mergeSort (nodup_additions _ _), hcode,
    hreport, hlines, ?_, fun t _ => ?_⟩
  · rw [hlines]
    simp only [List.length_map, List.length_take, List.length_mergeSort, committed]
  · exact ⟨t.row.isPrintable_toJson, t.row.ofJson_toJson, direction_row_iff t⟩

end Commits

/-- The program with some arguments and the sample as its standard input. -/
def invoked (args : List String) (directory : Directory) : Surroundings where
  args := args.map String.toList
  stdin := Text.Utf8.encode sampleText
  directory

/-- Three transfers of five are committed, in batches of two, and two of them are listed. -/
theorem list_shows_sample :
    let s₁ := invoked ["-d", "a.db", "run", "-b", "2"] {}
    let s₂ := invoked ["-d", "a.db", "list", "-l", "2"] (run s₁).directory
    (run s₁).code = 0 ∧ Event.stopReceived ∉ (run s₁).events ∧ (run s₂).code = 0 ∧
      (run s₂).report = none ∧ (run s₂).lines.length = 2 := by
  intro s₁ s₂
  let l : Location := { path := Text.Utf8.encode "a.db".toList }
  let plan₁ : Plan :=
    { command := .run none (some 2)
      config := { dbPath := "a.db".toList, batchSize := 2 }
      events := [] }
  let plan₂ : Plan := { command := .list 2, config := { dbPath := "a.db".toList }, events := [] }
  have first : CommitsTo s₁ plan₁ l (Text.Utf8.encode sampleText) :=
    { planned := by rfl
      command := ⟨_, _, rfl⟩
      valid := by decide
      location := by rfl
      filed := by decide +kernel
      fresh := ⟨by decide +kernel, by decide +kernel, by decide +kernel⟩
      input := by rfl
      text := isText_encode sampleText }
  have success : (run s₁).code = 0 := by decide +kernel
  have second : Lists s₂ plan₂ l (Place.shorten s₁.directory.home l.path) 2 :=
    { planned := by rfl
      command := rfl
      valid := by decide
      location := by rfl
      found := by decide +kernel }
  have hcommitted : (additions [] (Lines.transfers (Text.Utf8.encode sampleText))).length = 3 := by
    decide +kernel
  have directory : s₂.directory = (run s₁).directory := by dsimp only [s₂, invoked]
  have unstopped : Event.stopReceived ∉ (run s₁).events := by decide +kernel
  have hshown := list_shows_committed first success unstopped directory second
  obtain ⟨_, -, hcode, hreport, -, hlength, -⟩ := hshown
  rw [hcommitted] at hlength
  exact ⟨success, unstopped, hcode, hreport, hlength⟩

/-- A run that is asked to stop succeeds as well, but the database holds only what was committed
until then. Here it is asked in the wait behind the second batch of five, in which the first of three
transfers has been committed and no other one. -/
theorem stopped_run_lists_less :
    let environment : Environment := { pollInterval := some (Text.Utf8.encode "100".toList) }
    let s₁ := { invoked ["-d", "a.db", "run", "-b", "1"] {} with environment, stop := some 150 }
    let s₂ := invoked ["-d", "a.db", "list"] (run s₁).directory
    let l : Location := { path := Text.Utf8.encode "a.db".toList }
    let bytes := Text.Utf8.encode sampleText
    (∃ plan₁, CommitsTo s₁ plan₁ l bytes) ∧ (run s₁).code = 0 ∧
      s₂.directory = (run s₁).directory ∧
      (∃ plan₂, Lists s₂ plan₂ l (Place.shorten s₁.directory.home l.path) 20) ∧
      (run s₂).code = 0 ∧ (run s₂).lines.length = 1 ∧
      min 20 (additions [] (Lines.transfers bytes)).length = 3 := by
  intro environment s₁ s₂ l bytes
  let plan₁ : Plan :=
    { command := .run none (some 1)
      config := { dbPath := "a.db".toList, batchSize := 1, pollInterval := 100 }
      events := [] }
  let plan₂ : Plan := { command := .list 20, config := { dbPath := "a.db".toList }, events := [] }
  have first : CommitsTo s₁ plan₁ l bytes :=
    { planned := by rfl
      command := ⟨_, _, rfl⟩
      valid := by decide
      location := by rfl
      filed := by decide +kernel
      fresh := ⟨by decide +kernel, by decide +kernel, by decide +kernel⟩
      input := by rfl
      text := isText_encode sampleText }
  have second : Lists s₂ plan₂ l (Place.shorten s₁.directory.home l.path) 20 :=
    { planned := by rfl
      command := rfl
      valid := by decide
      location := by rfl
      found := by decide +kernel }
  have directory : s₂.directory = (run s₁).directory := by dsimp only [s₂, invoked]
  exact ⟨⟨plan₁, first⟩, by decide +kernel, directory, ⟨plan₂, second⟩, by decide +kernel,
    by decide +kernel, by decide +kernel⟩

end Program

end TransferLedger
