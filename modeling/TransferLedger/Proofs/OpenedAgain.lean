import Mathlib.Tactic
import TransferLedger.Proofs.DatabaseFile

/-!
# Databases that are made and opened again

A database that is made at a place changes nothing else, so what the program finds elsewhere stays
as it was, and the database is found again by its name.

* `Directory.find_of_sameOff`: what a path leads to is the same, unless that is the file itself;
* `Database.IsFresh`: no database has been kept at a place;
* `Database.openAt_of_isFresh`: what opening a fresh database leaves when it succeeds;
* `Database.openAt_kept`: a database that was kept is opened by its name.
-/

namespace TransferLedger

/-! ### Paths -/

namespace Directory

variable {p : Place} {d e : Directory}

/-- A walk that gets through goes through folders, and so not through a file. -/
theorem foldlM_step_of_sameOff (h : SameOff p d e) (hp : d.lookup p ≠ some .folder)
    {names : List Name} {start last : Place} (hwalk : names.foldlM d.step start = .ok last) :
    names.foldlM e.step start = .ok last := by
  induction names generalizing start with
  | nil => exact hwalk
  | cons name names ih =>
    rw [List.foldlM_cons] at hwalk ⊢
    cases hstep : d.step start name with
    | error fault =>
      rw [hstep] at hwalk
      cases hwalk
    | ok next =>
      -- The step leaves a folder behind, which is not at the place where the two differ.
      have hsame : e.lookup start.reverse = d.lookup start.reverse := by
        refine h.lookup _ fun hstart => ?_
        unfold step at hstep
        split at hstep
        · rename_i hfolder
          exact hp (hstart ▸ hfolder)
        · cases hstep
        · cases hstep
      rw [hstep] at hwalk
      rw [show e.step start name = .ok next by rw [← hstep, step, step, hsame]]
      exact ih hwalk

/-- What a path leads to is the same, unless it leads to the place where the two differ. -/
theorem find_of_sameOff (h : SameOff p d e) (hp : d.lookup p ≠ some .folder) {path : List UInt8}
    {x : Entry} (hfind : d.find path = .ok x) :
    e.find path = .ok x ∨
      d.lookup p = some x ∧ ∀ y, e.lookup p = some y → e.find path = .ok y := by
  unfold find at hfind ⊢
  split at hfind
  · cases hfind
  split at hfind
  · cases hfind
  rename_i hempty hlong
  rw [if_neg hempty, if_neg hlong, h.home]
  unfold walk at hfind ⊢
  cases hwalk : (Place.cut path).foldlM d.step (Place.start d.home path) with
  | error fault =>
    rw [hwalk] at hfind
    cases hfind
  | ok last =>
    rw [hwalk] at hfind
    rw [foldlM_step_of_sameOff h hp hwalk]
    simp only [bind, Except.bind] at hfind ⊢
    by_cases hlast : last.reverse = p
    · refine .inr ⟨?_, fun y hy => by rw [hlast, hy]; rfl⟩
      rw [hlast] at hfind
      cases hx : d.lookup p with
      | none =>
        rw [hx] at hfind
        cases hfind
      | some x' =>
        rw [hx] at hfind
        rw [Except.ok.inj hfind]
    · rw [h.lookup _ hlast]
      exact .inl hfind

/-- What is there stays there when a file is written. -/
theorem isThere_of_sameOff (h : SameOff p d e) (hp : d.lookup p ≠ some .folder) {y : Entry}
    (hy : e.lookup p = some y) {path : List UInt8} (hthere : d.isThere path = true) :
    e.isThere path = true := by
  unfold isThere at hthere ⊢
  cases hfind : d.find path with
  | error fault =>
    rw [hfind] at hthere
    cases hthere
  | ok x =>
    rcases find_of_sameOff h hp hfind with hsame | ⟨-, hother⟩
    · rw [hsame]
      rfl
    · rw [hother y hy]
      rfl

/-- The place of a path is the one that it is shortened to. -/
theorem eq_shorten_of_resolve {path : List UInt8} (h : d.resolve path = some p) :
    p = Place.shorten d.home path := by
  unfold resolve at h
  dsimp only at h
  split at h
  · exact (Option.some.inj h).symm
  · cases h

end Directory

namespace Database

/-! ### Fresh databases -/

/-- No database has been kept at a place: there is no file, or an empty one, and neither a journal
nor a log is left beside it. -/
structure IsFresh (p : Place) (d : Directory) : Prop where
  empty : d.lookup p = none ∨ d.lookup p = some (.file [])
  journal : d.lookup (p.beside Neighbours.journalEnding) = none
  log : d.lookup (p.beside Neighbours.logEnding) = none

variable {name : List Char} {l : Location} {p : Place} {d e : Directory} {db : Database}

theorem IsFresh.lookup_ne_folder (h : IsFresh p d) : d.lookup p ≠ some .folder := by
  intro hfolder
  rcases h.empty with hnone | hsome
  · rw [hnone] at hfolder
    cases hfolder
  · rw [hsome] at hfolder
    cases hfolder

/-- The place is not on the way to the working directory, where there are folders. -/
theorem IsFresh.below (h : IsFresh p d) : p.isPrefixOf d.home = false := by
  by_contra hprefix
  exact h.lookup_ne_folder (by rw [Directory.lookup_eq, if_pos (by simpa using hprefix)])

theorem IsFresh.ne_nil (h : IsFresh p d) : p ≠ [] := by
  rintro rfl
  exact absurd h.below (by simp)

/-- The file of a fresh database is there when it has been opened, and is empty. -/
theorem openFile_of_isFresh (h : IsFresh p d) (hopen : openFile name l p d = .ok e) :
    l.model.all d.isThere = true ∧ Directory.SameOff p d e ∧ e.lookup p = some (.file []) := by
  unfold openFile at hopen
  split at hopen
  · rename_i hmodel
    refine ⟨hmodel, ?_⟩
    rcases h.empty with hnone | hsome
    · rw [hnone] at hopen
      dsimp only at hopen
      split at hopen
      · obtain rfl := Except.ok.inj hopen
        exact ⟨(Directory.SameOff.refl p d).put _, Directory.lookup_put_self h.below _⟩
      · cases hopen
    · rw [hsome] at hopen
      obtain rfl := Except.ok.inj hopen
      exact ⟨.refl p d, hsome⟩
  · cases hopen

variable [FileFormat]

/-- A database is made in an empty file only when nothing is in the way. -/
theorem isClear_of_read (h : IsFresh p d) (hd : d.lookup p = some (.file []))
    (hfile : l.isPrivate = false) (hread : (read l p d).result = .ok db) : IsClear l p d := by
  have hunfiled : l.isUnfiled = false := (Bool.or_eq_false_iff.1 hfile).1
  have hcontent : contentAt p d = [] := by rw [contentAt, hd]
  have hwritable : l.isReadOnly = false := by
    by_contra hreadOnly
    simp only [Bool.not_eq_false] at hreadOnly
    have hmake : ∀ d, make l p d = ⟨d, .error .readOnly⟩ := fun d => by rw [make, if_pos hreadOnly]
    rw [read, hcontent, settle_eq h.journal h.log] at hread
    cases hi : l.immutable <;> cases hlock : Neighbours.lockFault l p d <;>
      simp [hi, hlock, Attempt.andThen, Neighbours.isBlank, hmake] at hread
  -- What is taken not to change is only read.
  have hmutable : l.immutable = false := by
    simp only [Location.isReadOnly, hunfiled, Bool.not_false, Bool.and_true,
      Bool.or_eq_false_iff] at hwritable
    exact hwritable.2
  rw [read, hcontent, settle_eq h.journal h.log, hmutable] at hread
  cases hlock : Neighbours.lockFault l p d with
  | some why => simp [hlock, Attempt.andThen] at hread
  | none =>
    cases hshort : Neighbours.isTooLong (p.beside Neighbours.journalEnding) with
    | true =>
      simp [hlock, Attempt.andThen, Neighbours.isBlank, make, hwritable,
        isJournalBlocked_eq h.journal, hshort] at hread
    | false => exact ⟨hwritable, hmutable, hlock, h.below, hshort, h.journal, h.log⟩

/-- What opening a fresh database leaves when it succeeds. -/
structure IsMade (l : Location) (d : Directory) (db : Database) (e : Directory) : Prop where
  model : l.model.all d.isThere = true
  same : Directory.SameOff (Place.shorten d.home l.path) d e
  file : e.lookup (Place.shorten d.home l.path) =
    some (.file (FileFormat.encode (snapshot makingChanges {})))
  clear : IsClear l (Place.shorten d.home l.path) e
  blank : db = blank (Place.shorten d.home l.path)

/-- A fresh database is made when it is opened. -/
theorem openAt_of_isFresh (hl : Location.parse name = .ok l) (hfile : l.isPrivate = false)
    (h : IsFresh (Place.shorten d.home l.path) d) (hopen : (openAt name d).result = .ok db) :
    IsMade l d db (openAt name d).directory := by
  simp only [openAt, hl, openLocation, hfile, Bool.false_eq_true, if_false] at hopen ⊢
  split at hopen
  · cases hopen
  rename_i p hp
  obtain rfl := Directory.eq_shorten_of_resolve hp
  split at hopen
  · cases hopen
  rename_i f hf
  obtain ⟨hmodel, hsame, hempty⟩ := openFile_of_isFresh h hf
  have hfresh : IsFresh (Place.shorten d.home l.path) f :=
    ⟨.inr hempty, (lookup_beside_of_sameOff h.ne_nil hsame (by decide)).trans h.journal,
      (lookup_beside_of_sameOff h.ne_nil hsame (by decide)).trans h.log⟩
  have hclear := isClear_of_read hfresh hempty hfile hopen
  obtain ⟨hresult, hread, hmade⟩ := hclear.read_empty hempty
  exact ⟨hmodel, hsame.trans hread, hmade, hclear.of_sameOff hread,
    Except.ok.inj (hopen.symm.trans hresult)⟩

/-- A fresh database serves from then on. -/
theorem IsMade.isServing (h : IsMade l d db e) :
    IsServing l (Place.shorten d.home l.path) db e := by
  rw [h.blank]
  exact ⟨h.clear, rfl, rfl, rfl, rfl⟩

/-! ### Opening again -/

/-- A database that was kept is opened by its name, and nothing changes. -/
theorem openAt_kept [LawfulFileFormat] (hl : Location.parse name = .ok l) (hfile : l.isPrivate = false)
    (hp : d.resolve l.path = some p) (hmodel : l.model.all d.isThere = true)
    (hclear : IsClear l p d) {s : Snapshot} (hs : ∀ r ∈ s.table.rows, r.IsStored)
    (hd : d.lookup p = some (.file (FileFormat.encode s))) :
    openAt name d =
      { directory := d
        events := [.storeOpened]
        result := .ok
          { table := s.table, changes := s.changes, pages := s.pages, place := some p } } := by
  have hopen : openFile name l p d = .ok d := by rw [openFile, if_pos hmodel, hd]
  simp only [openAt, hl, openLocation, hfile, Bool.false_eq_true, if_false, hp, hopen,
    read_kept hclear hs hd]

end Database

end TransferLedger
