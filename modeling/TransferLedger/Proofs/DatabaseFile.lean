import Mathlib.Tactic
import TransferLedger.Database
import TransferLedger.Proofs.SnapshotFile

/-!
# Databases are kept in their files

* `Directory.SameOff`: two directories that differ at one place at most;
* `Database.IsClear`: the file of a database may be written, and nothing beside it is in the way;
* `Database.IsUnhindered`: the same for a file that is locked by itself;
* `Database.IsServing`: a database that is open for reading and writing, with its file;
* `Database.IsClear.read_empty`: a database is made in an empty file;
* `Database.read_close`: what is read after closing is what was there before.
-/

namespace TransferLedger

/-! ### Places and directories -/

theorem Place.beside_ne {p : Place} (hp : p ≠ []) {ending : List UInt8} (he : ending ≠ []) :
    p.beside ending ≠ p := by
  intro h
  have hlast : p.getLast? = some (p.getLast?.getD [] ++ ending) := by
    conv_lhs => rw [← h]
    simp [beside]
  rw [List.getLast?_eq_some_getLast hp, Option.some.injEq, Option.getD_some] at hlast
  exact he (List.self_eq_append_right.1 hlast)

namespace Directory

variable {d : Directory} {p q : Place}

theorem lookup_eq (d : Directory) (p : Place) : d.lookup p =
    if p.isPrefixOf d.home then some .folder
    else (d.entries.find? fun entry => entry.1 == p).map Prod.snd := rfl

theorem entries_put (d : Directory) (p : Place) (e : Entry) :
    (d.put p e).entries = (d.entries.filter fun entry => entry.1 != p) ++ [(p, e)] := rfl

theorem entries_removeFile (d : Directory) (p : Place) : (d.removeFile p).entries =
    d.entries.filter fun entry => entry.1 != p || entry.2 == .folder := rfl

/-- A search does not miss what a filter keeps. -/
theorem find?_filter_of_imp {α : Type} {f g : α → Bool} (h : ∀ a, g a = true → f a = true)
    (l : List α) : (l.filter f).find? g = l.find? g := by
  rw [List.find?_filter]
  congr 1
  funext a
  cases hg : g a with
  | false => simp
  | true => simp [h a hg]

theorem lookup_put_self (hp : p.isPrefixOf d.home = false) (e : Entry) :
    (d.put p e).lookup p = some e := by
  have hhome : p.isPrefixOf (d.put p e).home = false := hp
  have hnone : (d.entries.filter fun entry => entry.1 != p).find? (fun entry => entry.1 == p) =
      none := by
    rw [List.find?_eq_none]
    intro entry hentry
    simpa using (List.mem_filter.1 hentry).2
  rw [lookup_eq, hhome, entries_put, List.find?_append, hnone]
  simp

theorem lookup_put_of_ne (h : q ≠ p) (e : Entry) : (d.put p e).lookup q = d.lookup q := by
  have hkept : (d.entries.filter fun entry => entry.1 != p).find? (fun entry => entry.1 == q) =
      d.entries.find? fun entry => entry.1 == q :=
    find?_filter_of_imp (fun entry hentry => by simpa [eq_of_beq hentry] using h) d.entries
  have hlast : [(p, e)].find? (fun entry => entry.1 == q) = none := by
    simpa using Ne.symm h
  rw [lookup_eq, entries_put, List.find?_append, hkept, hlast, Option.or_none]
  rfl

/-- Removing a file leaves every other place as it was. -/
theorem lookup_removeFile_of_ne (h : q ≠ p) : (d.removeFile p).lookup q = d.lookup q := by
  have hkept : (d.entries.filter fun entry => entry.1 != p || entry.2 == .folder).find?
      (fun entry => entry.1 == q) = d.entries.find? fun entry => entry.1 == q :=
    find?_filter_of_imp (fun entry hentry => by simp [eq_of_beq hentry, h]) d.entries
  rw [lookup_eq, entries_removeFile, hkept]
  rfl

/-- Where nothing was, there is nothing after a removal. -/
theorem lookup_removeFile_of_none (h : d.lookup q = none) : (d.removeFile p).lookup q = none := by
  unfold lookup at h ⊢
  split at h
  · cases h
  · rename_i hhome
    rw [Option.map_eq_none_iff, List.find?_eq_none] at h
    rw [removeFile, if_neg hhome, Option.map_eq_none_iff, List.find?_eq_none]
    exact fun entry he => h entry (List.mem_filter.1 he).1

/-- Two directories hold the same everywhere but at one place. -/
structure SameOff (p : Place) (d e : Directory) : Prop where
  home : e.home = d.home
  lookup : ∀ q, q ≠ p → e.lookup q = d.lookup q

variable {e : Directory}

theorem SameOff.refl (p : Place) (d : Directory) : SameOff p d d := ⟨rfl, fun _ _ => rfl⟩

theorem SameOff.trans {f : Directory} (h : SameOff p d e) (h' : SameOff p e f) : SameOff p d f where
  home := h'.home.trans h.home
  lookup q hq := (h'.lookup q hq).trans (h.lookup q hq)

theorem SameOff.put (h : SameOff p d e) (x : Entry) : SameOff p d (e.put p x) where
  home := h.home
  lookup q hq := (lookup_put_of_ne hq x).trans (h.lookup q hq)

/-- Removing a file that is not there changes nothing. -/
theorem SameOff.removeFile (h : SameOff p d e) (hq : e.lookup q = none) :
    SameOff p d (e.removeFile q) where
  home := h.home
  lookup r hr := by
    rw [← h.lookup r hr]
    by_cases hrq : r = q
    · rw [hrq, hq, lookup_removeFile_of_none hq]
    · exact lookup_removeFile_of_ne hrq

end Directory

namespace Database

/-! ### Files that nothing is in the way of -/

/-- The file of a database may be written, it is locked by itself, and nothing is beside it. -/
structure IsUnhindered (l : Location) (p : Place) (d : Directory) : Prop where
  writable : l.isReadOnly = false
  mutable : l.immutable = false
  locking : l.locking = .shared
  below : p.isPrefixOf d.home = false
  short : Neighbours.isTooLong (p.beside Neighbours.journalEnding) = false
  journal : d.lookup (p.beside Neighbours.journalEnding) = none
  log : d.lookup (p.beside Neighbours.logEnding) = none

/-- The file of a database may be written, no lock is in the way, and there is neither a journal nor
a log beside it. -/
structure IsClear (l : Location) (p : Place) (d : Directory) : Prop where
  writable : l.isReadOnly = false
  mutable : l.immutable = false
  unlocked : Neighbours.lockFault l p d = none
  below : p.isPrefixOf d.home = false
  short : Neighbours.isTooLong (p.beside Neighbours.journalEnding) = false
  journal : d.lookup (p.beside Neighbours.journalEnding) = none
  log : d.lookup (p.beside Neighbours.logEnding) = none

/-- A database is open for reading and writing, and has its file at a place. -/
structure IsServing (l : Location) (p : Place) (db : Database) (d : Directory) : Prop where
  clear : IsClear l p d
  place : db.place = some p
  writable : db.readOnly = false
  unblocked : db.blocked = false
  log : db.log = .unused

variable {l : Location} {p : Place} {d e : Directory}

theorem IsUnhindered.isClear (h : IsUnhindered l p d) : IsClear l p d where
  writable := h.writable
  mutable := h.mutable
  unlocked := by simp [Neighbours.lockFault, h.locking]
  below := h.below
  short := h.short
  journal := h.journal
  log := h.log

theorem IsClear.ne_nil (h : IsClear l p d) : p ≠ [] := by
  rintro rfl
  exact absurd h.below (by simp)

/-- The files beside a database do not change with its own. -/
theorem lookup_beside_of_sameOff (hp : p ≠ []) (h : Directory.SameOff p d e) {ending : List UInt8}
    (hending : ending ≠ []) : e.lookup (p.beside ending) = d.lookup (p.beside ending) :=
  h.lookup _ (Place.beside_ne hp hending)

theorem lockFault_of_sameOff (hp : p ≠ []) (h : Directory.SameOff p d e) :
    Neighbours.lockFault l p e = Neighbours.lockFault l p d := by
  rw [Neighbours.lockFault, Neighbours.lockFault, lookup_beside_of_sameOff hp h (by decide)]

/-- Nothing else matters to the file of a database. -/
theorem IsClear.of_sameOff (h : IsClear l p d) (hde : Directory.SameOff p d e) :
    IsClear l p e where
  writable := h.writable
  mutable := h.mutable
  unlocked := (lockFault_of_sameOff h.ne_nil hde).trans h.unlocked
  below := by
    rw [hde.home]
    exact h.below
  short := h.short
  journal := (lookup_beside_of_sameOff h.ne_nil hde (by decide)).trans h.journal
  log := (lookup_beside_of_sameOff h.ne_nil hde (by decide)).trans h.log

/-- The file is written, and the journal that this takes is removed. -/
theorem IsClear.removeJournal_put (h : IsClear l p d) (x : Entry) :
    Directory.SameOff p d (Neighbours.removeJournal p (d.put p x)) ∧
      (Neighbours.removeJournal p (d.put p x)).lookup p = some x := by
  have hput := (Directory.SameOff.refl p d).put x
  constructor
  · exact hput.removeFile ((lookup_beside_of_sameOff h.ne_nil hput (by decide)).trans h.journal)
  · rw [Neighbours.removeJournal,
      Directory.lookup_removeFile_of_ne (Place.beside_ne h.ne_nil (by decide)).symm,
      Directory.lookup_put_self h.below]

/-- Where there is neither a journal nor a log, only a lock can be in the way. -/
theorem settle_eq (hjournal : d.lookup (p.beside Neighbours.journalEnding) = none)
    (hlog : d.lookup (p.beside Neighbours.logEnding) = none) (content : List UInt8) :
    Neighbours.settle l content p d =
      ⟨d, match Neighbours.lockFault l p d with
        | some why => .error why
        | none => .ok .unused⟩ := by
  have hsettled : Neighbours.settleJournal l content p d = ⟨d, .ok ()⟩ := by
    simp [Neighbours.settleJournal, hjournal]
  cases hlock : Neighbours.lockFault l p d with
  | some why => simp [Neighbours.settle, hlock]
  | none => simp [Neighbours.settle, hlock, hsettled, Attempt.andThen, Neighbours.settleLog, hlog]

theorem isJournalBlocked_eq (hjournal : d.lookup (p.beside Neighbours.journalEnding) = none) :
    Neighbours.isJournalBlocked p d =
      Neighbours.isTooLong (p.beside Neighbours.journalEnding) := by
  simp [Neighbours.isJournalBlocked, hjournal]

theorem IsClear.settle_eq (h : IsClear l p d) (content : List UInt8) :
    Neighbours.settle l content p d = ⟨d, .ok .unused⟩ := by
  rw [Database.settle_eq h.journal h.log, h.unlocked]

theorem IsClear.isJournalBlocked_eq (h : IsClear l p d) :
    Neighbours.isJournalBlocked p d = false :=
  (Database.isJournalBlocked_eq h.journal).trans h.short

/-- A database that has just been made, with no table in it. -/
def blank (p : Place) : Database where
  place := some p
  changes := makingChanges
  pages := (snapshot makingChanges {}).pages

/-- What a database keeps in its file is its table. -/
theorem table_kept (db : Database) : db.kept.table = db.table := by
  unfold kept
  dsimp only
  split_ifs <;> rfl

/-! ### Opening and closing -/

variable [FileFormat]

/-- A database is made in an empty file. -/
theorem IsClear.read_empty (h : IsClear l p d) (hd : d.lookup p = some (.file [])) :
    (read l p d).result = .ok (blank p) ∧
      Directory.SameOff p d (read l p d).directory ∧
      (read l p d).directory.lookup p =
        some (.file (FileFormat.encode (snapshot makingChanges {}))) := by
  have hread : read l p d = make l p d := by
    simp [read, contentAt, hd, h.mutable, h.settle_eq, Attempt.andThen, Neighbours.isBlank]
  rw [hread, make, h.writable, h.isJournalBlocked_eq]
  exact ⟨rfl, h.removeJournal_put _⟩

theorem read_empty (h : IsUnhindered l p d) (hd : d.lookup p = some (.file [])) :
    ∃ db, (read l p d).result = .ok db ∧ db.table = {} ∧
      IsServing l p db (read l p d).directory := by
  obtain ⟨hresult, hsame, -⟩ := h.isClear.read_empty hd
  exact ⟨_, hresult, rfl, h.isClear.of_sameOff hsame, rfl, rfl, rfl, rfl⟩

/-- A database is read from a file that was kept. -/
theorem read_kept [LawfulFileFormat] (h : IsClear l p d) {s : Snapshot}
    (hs : ∀ r ∈ s.table.rows, r.IsStored) (hd : d.lookup p = some (.file (FileFormat.encode s))) :
    read l p d = ⟨d, .ok
      { table := s.table, changes := s.changes, pages := s.pages, place := some p }⟩ := by
  simp [read, contentAt, hd, h.mutable, h.settle_eq, Attempt.andThen,
    LawfulFileFormat.not_isBlank, LawfulFileFormat.decode_encode s hs, h.writable,
    h.isJournalBlocked_eq]

/-- Closing leaves the table in the file, and everything else as it was. -/
theorem close_spec {db : Database} (h : IsServing l p db d) :
    Directory.SameOff p d (db.close d) ∧
      (db.close d).lookup p = some (.file (FileFormat.encode db.kept)) := by
  simp only [close, h.place, h.log, LogUse.close, if_true]
  -- A file that is up to date already is not written again.
  split_ifs with hsame
  · exact ⟨.refl p d, hsame⟩
  · exact h.clear.removeJournal_put _

/-- What is read after closing is what was there before. -/
theorem read_close [LawfulFileFormat] {db : Database} (h : IsServing l p db d)
    (hs : ∀ r ∈ db.table.rows, r.IsStored) :
    ∃ again, (read l p (db.close d)).result = .ok again ∧ again.table = db.table ∧
      IsServing l p again (read l p (db.close d)).directory := by
  obtain ⟨hclosed, hfile⟩ := close_spec h
  have hclear := h.clear.of_sameOff hclosed
  rw [read_kept hclear (by rwa [table_kept]) hfile]
  exact ⟨_, rfl, table_kept db, hclear, rfl, rfl, rfl, rfl⟩

end Database

end TransferLedger
