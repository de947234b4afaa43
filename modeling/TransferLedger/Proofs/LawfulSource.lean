import Mathlib.Tactic
import TransferLedger.Proofs.Utf8Text
import TransferLedger.Source.Lines
import TransferLedger.Source.Memory

/-!
# The laws of a source

A source has transfers left. As long as nothing that is left fails a request, a request takes as
many of them from the front as it asks for, or all that there are.

* `LawfulSource`: these laws;
* `Lines.transfers`: the transfers in the lines of some bytes;
* `IsText`: every line of some bytes is UTF-8;
* `Lines.Serves`, `Lines.pullFrom_serves`: what a request answers about the lines that it consumes;
* `LawfulSource` for `Lines` and for `Pending`: both sources obey the laws.
-/

namespace TransferLedger

/-- A source that hands out the front of what is left. -/
class LawfulSource (σ : Type) [Source σ] where
  /-- The transfers that are left, in the order in which they are handed out. -/
  remaining : σ → List Transfer
  /-- Nothing that is left fails a request. -/
  IsSound : σ → Prop
  supply_eq {s : σ} (hs : IsSound s) (max : ℕ) :
    (Source.pull max s).supply = .batch ((remaining s).take max)
  source_spec {s : σ} (hs : IsSound s) (max : ℕ) :
    remaining (Source.pull max s).source = (remaining s).drop max ∧
      IsSound (Source.pull max s).source
  length_lt_bound (s : σ) : (remaining s).length < Source.bound s

instance : LawfulSource Pending where
  remaining := Pending.transfers
  IsSound _ := True
  supply_eq _ _ := rfl
  source_spec _ _ := ⟨rfl, trivial⟩
  length_lt_bound s := Nat.lt_succ_self s.transfers.length

/-! ### Lines -/

/-- The transfer that a line amounts to. -/
def Reading.transfer? : Reading → Option Transfer
  | .transfer t => some t
  | _ => none

/-- Whether a line is text that holds no transfer. -/
def Reading.isMalformed : Reading → Bool
  | .malformed _ => true
  | _ => false

/-- A line can be read, whatever is in it. -/
def Reading.IsDecodable (line : List UInt8) : Prop :=
  ∀ fault, Reading.ofLine line ≠ .undecodable fault

/-- Every line of some bytes is UTF-8. -/
def IsText (bytes : List UInt8) : Prop :=
  ∀ line ∈ splitLines bytes, ∃ text, Text.Utf8.encode text = line

/-- A line of UTF-8 is read. -/
theorem Reading.isDecodable_encode (text : List Char) : IsDecodable (Text.Utf8.encode text) := by
  intro fault
  simp only [ofLine, Text.Utf8.decode_encode]
  split
  · simp
  · split <;> simp

/-- Nothing else is. -/
theorem Reading.isDecodable_iff {line : List UInt8} :
    IsDecodable line ↔ ∃ text, Text.Utf8.encode text = line := by
  constructor
  · intro h
    cases hdecode : Text.Utf8.decode line with
    | error fault => exact absurd (by rw [ofLine, hdecode]) (h fault)
    | ok text => exact ⟨text, Text.Utf8.encode_of_decode hdecode⟩
  · rintro ⟨text, rfl⟩
    exact isDecodable_encode text

namespace Lines

/-- The transfers in some lines. -/
def transfersIn (pending : List (List UInt8)) : List Transfer :=
  pending.filterMap fun line => (Reading.ofLine line).transfer?

/-- The transfers in the lines of some bytes. -/
def transfers (bytes : List UInt8) : List Transfer := transfersIn (splitLines bytes)

theorem transfersIn_cons (line : List UInt8) (pending : List (List UInt8)) :
    transfersIn (line :: pending) =
      (Reading.ofLine line).transfer?.toList ++ transfersIn pending := by
  cases h : (Reading.ofLine line).transfer? <;> simp [transfersIn, h]

theorem transfersIn_append (xs ys : List (List UInt8)) :
    transfersIn (xs ++ ys) = transfersIn xs ++ transfersIn ys :=
  List.filterMap_append

/-- How many of some lines are text that holds no transfer. -/
def malformedIn (pending : List (List UInt8)) : ℕ :=
  pending.countP fun line => (Reading.ofLine line).isMalformed

theorem malformedIn_cons (line : List UInt8) (pending : List (List UInt8)) :
    malformedIn (line :: pending) =
      (if (Reading.ofLine line).isMalformed then 1 else 0) + malformedIn pending := by
  rw [malformedIn, List.countP_cons, Nat.add_comm]
  rfl

/-- What a request for a number of transfers answers that consumes some lines and leaves the
rest. -/
inductive Serves (max : ℕ) (rest : List (List UInt8)) : List (List UInt8) → Supply → Prop
  /-- It hands out the transfers in these lines, and fewer than it may only when none is left. No
  line is read when the batch is full. -/
  | batch {consumed : List (List UInt8)}
      (decodable : ∀ line ∈ consumed, Reading.IsDecodable line)
      (fits : (transfersIn consumed).length ≤ max)
      (all : (transfersIn consumed).length < max → rest = [])
      (room : ∀ front line behind, consumed = front ++ line :: behind →
        (transfersIn front).length < max) :
      Serves max rest consumed (.batch (transfersIn consumed))
  /-- It fails at the last of these lines, which is not UTF-8 and comes before the batch is full. -/
  | failed {front : List (List UInt8)} {line : List UInt8} {fault : Text.Utf8.Fault}
      (decodable : ∀ l ∈ front, Reading.IsDecodable l)
      (undecodable : Reading.ofLine line = .undecodable fault)
      (room : (transfersIn front).length < max) :
      Serves max rest (front ++ [line]) (.failed (.undecodable fault))

/-- What comes in front does not concern what is left. -/
@[simp] theorem prepend_source (t : Transfer) (p : Pull Lines) :
    (prepend t p).source = p.source := by
  unfold prepend
  split <;> rfl

section Serves

variable {max : ℕ} {rest consumed : List (List UInt8)} {line : List UInt8} {p : Pull Lines}

/-- One more line in front that holds no transfer makes no difference. -/
theorem Serves.pass (h : Serves max rest consumed p.supply) (hmax : 0 < max)
    (hd : Reading.IsDecodable line) (ht : (Reading.ofLine line).transfer? = none) :
    Serves max rest (line :: consumed) p.supply := by
  have hsame : ∀ lines, transfersIn (line :: lines) = transfersIn lines := by
    intro lines
    rw [transfersIn_cons, ht]
    rfl
  generalize p.supply = supply at h
  cases h with
  | batch decodable fits all room =>
    rw [← hsame] at fits all ⊢
    refine .batch (List.forall_mem_cons.2 ⟨hd, decodable⟩) fits all ?_
    rintro (_ | ⟨l, front⟩) last behind heq
    · exact hmax
    · obtain ⟨rfl, htail⟩ := List.cons.inj heq
      rw [hsame]
      exact room front last behind htail
  | failed decodable undecodable room =>
    rw [← hsame] at room
    exact .failed (List.forall_mem_cons.2 ⟨hd, decodable⟩) undecodable room

/-- One more transfer in front is handed out first. -/
theorem Serves.prepend (h : Serves max rest consumed p.supply) {t : Transfer}
    (hline : Reading.ofLine line = .transfer t) :
    Serves (max + 1) rest (line :: consumed) (prepend t p).supply := by
  have hd : Reading.IsDecodable line := fun fault hf => by
    rw [hline] at hf
    cases hf
  have hmore : ∀ lines, transfersIn (line :: lines) = t :: transfersIn lines := by
    intro lines
    rw [transfersIn_cons, hline]
    rfl
  unfold Lines.prepend
  cases hp : p.supply with
  | stalled =>
    rw [hp] at h
    cases h
  | batch ts =>
    rw [hp] at h
    cases h with
    | batch decodable fits all room =>
      show Serves (max + 1) rest (line :: consumed) (.batch (t :: transfersIn consumed))
      rw [← hmore]
      refine .batch (List.forall_mem_cons.2 ⟨hd, decodable⟩) ?_ ?_ ?_
      · rw [hmore, List.length_cons]
        omega
      · intro hlt
        rw [hmore, List.length_cons] at hlt
        exact all (by omega)
      · rintro (_ | ⟨l, front⟩) last behind heq
        · exact Nat.succ_pos max
        · obtain ⟨rfl, htail⟩ := List.cons.inj heq
          rw [hmore, List.length_cons]
          exact Nat.succ_lt_succ (room front last behind htail)
  | failed error =>
    rw [hp] at h
    show Serves (max + 1) rest (line :: consumed) p.supply
    rw [hp]
    cases h with
    | @failed front last fault decodable undecodable room =>
      rw [← List.cons_append]
      refine .failed (List.forall_mem_cons.2 ⟨hd, decodable⟩) undecodable ?_
      rw [hmore, List.length_cons]
      omega

end Serves

/-- A request consumes lines from the front, and counts those that it skips. -/
theorem pullFrom_serves (max : ℕ) (pending : List (List UInt8)) (read skipped : ℕ) :
    let p := pullFrom max pending read skipped
    ∃ consumed, pending = consumed ++ p.source.pending ∧
      Serves max p.source.pending consumed p.supply ∧
      p.source.skipped = skipped + malformedIn consumed := by
  -- The induction is on the lines, as the request goes on behind each that does not end it.
  induction pending generalizing max read skipped with
  | nil =>
    have hserves : Serves max [] [] (.batch (transfersIn [])) :=
      .batch (by simp) (Nat.zero_le max) (fun _ => rfl) (by simp)
    cases max with
    | zero => exact ⟨[], rfl, hserves, rfl⟩
    | succ max => exact ⟨[], rfl, hserves, rfl⟩
  | cons line pending ih =>
    obtain _ | max := max
    · refine ⟨[], rfl, ?_, rfl⟩
      exact .batch (by simp) le_rfl (fun h => absurd h (Nat.lt_irrefl 0)) (by simp)
    · cases hline : Reading.ofLine line with
      | undecodable fault =>
        have hserves : Serves (max + 1) pending ([] ++ [line]) (.failed (.undecodable fault)) :=
          .failed (by simp) hline (Nat.succ_pos max)
        simp only [pullFrom, hline]
        refine ⟨[line], rfl, hserves, ?_⟩
        simp [malformedIn, hline, Reading.isMalformed]
      | blank =>
        obtain ⟨consumed, hpending, hserves, hskipped⟩ := ih (max + 1) (read + 1) skipped
        simp only [pullFrom, hline]
        refine ⟨line :: consumed, congrArg (line :: ·) hpending, ?_, ?_⟩
        · have hd : Reading.IsDecodable line := fun _ h => by simp [hline] at h
          exact hserves.pass (Nat.succ_pos max) hd (by rw [hline]; rfl)
        · rw [hskipped, malformedIn_cons, hline]
          simp [Reading.isMalformed]
      | malformed fault =>
        obtain ⟨consumed, hpending, hserves, hskipped⟩ := ih (max + 1) (read + 1) (skipped + 1)
        simp only [pullFrom, hline]
        refine ⟨line :: consumed, congrArg (line :: ·) hpending, ?_, ?_⟩
        · have hd : Reading.IsDecodable line := fun _ h => by simp [hline] at h
          exact hserves.pass (Nat.succ_pos max) hd (by rw [hline]; rfl)
        · rw [hskipped, malformedIn_cons, hline]
          simp [Reading.isMalformed, Nat.add_assoc]
      | transfer t =>
        obtain ⟨consumed, hpending, hserves, hskipped⟩ := ih max (read + 1) skipped
        simp only [pullFrom, hline, prepend_source]
        refine ⟨line :: consumed, congrArg (line :: ·) hpending, hserves.prepend hline, ?_⟩
        rw [hskipped, malformedIn_cons, hline]
        simp [Reading.isMalformed]

/-- What a request takes of the transfers, and what it leaves. -/
theorem pullFrom_spec {pending : List (List UInt8)} (h : ∀ line ∈ pending, Reading.IsDecodable line)
    (max read skipped : ℕ) :
    (pullFrom max pending read skipped).supply = .batch ((transfersIn pending).take max) ∧
      transfersIn (pullFrom max pending read skipped).source.pending =
        (transfersIn pending).drop max ∧
      ∀ line ∈ (pullFrom max pending read skipped).source.pending, Reading.IsDecodable line := by
  obtain ⟨consumed, hpending, hserves, -⟩ := pullFrom_serves max pending read skipped
  generalize pullFrom max pending read skipped = p at hpending hserves ⊢
  have hrest : ∀ line ∈ p.source.pending, Reading.IsDecodable line := fun line hline =>
    h line (hpending ▸ List.mem_append_right _ hline)
  generalize p.supply = supply at hserves ⊢
  cases hserves with
  | batch decodable fits all _ =>
    rw [hpending, transfersIn_append]
    rcases Nat.lt_or_eq_of_le fits with hlt | rfl
    · have hnil : transfersIn p.source.pending = [] := by
        rw [all hlt]
        rfl
      rw [hnil, List.append_nil, List.take_of_length_le fits, List.drop_of_length_le fits]
      exact ⟨rfl, rfl, hrest⟩
    · rw [List.take_left, List.drop_left]
      exact ⟨rfl, rfl, hrest⟩
  | @failed front line fault _ undecodable _ =>
    have hline : line ∈ pending := by simp [hpending]
    exact absurd undecodable (h line hline fault)

theorem length_transfersIn_le (pending : List (List UInt8)) :
    (transfersIn pending).length ≤ pending.length :=
  List.length_filterMap_le _ _

instance : LawfulSource Lines where
  remaining s := transfersIn s.pending
  IsSound s := ∀ line ∈ s.pending, Reading.IsDecodable line
  supply_eq hs max := (pullFrom_spec hs max _ _).1
  source_spec hs max := (pullFrom_spec hs max _ _).2
  length_lt_bound s := Nat.lt_succ_of_le (length_transfersIn_le s.pending)

/-- Text leaves nothing behind that fails a request. -/
theorem isSound_ofBytes {bytes : List UInt8} (h : IsText bytes) :
    LawfulSource.IsSound (ofBytes bytes) := by
  intro line hline
  obtain ⟨text, rfl⟩ := h line hline
  exact Reading.isDecodable_encode text

end Lines

end TransferLedger
