import Mathlib.Tactic
import TransferLedger.Proofs.LostTransfers
import TransferLedger.Proofs.Turn

/-!
# Runs that read everything

A worker that asks for some transfers at a time reads the lines of its input one after another. It
fails, or it reads them to the end.

* `Lines.Reads`, `Lines.pull_reads`: the lines that are read by a request, none of which fails it;
* `Worker.ReadsAll`, `Worker.runFrom_reads`: a run reads everything, or it fails;
* `Worker.ReadsToEnd`, `Worker.run_reads`: the same from the start of some bytes.
-/

namespace TransferLedger

/-! ### Lines -/

namespace Lines

/-- Some lines are read between two states of a source. All of them are text, and counted. -/
structure Reads (s t : Lines) (consumed : List (List UInt8)) : Prop where
  pending : s.pending = consumed ++ t.pending
  decodable : ∀ line ∈ consumed, Reading.IsDecodable line
  read : t.read = s.read + consumed.length
  skipped : t.skipped = s.skipped + malformedIn consumed

variable {s t u : Lines} {front behind : List (List UInt8)}

theorem Reads.refl (s : Lines) : Reads s s [] where
  pending := rfl
  decodable := by simp
  read := rfl
  skipped := rfl

theorem Reads.trans (h : Reads s t front) (h' : Reads t u behind) : Reads s u (front ++ behind) where
  pending := by rw [h.pending, h'.pending, List.append_assoc]
  decodable := List.forall_mem_append.2 ⟨h.decodable, h'.decodable⟩
  read := by rw [h'.read, h.read, List.length_append, Nat.add_assoc]
  skipped := by
    rw [h'.skipped, h.skipped, malformedIn, malformedIn, malformedIn, List.countP_append,
      Nat.add_assoc]

theorem supply_of_prepend {t : Transfer} {p : Pull Lines} {batch : List Transfer}
    (h : (prepend t p).supply = .batch batch) : ∃ ts, p.supply = .batch ts := by
  unfold prepend at h
  split at h
  · exact ⟨_, ‹_›⟩
  · exact ⟨_, h⟩

/-- A request that hands out a batch has counted every line that it consumed. -/
theorem read_of_batch {max : ℕ} {pending : List (List UInt8)} {read skipped : ℕ}
    {batch : List Transfer} (h : (pullFrom max pending read skipped).supply = .batch batch) :
    (pullFrom max pending read skipped).source.read +
      (pullFrom max pending read skipped).source.pending.length = read + pending.length := by
  induction pending generalizing max read skipped batch with
  | nil => cases max <;> rfl
  | cons line pending ih =>
    obtain _ | max := max
    · rfl
    · cases hline : Reading.ofLine line with
      | undecodable fault =>
        simp only [pullFrom, hline] at h
        cases h
      | blank =>
        simp only [pullFrom, hline] at h ⊢
        rw [ih h, List.length_cons]
        omega
      | malformed fault =>
        simp only [pullFrom, hline] at h ⊢
        rw [ih h, List.length_cons]
        omega
      | transfer t =>
        simp only [pullFrom, hline, prepend_source] at h ⊢
        obtain ⟨ts, hts⟩ := supply_of_prepend h
        rw [ih hts, List.length_cons]
        omega

/-- A request that hands out a batch has read the lines that the batch is in, and the batch is full
unless nothing is left. -/
theorem pull_reads {max : ℕ} {batch : List Transfer}
    (h : (Source.pull max s).supply = .batch batch) :
    ∃ consumed, Reads s (Source.pull max s).source consumed ∧ batch = transfersIn consumed ∧
      (batch.length < max → (Source.pull max s).source.pending = []) := by
  have hread : (Source.pull max s).source.read + (Source.pull max s).source.pending.length =
      s.read + s.pending.length := read_of_batch h
  obtain ⟨consumed, hpending, hserves, hskipped⟩ := pullFrom_serves max s.pending s.read s.skipped
  change s.pending = consumed ++ (Source.pull max s).source.pending at hpending
  change Serves max (Source.pull max s).source.pending consumed (Source.pull max s).supply at hserves
  change (Source.pull max s).source.skipped = s.skipped + malformedIn consumed at hskipped
  rw [h] at hserves
  cases hserves with
  | batch decodable fits all room =>
    refine ⟨consumed, ⟨hpending, decodable, ?_, hskipped⟩, rfl, all⟩
    rw [hpending, List.length_append] at hread
    omega

end Lines

/-! ### Runs -/

namespace Worker

variable {τ : Type}

/-- A run from one state to another has read all lines that there were, and received what was in
them. -/
structure ReadsAll (p q : Progress Lines τ) : Prop where
  lines : p.source.Reads q.source p.source.pending
  received : q.stats.received = p.stats.received + (Lines.transfersIn p.source.pending).length

variable {p q r : Progress Lines τ}

theorem ReadsAll.pending (h : ReadsAll p q) : q.source.pending = [] := by
  simpa using h.lines.pending

theorem ReadsAll.of_nil (h : p.source.pending = []) : ReadsAll p p where
  lines := h ▸ .refl _
  received := by simp [h, Lines.transfersIn]

/-- One more batch is received in front. -/
theorem ReadsAll.cons {consumed : List (List UInt8)} (hreads : p.source.Reads q.source consumed)
    (hreceived : q.stats.received = p.stats.received + (Lines.transfersIn consumed).length)
    (h : ReadsAll q r) : ReadsAll p r where
  lines := by
    rw [hreads.pending]
    exact hreads.trans h.lines
  received := by
    rw [hreads.pending, Lines.transfersIn_append, List.length_append, h.received, hreceived,
      Nat.add_assoc]

variable [Store τ] (w : Worker) {c : Conditions}

/-- Enough turns read everything, unless one of them fails. -/
theorem runFrom_reads (hc : c.IsUndisturbed) (hsize : 0 < w.batchSize) {turns : ℕ}
    (ht : p.source.pending.length < turns) :
    (∃ error, (w.runFrom c turns p).ending = .failed error) ∨
      (w.runFrom c turns p).ending = .finished .exhausted ∧
        ReadsAll p (w.runFrom c turns p).progress := by
  -- Every batch but the last has transfers in it, so it leaves fewer lines to the turns behind it.
  induction turns generalizing p with
  | zero => exact absurd ht (Nat.not_lt_zero _)
  | succ turns ih =>
    cases hs : (Source.pull w.batchSize p.source).supply with
    | stalled =>
      obtain ⟨consumed, -, hserves⟩ := Lines.pull_serves w.batchSize p.source
      rw [hs] at hserves
      cases hserves
    | failed error =>
      obtain ⟨hending, -⟩ := w.turn_of_failure hs (hc.isQuietUntil _)
      exact .inl ⟨_, (w.runFrom_succ_of_some c turns hending).2⟩
    | batch batch =>
      obtain ⟨consumed, hreads, rfl, hall⟩ := Lines.pull_reads hs
      by_cases hne : Lines.transfersIn consumed = []
      · rw [hne] at hs hall
        obtain ⟨hending, hsource, -, hstats⟩ := w.turn_of_exhausted hs (hc.isQuietUntil _)
        obtain ⟨h1, h2⟩ := w.runFrom_succ_of_some c turns hending
        rw [← hsource] at hreads hall
        rw [h1, h2]
        refine .inr ⟨rfl, .cons hreads ?_ (.of_nil (hall hsize))⟩
        rw [hstats, hne]
        rfl
      · cases hr : (w.commitBatch (Lines.transfersIn consumed) p.store).result with
        | error error =>
          obtain ⟨hending, -⟩ := w.turn_of_refusal hs hne hr (hc.isQuietUntil _)
          exact .inl ⟨_, (w.runFrom_succ_of_some c turns hending).2⟩
        | ok n =>
          obtain ⟨hending, hsource, -, hstats, -⟩ := w.turn_of_commit hs hne hr (hc.isQuietUntil _)
          obtain ⟨h1, h2⟩ := w.runFrom_succ_of_none c turns hending
          rw [← hsource] at hreads
          have hsome : consumed ≠ [] := fun hnil => hne (by rw [hnil]; rfl)
          have hfewer : (w.turn c p).progress.source.pending.length < turns := by
            rw [hreads.pending, List.length_append] at ht
            have := List.length_pos_iff.2 hsome
            omega
          rw [h1, h2]
          refine (ih hfewer).imp id fun ⟨hend, hrest⟩ => ⟨hend, .cons hreads ?_ hrest⟩
          rw [hstats]
          rfl

/-- A run over some bytes has come to their end: every line has been read, and those that hold
transfers have been received. -/
structure ReadsToEnd (bytes : List UInt8) (run : Run Lines τ) : Prop where
  ending : run.ending = .finished .exhausted
  pending : run.progress.source.pending = []
  decodable : ∀ line ∈ splitLines bytes, Reading.IsDecodable line
  read : run.progress.source.read = (splitLines bytes).length
  skipped : run.progress.source.skipped = Lines.malformedIn (splitLines bytes)
  received : run.progress.stats.received = (Lines.transfers bytes).length

omit [Store τ] in
/-- What has been read to its end is text. -/
theorem ReadsToEnd.isText {bytes : List UInt8} {run : Run Lines τ} (h : ReadsToEnd bytes run) :
    IsText bytes :=
  fun line hline => Reading.isDecodable_iff.1 (h.decodable line hline)

/-- A worker that asks for some transfers at a time reads its input to the end, or it fails. -/
theorem run_reads (hc : c.IsUndisturbed) (hsize : 0 < w.batchSize) (bytes : List UInt8)
    (store : τ) :
    (∃ error, (w.run c (Lines.ofBytes bytes) store).ending = .failed error) ∨
      ReadsToEnd bytes (w.run c (Lines.ofBytes bytes) store) := by
  have hbound : (Lines.ofBytes bytes).pending.length < Source.bound (Lines.ofBytes bytes) :=
    Nat.lt_succ_self _
  refine (w.runFrom_reads hc hsize (p := { source := Lines.ofBytes bytes, store }) hbound).imp id ?_
  rintro ⟨hending, hall⟩
  have hread := hall.lines.read
  have hskipped := hall.lines.skipped
  have hreceived := hall.received
  dsimp only [Lines.ofBytes] at hread hskipped hreceived
  rw [Nat.zero_add] at hread hskipped hreceived
  exact ⟨hending, hall.pending, hall.lines.decodable, hread, hskipped, hreceived⟩

end Worker

end TransferLedger
