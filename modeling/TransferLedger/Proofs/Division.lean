import Mathlib.Tactic
import TransferLedger.Proofs.Storable

/-!
# Screening divides a batch

Whatever the rule on amounts is, screening goes through a batch once and puts each transfer into one
of two parts, which keep its order. What it does with a transfer depends on this transfer only, so
a batch may be screened in pieces, and what has passed passes again.

* `IsMerge`: two lists merged into one, each in its order;
* `Guard.Passes`, `Guard.Excludes`: what a rule lets pass, and the first thing wrong with the rest;
* `Guard.passes_or_excludes`, `Guard.screen_cons_of_passes`, `Guard.screen_cons_of_excludes`: what
  becomes of one more transfer;
* `Guard.IsDivision`: a batch taken apart as it should be;
* `Guard.isDivision_iff`: there is one way to do so, and screening does it;
* `Guard.screen_divides`: the two parts, pieces of a batch, and screening twice.
-/

namespace TransferLedger

/-! ### Merging -/

section Merge

variable {α : Type} {xs ys zs : List α}

/-- Two lists are merged into one: each keeps its order, nothing is lost and nothing is doubled. -/
inductive IsMerge : List α → List α → List α → Prop
  | nil : IsMerge [] [] []
  | left {xs ys zs : List α} {a : α} (rest : IsMerge xs ys zs) : IsMerge (a :: xs) ys (a :: zs)
  | right {xs ys zs : List α} {a : α} (rest : IsMerge xs ys zs) : IsMerge xs (a :: ys) (a :: zs)

theorem IsMerge.perm (h : IsMerge xs ys zs) : (xs ++ ys).Perm zs := by
  induction h with
  | nil => rfl
  | left _ ih => exact ih.cons _
  | right _ ih => exact List.perm_middle.trans (ih.cons _)

theorem IsMerge.length_eq (h : IsMerge xs ys zs) : xs.length + ys.length = zs.length := by
  rw [← h.perm.length_eq, List.length_append]

/-- Lists that a test tells apart are merged in one way only. -/
theorem IsMerge.eq_filter {p : α → Bool} (h : IsMerge xs ys zs) (hx : ∀ a ∈ xs, p a = true)
    (hy : ∀ a ∈ ys, p a = false) : xs = zs.filter p ∧ ys = zs.filter fun a => !p a := by
  induction h with
  | nil => exact ⟨rfl, rfl⟩
  | left _ ih =>
    obtain ⟨ha, hx⟩ := List.forall_mem_cons.1 hx
    obtain ⟨ihx, ihy⟩ := ih hx hy
    rw [List.filter_cons_of_pos ha, List.filter_cons_of_neg (by simp [ha]), ← ihx, ← ihy]
    exact ⟨rfl, rfl⟩
  | right _ ih =>
    obtain ⟨ha, hy⟩ := List.forall_mem_cons.1 hy
    obtain ⟨ihx, ihy⟩ := ih hx hy
    rw [List.filter_cons_of_neg (by simp [ha]), List.filter_cons_of_pos (by simp [ha]), ← ihx,
      ← ihy]
    exact ⟨rfl, rfl⟩

end Merge

namespace Guard

variable {guard : Guard} {t : Transfer} {why : Exclusion} {batch : List Transfer}

/-! ### One transfer -/

/-- Nothing is wrong with a transfer: its numbers can be stored, and the rule admits its amount. -/
structure Passes (guard : Guard) (t : Transfer) : Prop where
  numbers : t.HasStoredNumbers
  amount : guard.verdict t.amount = none

instance (guard : Guard) (t : Transfer) : Decidable (guard.Passes t) :=
  decidable_of_iff (t.HasStoredNumbers ∧ guard.verdict t.amount = none)
    ⟨fun h => ⟨h.1, h.2⟩, fun h => ⟨h.numbers, h.amount⟩⟩

/-- The first thing that is wrong with a transfer: its block number, its log index, or what the rule
finds wrong with its amount. -/
inductive Excludes (guard : Guard) (t : Transfer) : Exclusion → Prop
  | blockNumber (large : storedMax < t.blockNumber.toNat) :
      Excludes guard t (.integer .blockNumber t.blockNumber)
  | logIndex (block : t.blockNumber.toNat ≤ storedMax) (large : storedMax < t.logIndex.toNat) :
      Excludes guard t (.integer .logIndex t.logIndex)
  | amount {why : Numeric.Rejection} (numbers : t.HasStoredNumbers)
      (rejected : guard.verdict t.amount = some why) : Excludes guard t (.amount why)

/-- What passes the rule of the amount column can be stored. -/
theorem passes_numeric_iff : numeric.Passes t ↔ t.IsStorable :=
  ⟨fun h => ⟨h.numbers, (Numeric.verdict_eq_none_iff t.amount).1 h.amount⟩,
    fun h => ⟨h.numbers, (Numeric.verdict_eq_none_iff t.amount).2 h.amount⟩⟩

theorem examine_of_passes (h : guard.Passes t) : guard.examine t = none := by
  rw [examine, (oversized_eq_none_iff t).2 h.numbers, h.amount]
  rfl

theorem examine_of_excludes (h : guard.Excludes t why) : guard.examine t = some why := by
  cases h with
  | blockNumber large => simp [examine, oversized, Ordinal.value, large]
  | logIndex block large =>
    simp [examine, oversized, Ordinal.value, large, Nat.not_lt_of_le block]
  | amount numbers rejected =>
    rw [examine, (oversized_eq_none_iff t).2 numbers, rejected]
    rfl

/-- A transfer passes, or there is a first thing that is wrong with it. -/
theorem passes_or_excludes (guard : Guard) (t : Transfer) :
    guard.Passes t ∨ ∃ why, guard.Excludes t why := by
  by_cases hblock : t.blockNumber.toNat ≤ storedMax
  swap
  · exact .inr ⟨_, .blockNumber (Nat.lt_of_not_le hblock)⟩
  by_cases hlog : t.logIndex.toNat ≤ storedMax
  swap
  · exact .inr ⟨_, .logIndex hblock (Nat.lt_of_not_le hlog)⟩
  cases hamount : guard.verdict t.amount with
  | none => exact .inl ⟨⟨hblock, hlog⟩, hamount⟩
  | some why => exact .inr ⟨_, .amount ⟨hblock, hlog⟩ hamount⟩

theorem Excludes.not_passes (h : guard.Excludes t why) : ¬guard.Passes t := by
  intro hpasses
  have := examine_of_excludes h
  rw [examine_of_passes hpasses] at this
  cases this

/-! ### One more transfer -/

/-- A transfer that passes goes to the front of the first part. -/
theorem screen_cons_of_passes (h : guard.Passes t) (batch : List Transfer) :
    guard.screen (t :: batch) =
      ⟨t :: (guard.screen batch).accepted, (guard.screen batch).excluded⟩ := by
  simp [screen, examine_of_passes h]

/-- Any other transfer goes to the front of the second part, with what is wrong with it. -/
theorem screen_cons_of_excludes (h : guard.Excludes t why) (batch : List Transfer) :
    guard.screen (t :: batch) =
      ⟨(guard.screen batch).accepted, ⟨t, why⟩ :: (guard.screen batch).excluded⟩ := by
  simp [screen, examine_of_excludes h]

/-! ### The whole batch -/

/-- A batch is taken apart into what passes and what is excluded, for the first thing that is wrong
with it. -/
structure IsDivision (guard : Guard) (batch : List Transfer) (s : Screened) : Prop where
  merged : IsMerge s.accepted (s.excluded.map Excluded.transfer) batch
  passes : ∀ t ∈ s.accepted, guard.Passes t
  excludes : ∀ e ∈ s.excluded, guard.Excludes e.transfer e.reason

theorem isDivision_screen (guard : Guard) (batch : List Transfer) :
    guard.IsDivision batch (guard.screen batch) := by
  induction batch with
  | nil => exact ⟨.nil, nofun, nofun⟩
  | cons t batch ih =>
    obtain ⟨merged, passes, excludes⟩ := ih
    rcases guard.passes_or_excludes t with h | ⟨why, h⟩
    · rw [screen_cons_of_passes h]
      exact ⟨merged.left, List.forall_mem_cons.2 ⟨h, passes⟩, excludes⟩
    · rw [screen_cons_of_excludes h]
      exact ⟨merged.right, passes, List.forall_mem_cons.2 ⟨h, excludes⟩⟩

/-- A batch can be taken apart in one way only. -/
theorem IsDivision.eq_screen {s : Screened} (h : guard.IsDivision batch s) :
    s = guard.screen batch := by
  obtain ⟨accepted, excluded⟩ := s
  obtain ⟨merged, passes, excludes⟩ := h
  dsimp only at merged passes excludes
  generalize htransfers : excluded.map Excluded.transfer = transfers at merged
  induction merged generalizing excluded with
  | nil =>
    rw [List.map_eq_nil_iff.1 htransfers]
    rfl
  | left _ ih =>
    obtain ⟨ht, passes⟩ := List.forall_mem_cons.1 passes
    rw [screen_cons_of_passes ht, ← ih _ passes excludes htransfers]
  | right _ ih =>
    obtain ⟨e, rest, rfl, rfl, hrest⟩ := List.map_eq_cons_iff.1 htransfers
    obtain ⟨he, excludes⟩ := List.forall_mem_cons.1 excludes
    rw [screen_cons_of_excludes he, ← ih _ passes excludes hrest]

theorem isDivision_iff {s : Screened} : guard.IsDivision batch s ↔ s = guard.screen batch :=
  ⟨IsDivision.eq_screen, fun h => h ▸ guard.isDivision_screen batch⟩

/-- The parts are what the test of a single transfer picks from the batch. -/
theorem IsDivision.eq_filter {s : Screened} (h : guard.IsDivision batch s) :
    s.accepted = batch.filter (guard.Passes ·) ∧
      s.excluded.map Excluded.transfer = batch.filter (¬guard.Passes ·) := by
  have hparts := h.merged.eq_filter (p := (guard.Passes ·))
    (fun t ht => decide_eq_true (h.passes t ht)) ?_
  · simpa using hparts
  · intro t ht
    obtain ⟨e, he, rfl⟩ := List.mem_map.1 ht
    exact decide_eq_false (h.excludes e he).not_passes

/-! ### Pieces of a batch -/

theorem screen_append (guard : Guard) (xs ys : List Transfer) :
    guard.screen (xs ++ ys) = ⟨(guard.screen xs).accepted ++ (guard.screen ys).accepted,
      (guard.screen xs).excluded ++ (guard.screen ys).excluded⟩ := by
  simp [screen]

/-- A batch may be screened in any number of pieces. -/
theorem screen_flatten (guard : Guard) (pieces : List (List Transfer)) :
    guard.screen pieces.flatten = ⟨pieces.flatMap fun p => (guard.screen p).accepted,
      pieces.flatMap fun p => (guard.screen p).excluded⟩ := by
  induction pieces with
  | nil => rfl
  | cons p pieces ih =>
    rw [List.flatten_cons, screen_append, ih]
    rfl

/-- What passes is left as it is. -/
theorem screen_of_passes (h : ∀ t ∈ batch, guard.Passes t) : guard.screen batch = ⟨batch, []⟩ := by
  induction batch with
  | nil => rfl
  | cons t batch ih =>
    obtain ⟨ht, hbatch⟩ := List.forall_mem_cons.1 h
    rw [screen_cons_of_passes ht, ih hbatch]

/-- **Screening divides a batch.** Whatever the rule on amounts is, a batch is taken apart in the one
way that there is: what passes and what is excluded merge into the batch, and what is excluded is so
for the first thing that is wrong with it. Each part is what the batch has of its kind, in order, and
no transfer is lost or doubled. A batch that is screened in pieces comes to the same parts put
together, and what has passed passes again, all of it. -/
theorem screen_divides (guard : Guard) (batch : List Transfer) :
    (∀ s, guard.IsDivision batch s ↔ s = guard.screen batch) ∧
    (guard.screen batch).accepted = batch.filter (guard.Passes ·) ∧
    (guard.screen batch).excluded.map Excluded.transfer = batch.filter (¬guard.Passes ·) ∧
    (guard.screen batch).size = batch.length ∧
    (∀ more, guard.screen (batch ++ more) =
      ⟨(guard.screen batch).accepted ++ (guard.screen more).accepted,
        (guard.screen batch).excluded ++ (guard.screen more).excluded⟩) ∧
    (∀ pieces : List (List Transfer), guard.screen pieces.flatten =
      ⟨pieces.flatMap fun p => (guard.screen p).accepted,
        pieces.flatMap fun p => (guard.screen p).excluded⟩) ∧
    guard.screen (guard.screen batch).accepted = ⟨(guard.screen batch).accepted, []⟩ := by
  have h := guard.isDivision_screen batch
  refine ⟨fun s => isDivision_iff, h.eq_filter.1, h.eq_filter.2, ?_, guard.screen_append batch,
    guard.screen_flatten, screen_of_passes h.passes⟩
  rw [Screened.size, ← h.merged.length_eq, List.length_map]

end Guard

end TransferLedger
