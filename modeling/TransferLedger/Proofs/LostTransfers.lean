import Mathlib.Tactic
import TransferLedger.Proofs.LineAccount

/-!
# Transfers that failing requests lose

A request that fails at a line that is not UTF-8 hands out nothing, and the next one goes on behind
that line. So what the failing request had read before is lost.

* `Supply.transfers`, `Lines.handed`: what an answer brings, and what some requests bring together;
* `Lines.Loses`, `Lines.LosesNone`: a request reads transfers and then fails, and no request does;
* `Lines.exists_lost`: what is left splits into what a request brings, loses and leaves;
* `Lines.handed_eq_transfers_iff`: when requests up to the end bring all transfers;
* `Lines.handed_ne_transfers`: two lines with a byte between them that is not UTF-8.
-/

namespace TransferLedger

open Text.Utf8

/-- The transfers that an answer brings. -/
def Supply.transfers : Supply → List Transfer
  | .batch ts => ts
  | _ => []

namespace Lines

/-- The transfers that requests of these sizes bring. -/
def handed : List ℕ → Lines → List Transfer
  | [], _ => []
  | max :: sizes, s =>
    (Source.pull max s).supply.transfers ++ handed sizes (Source.pull max s).source

/-- A request reads some transfers, and then comes to a line that is not UTF-8 while there is
room. -/
def Loses (max : ℕ) (s : Lines) : Prop :=
  ∃ front line behind, s.pending = front ++ line :: behind ∧
    (∀ l ∈ front, Reading.IsDecodable l) ∧ ¬Reading.IsDecodable line ∧
    transfersIn front ≠ [] ∧ (transfersIn front).length < max

/-- None of these requests loses anything. -/
def LosesNone : List ℕ → Lines → Prop
  | [], _ => True
  | max :: sizes, s => ¬Loses max s ∧ LosesNone sizes (Source.pull max s).source

/-! ### One request -/

/-- The first line that is not UTF-8 is behind all those that can be read before it. -/
theorem eq_of_first_undecodable {front front' behind behind' : List (List UInt8)}
    {line line' : List UInt8} (heq : front ++ line :: behind = front' ++ line' :: behind')
    (hfront : ∀ l ∈ front, Reading.IsDecodable l) (hline : ¬Reading.IsDecodable line)
    (hfront' : ∀ l ∈ front', Reading.IsDecodable l) (hline' : ¬Reading.IsDecodable line') :
    front = front' := by
  rcases List.append_eq_append_iff.1 heq with ⟨more, rfl, hmore⟩ | ⟨more, rfl, hmore⟩
  · cases more with
    | nil => rw [List.append_nil]
    | cons l more =>
      obtain ⟨rfl, -⟩ := List.cons.inj hmore
      exact absurd (hfront' line (by simp)) hline
  · cases more with
    | nil => rw [List.append_nil]
    | cons l more =>
      obtain ⟨rfl, -⟩ := List.cons.inj hmore
      exact absurd (hfront line' (by simp)) hline'

/-- A request consumes lines from the front of those that are left. -/
theorem pull_serves (max : ℕ) (s : Lines) :
    ∃ consumed, s.pending = consumed ++ (Source.pull max s).source.pending ∧
      Serves max (Source.pull max s).source.pending consumed (Source.pull max s).supply := by
  obtain ⟨consumed, hpending, hserves, -⟩ := pullFrom_serves max s.pending s.read s.skipped
  exact ⟨consumed, hpending, hserves⟩

/-- A request that brings nothing, though it may, finds no transfer in the lines that are left. -/
theorem transfersIn_eq_nil_of_empty {max : ℕ} (hmax : 0 < max) {s : Lines}
    (h : (Source.pull max s).supply = .batch []) : transfersIn s.pending = [] := by
  obtain ⟨consumed, hpending, hserves⟩ := pull_serves max s
  rw [hpending]
  rcases hserves.empty_iff.1 h with rfl | hlines
  · exact absurd hmax (Nat.lt_irrefl 0)
  · exact List.filterMap_eq_nil_iff.2 fun line hline => (hlines line hline).2

/-- Of the transfers that are left, a request brings the first and leaves the last; those between
them are lost. -/
theorem exists_lost (max : ℕ) (s : Lines) :
    ∃ lost, transfersIn s.pending = (Source.pull max s).supply.transfers ++
        (lost ++ transfersIn (Source.pull max s).source.pending) ∧
      (lost = [] ↔ ¬Loses max s) := by
  obtain ⟨consumed, hpending, hserves⟩ := pull_serves max s
  have hfails := hserves.failed_iff
  rw [← hpending] at hfails
  generalize (Source.pull max s).source.pending = rest at hpending hserves ⊢
  generalize (Source.pull max s).supply = supply at hserves hfails ⊢
  cases hserves with
  | batch =>
    refine ⟨[], by rw [hpending, transfersIn_append]; rfl, iff_of_true rfl ?_⟩
    rintro ⟨front, line, behind, heq, hfront, hline, -, hroom⟩
    obtain ⟨error, herror⟩ := hfails.2 ⟨front, line, behind, heq, hfront, hline, hroom⟩
    cases herror
  | @failed front line fault decodable undecodable room =>
    have hline : ¬Reading.IsDecodable line := fun h => h fault undecodable
    have hnone : (Reading.ofLine line).transfer? = none := by rw [undecodable]; rfl
    have hsplit : s.pending = front ++ line :: rest := by simpa using hpending
    refine ⟨transfersIn front, ?_, ?_⟩
    · rw [hsplit, transfersIn_append, transfersIn_cons, hnone]
      rfl
    · constructor
      · rintro hempty ⟨front', line', behind, heq, hfront', hline', hsome, -⟩
        obtain rfl := eq_of_first_undecodable (hsplit ▸ heq) decodable hline hfront' hline'
        exact hsome hempty
      · intro hkept
        by_contra hsome
        exact hkept ⟨front, line, rest, hsplit, decodable, hline, hsome, room⟩

/-! ### Any requests -/

/-- What requests bring, with what they leave, is all that there was, in order, but for what they
lose. -/
theorem handed_spec (sizes : List ℕ) (s : Lines) :
    (handed sizes s ++ transfersIn (after sizes s).pending).Sublist (transfersIn s.pending) ∧
      (handed sizes s ++ transfersIn (after sizes s).pending = transfersIn s.pending ↔
        LosesNone sizes s) := by
  induction sizes generalizing s with
  | nil => exact ⟨List.Sublist.refl _, iff_of_true rfl trivial⟩
  | cons max sizes ih =>
    obtain ⟨lost, hsplit, hlost⟩ := exists_lost max s
    obtain ⟨hsub, heq⟩ := ih (Source.pull max s).source
    have hafter : after (max :: sizes) s = after sizes (Source.pull max s).source := rfl
    rw [hsplit, handed, hafter, List.append_assoc, LosesNone, ← hlost, ← heq,
      List.append_cancel_left_eq, List.append_sublist_append_left]
    refine ⟨hsub.trans (List.sublist_append_right lost _), ⟨fun hall => ?_, ?_⟩⟩
    · -- What is brought and left later is no longer than what is left now.
      have hlength := hsub.length_le
      rw [hall, List.length_append] at hlength
      obtain rfl := List.eq_nil_of_length_eq_zero (by omega : lost.length = 0)
      exact ⟨rfl, hall⟩
    · rintro ⟨rfl, hall⟩
      exact hall

/-- A request for no more than one transfer has read none when it fails. -/
theorem not_loses_of_le_one {max : ℕ} (h : max ≤ 1) (s : Lines) : ¬Loses max s := by
  rintro ⟨front, line, behind, -, -, -, hsome, hroom⟩
  exact hsome (List.eq_nil_of_length_eq_zero (by omega))

theorem losesNone_of_le_one {sizes : List ℕ} (h : ∀ max ∈ sizes, max ≤ 1) (s : Lines) :
    LosesNone sizes s := by
  induction sizes generalizing s with
  | nil => trivial
  | cons max sizes ih =>
    obtain ⟨hmax, hsizes⟩ := List.forall_mem_cons.1 h
    exact ⟨not_loses_of_le_one hmax s, ih hsizes _⟩

/-- Where all lines can be read nothing is lost. -/
theorem losesNone_of_isSound {s : Lines} (h : LawfulSource.IsSound s) (sizes : List ℕ) :
    LosesNone sizes s := by
  induction sizes generalizing s with
  | nil => trivial
  | cons max sizes ih =>
    refine ⟨?_, ih (LawfulSource.source_spec h max).2⟩
    rintro ⟨front, line, behind, heq, -, hline, -⟩
    exact hline (h line (by rw [heq]; simp))

/-- **Only what a failing request had read is lost.** When requests have come to the end, they have
brought transfers of the bytes in order, and all of them exactly when none of the requests had read
a transfer before it failed. So nothing is lost of text, whatever its lines hold, or when one
transfer is asked for at a time. -/
theorem handed_eq_transfers_iff (bytes : List UInt8) (sizes : List ℕ) {last : ℕ} (hlast : 0 < last)
    (hend : (Source.pull last (after sizes (ofBytes bytes))).supply = .batch []) :
    (handed sizes (ofBytes bytes)).Sublist (transfers bytes) ∧
      (handed sizes (ofBytes bytes) = transfers bytes ↔ LosesNone sizes (ofBytes bytes)) ∧
      (IsText bytes → handed sizes (ofBytes bytes) = transfers bytes) ∧
      ((∀ max ∈ sizes, max ≤ 1) → handed sizes (ofBytes bytes) = transfers bytes) := by
  obtain ⟨hsub, heq⟩ := handed_spec sizes (ofBytes bytes)
  rw [transfersIn_eq_nil_of_empty hlast hend, List.append_nil] at hsub heq
  exact ⟨hsub, heq, fun h => heq.2 (losesNone_of_isSound (isSound_ofBytes h) sizes),
    fun h => heq.2 (losesNone_of_le_one h _)⟩

/-- Between the lines of two transfers stands one that is not UTF-8, and behind them one that is no
object. The second request fails before it has read anything, so nothing is lost. -/
theorem handed_eq_transfers_of_sample :
    let bytes := encode (sampleTransfer 1 5).toJson ++ [0x0a, 0xff, 0x0a] ++
      encode (sampleTransfer 2 6).toJson ++ [0x0a, 0x7b, 0x0a]
    let sizes := [1, 3, 1]
    0 < 2 ∧ (Source.pull 2 (after sizes (ofBytes bytes))).supply = .batch [] ∧
      LosesNone sizes (ofBytes bytes) ∧
      handed sizes (ofBytes bytes) = [sampleTransfer 1 5, sampleTransfer 2 6] := by
  intro bytes sizes
  have hend : (Source.pull 2 (after sizes (ofBytes bytes))).supply = .batch [] := by decide +kernel
  have hhanded : handed sizes (ofBytes bytes) = [sampleTransfer 1 5, sampleTransfer 2 6] := by
    decide +kernel
  have htransfers : transfers bytes = [sampleTransfer 1 5, sampleTransfer 2 6] := by
    decide +kernel
  obtain ⟨-, heq, -, -⟩ := handed_eq_transfers_iff bytes sizes (by decide : 0 < 2) hend
  exact ⟨by decide, hend, heq.1 (hhanded.trans htransfers.symm), hhanded⟩

/-- The first of two transfers is lost when both are asked for at once, though the line that cannot
be read holds neither. -/
theorem handed_ne_transfers :
    let bytes := encode (sampleTransfer 1 5).toJson ++ [0x0a, 0xff, 0x0a] ++
      encode (sampleTransfer 2 6).toJson
    (Source.pull 2 (after [2, 2] (ofBytes bytes))).supply = .batch [] ∧
      transfers bytes = [sampleTransfer 1 5, sampleTransfer 2 6] ∧
      handed [2, 2] (ofBytes bytes) = [sampleTransfer 2 6] ∧
      handed [2, 2] (ofBytes bytes) ≠ transfers bytes := by
  decide +kernel

end Lines

end TransferLedger
