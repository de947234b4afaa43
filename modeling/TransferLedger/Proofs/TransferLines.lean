import Mathlib.Tactic
import TransferLedger.Proofs.HandedOut
import TransferLedger.Proofs.Intake
import TransferLedger.Proofs.LineAccount
import TransferLedger.Proofs.RecordText

/-!
# Transfers written on lines

Transfers are written one on a line, with either ending and with blank lines anywhere, and a source
of lines hands them out again, whatever the size of a batch is.

* `LawfulSource.handedOut_drain`: requests of one size hand out all that is left;
* `splitLines_line`, `splitLines_last`: the first line of a text, and the last one;
* `WrittenOn`: the texts that hold some transfers, each on a line of its own;
* `WrittenOn.lines`: these are the transfers in the lines of such a text;
* `Transfer.texts_read_back`: a transfer, and a list of them, is read back from its text.
-/

namespace TransferLedger

/-! ### Requests of one size -/

/-- The batches have room for all transfers. -/
theorem le_batchCount_mul {size : ℕ} (hsize : 0 < size) (n : ℕ) : n ≤ batchCount size n * size := by
  have hdiv := Nat.div_add_mod (n + size - 1) size
  have hmod := Nat.mod_lt (n + size - 1) hsize
  rw [batchCount, Nat.mul_comm]
  omega

namespace LawfulSource

variable {σ : Type} [Source σ] [LawfulSource σ] {s : σ} {size : ℕ}

/-- Each request takes its share from the front. -/
theorem remaining_behind (hs : IsSound s) (size n : ℕ) :
    remaining (Source.behind size n s) = (remaining s).drop (n * size) ∧
      IsSound (Source.behind size n s) := by
  induction n generalizing s with
  | zero =>
    rw [Nat.zero_mul]
    exact ⟨rfl, hs⟩
  | succ n ih =>
    obtain ⟨hleft, hsound⟩ := source_spec hs size
    obtain ⟨hdrop, hnext⟩ := ih hsound
    refine ⟨?_, hnext⟩
    rw [Source.behind, hdrop, hleft, List.drop_drop, Nat.succ_mul, Nat.add_comm]

/-- What a request answers behind others of its size. -/
theorem answer_eq (hs : IsSound s) (size n : ℕ) :
    Source.answer size n s = .batch (((remaining s).drop (n * size)).take size) := by
  obtain ⟨hdrop, hsound⟩ := remaining_behind hs size n
  rw [Source.answer, supply_eq hsound, hdrop]

/-- As many requests as the transfers need hand out all of them, in their order. -/
theorem handedOut_drain (hs : IsSound s) (hsize : 0 < size) :
    let batches := Source.handedOut size (batchCount size (remaining s).length) s
    batches.flatten = remaining s ∧ batches.length = batchCount size (remaining s).length := by
  -- The induction is on the number of requests, the last of which leaves nothing.
  generalize hn : batchCount size (remaining s).length = n
  induction n generalizing s with
  | zero =>
    have hnil : remaining s = [] := by
      by_contra hne
      rw [batchCount_of_pos hsize (List.length_pos_of_ne_nil hne)] at hn
      omega
    exact ⟨hnil.symm, rfl⟩
  | succ n ih =>
    have hne : remaining s ≠ [] := by
      intro hnil
      rw [hnil, List.length_nil, batchCount_zero] at hn
      omega
    have htake : (remaining s).take size ≠ [] := by
      rw [Ne, List.take_eq_nil_iff, not_or]
      exact ⟨hsize.ne', hne⟩
    obtain ⟨hleft, hsound⟩ := source_spec hs size
    rw [batchCount_of_pos hsize (List.length_pos_of_ne_nil hne)] at hn
    obtain ⟨hflatten, hlength⟩ := ih hsound (by
      rw [hleft, List.length_drop]
      exact Nat.succ.inj hn)
    rw [Source.handedOut_succ_of_batch (supply_eq hs size) htake]
    refine ⟨?_, ?_⟩
    · rw [List.flatten_cons, hflatten, hleft, List.take_append_drop]
    · rw [List.length_cons, hlength]

end LawfulSource

/-! ### Lines of a text -/

open Text.Utf8

/-- The first line of a text. -/
theorem splitLines_line {line : List Char} (h : '\n' ∉ line) (s : List Char) :
    splitLines (encode (line ++ '\n' :: s)) =
      encode (dropReturn line) :: splitLines (encode s) := by
  rw [encode_append, encode_cons, splitLines, splitLinesFrom_append (newline_not_mem_encode h),
    List.append_nil, ← chomp_encode]
  rfl

/-- A last line without a newline. -/
theorem splitLines_last {line : List Char} (h : '\n' ∉ line) :
    splitLines (encode line) = if encode line = [] then [] else [encode line] := by
  have hsplit := splitLinesFrom_append (newline_not_mem_encode h) [] []
  rw [List.append_nil, List.append_nil] at hsplit
  simp [splitLines, hsplit, splitLinesFrom]

theorem Reading.ofLine_of_blank {line : List Char} (h : ∀ c ∈ line, Text.isBlank c = true) :
    ofLine (encode line) = .blank := by
  rw [ofLine, decode_encode]
  simp [Text.trim_eq_nil_iff.2 h]

/-- What an object opens and closes with is no blank. -/
theorem Transfer.trim_toJson (t : Transfer) : Text.trim t.toJson = t.toJson := by
  refine Text.trim_eq_self ?_ ?_
  · rintro c ⟨⟩
    decide
  · intro c hc
    rw [toJson, Json.object, List.getLast?_concat, Option.mem_some_iff] at hc
    subst hc
    decide

theorem Transfer.toJson_ne_nil (t : Transfer) : t.toJson ≠ [] := List.cons_ne_nil _ _

theorem Reading.ofLine_toJson (t : Transfer) : ofLine (encode t.toJson) = .transfer t := by
  rw [ofLine, decode_encode]
  simp [t.trim_toJson, t.toJson_ne_nil, t.ofJson_toJson]

theorem Transfer.newline_not_mem_toJson (t : Transfer) : '\n' ∉ t.toJson := fun h =>
  absurd (t.isPrintable_toJson _ h) (by decide)

theorem Transfer.dropReturn_toJson (t : Transfer) : dropReturn t.toJson = t.toJson :=
  if_neg fun h => absurd (t.isPrintable_toJson _ (List.mem_of_getLast? h)) (by decide)

theorem dropReturn_concat (s : List Char) : dropReturn (s ++ ['\r']) = s := by
  rw [dropReturn, if_pos List.getLast?_concat, List.dropLast_concat]

theorem mem_of_mem_dropReturn {s : List Char} {c : Char} (h : c ∈ dropReturn s) : c ∈ s := by
  unfold dropReturn at h
  split at h
  · exact List.mem_of_mem_dropLast h
  · exact h

/-! ### Transfers on lines -/

/-- A text holds some transfers, each on a line of its own, and otherwise blank lines. A line ends
in a newline, which a carriage return may stand before; the last one may lack its ending. -/
inductive WrittenOn : List Transfer → List Char → Prop
  | nil : WrittenOn [] []
  | line {t : Transfer} {ts : List Transfer} {ending s : List Char}
      (either : ending = ['\n'] ∨ ending = ['\r', '\n']) (rest : WrittenOn ts s) :
      WrittenOn (t :: ts) (t.toJson ++ ending ++ s)
  | blank {ts : List Transfer} {line s : List Char} (blank : ∀ c ∈ line, Text.isBlank c = true)
      (newline : '\n' ∉ line) (rest : WrittenOn ts s) : WrittenOn ts (line ++ '\n' :: s)
  | lastLine (t : Transfer) : WrittenOn [t] t.toJson
  | lastBlank {line : List Char} (blank : ∀ c ∈ line, Text.isBlank c = true)
      (newline : '\n' ∉ line) : WrittenOn [] line

namespace WrittenOn

open Lines

/-- A transfer and the lines behind it. -/
theorem lines_cons {t : Transfer} {ts : List Transfer} {line : List UInt8}
    {pending : List (List UInt8)} (h : Reading.ofLine line = .transfer t)
    (ih : transfersIn pending = ts ∧ malformedIn pending = 0) :
    transfersIn (line :: pending) = t :: ts ∧ malformedIn (line :: pending) = 0 := by
  rw [transfersIn_cons, malformedIn_cons, h, ih.1, ih.2]
  exact ⟨rfl, rfl⟩

/-- A blank line makes no difference. -/
theorem lines_blank {ts : List Transfer} {line : List UInt8} {pending : List (List UInt8)}
    (h : Reading.ofLine line = .blank) (ih : transfersIn pending = ts ∧ malformedIn pending = 0) :
    transfersIn (line :: pending) = ts ∧ malformedIn (line :: pending) = 0 := by
  rw [transfersIn_cons, malformedIn_cons, h, ih.1, ih.2]
  exact ⟨rfl, rfl⟩

/-- The transfers are those in the lines of the text, and every other line is blank. -/
theorem lines {ts : List Transfer} {s : List Char} (h : WrittenOn ts s) :
    transfersIn (splitLines (encode s)) = ts ∧ malformedIn (splitLines (encode s)) = 0 := by
  induction h with
  | nil => exact ⟨rfl, rfl⟩
  | @line t ts ending s either _ ih =>
    rcases either with rfl | rfl
    · rw [List.append_assoc, List.singleton_append, splitLines_line t.newline_not_mem_toJson,
        t.dropReturn_toJson]
      exact lines_cons (Reading.ofLine_toJson t) ih
    · have hnewline : '\n' ∉ t.toJson ++ ['\r'] := by
        simpa using t.newline_not_mem_toJson
      have htext : t.toJson ++ ['\r', '\n'] ++ s = t.toJson ++ ['\r'] ++ '\n' :: s := by simp
      rw [htext, splitLines_line hnewline, dropReturn_concat]
      exact lines_cons (Reading.ofLine_toJson t) ih
  | blank blank newline _ ih =>
    rw [splitLines_line newline]
    exact lines_blank (Reading.ofLine_of_blank fun c hc => blank c (mem_of_mem_dropReturn hc)) ih
  | lastLine t =>
    rw [splitLines_last t.newline_not_mem_toJson]
    split
    · rename_i hnil
      have hread := Reading.ofLine_toJson t
      rw [hnil] at hread
      cases hread
    · exact lines_cons (Reading.ofLine_toJson t) ⟨rfl, rfl⟩
  | lastBlank blank newline =>
    rw [splitLines_last newline]
    split
    · exact ⟨rfl, rfl⟩
    · exact lines_blank (Reading.ofLine_of_blank blank) ⟨rfl, rfl⟩

/-- No request skips a line. -/
theorem skipped_behind {ts : List Transfer} {s : List Char} (h : WrittenOn ts s) (size n : ℕ) :
    (Source.behind size n (ofBytes (encode s))).skipped = 0 := by
  have hbehind : ∀ lines : Lines,
      Source.behind size n lines = after (List.replicate n size) lines := by
    induction n with
    | zero => exact fun _ => rfl
    | succ n ih => exact fun lines => ih _
  obtain ⟨before, hbefore, hskipped⟩ := after_spec (List.replicate n size) (ofBytes (encode s))
  have hzero := h.lines.2
  change splitLines (encode s) = _ at hbefore
  rw [hbefore, malformedIn, List.countP_append, ← malformedIn] at hzero
  rw [hbehind, hskipped, show malformedIn before = 0 by omega]
  rfl

end WrittenOn

/-- **Texts of transfers read back.** White space around the text of a transfer makes no difference,
different transfers have different texts, and whatever text a transfer is read from, its own text
reads back as well. A list of transfers that is written on lines is handed out again by requests of
any one size, with nothing skipped; all later requests bring nothing. -/
theorem Transfer.texts_read_back :
    (∀ (t : Transfer) (front behind : List Char), (∀ c ∈ front, Json.isSpace c = true) →
      (∀ c ∈ behind, Json.isSpace c = true) → ofJson (front ++ t.toJson ++ behind) = .ok t) ∧
    Function.Injective toJson ∧
    (∀ (text : List Char) (t : Transfer), ofJson text = .ok t →
      ofJson t.toJson = ofJson text) ∧
    ∀ (ts : List Transfer) (text : List Char), WrittenOn ts text → ∀ max : ℕ, 1 ≤ max →
      let source := Lines.ofBytes (encode text)
      let requests := batchCount max ts.length
      (Source.handedOut max requests source).flatten = ts ∧
        (Source.handedOut max requests source).length = requests ∧
        (∀ n, requests ≤ n → Source.answer max n source = .batch []) ∧
        ∀ n, (Source.behind max n source).skipped = 0 := by
  refine ⟨ofJson_spaced, ?_, ?_, ?_⟩
  · intro a b h
    have hread := a.ofJson_toJson
    rw [h, b.ofJson_toJson] at hread
    exact (Except.ok.inj hread).symm
  · intro text t h
    rw [t.ofJson_toJson, h]
  · intro ts text h max hmax source requests
    have hsound := Lines.isSound_ofBytes (isText_encode text)
    have hremaining : LawfulSource.remaining source = ts := h.lines.1
    obtain ⟨hflatten, hlength⟩ := LawfulSource.handedOut_drain hsound hmax
    rw [hremaining] at hflatten hlength
    refine ⟨hflatten, hlength, fun n hn => ?_, h.skipped_behind max⟩
    have hle : ts.length ≤ n * max :=
      (le_batchCount_mul hmax ts.length).trans (Nat.mul_le_mul_right max hn)
    rw [LawfulSource.answer_eq hsound, hremaining, List.drop_of_length_le hle, List.take_nil]

/-- A large number, a negative amount and a receiver that is the sender, on lines of both endings
with a blank one between them and no newline at the end. -/
theorem Transfer.texts_read_back_on_sample :
    let t := sampleTransfer 18446744073709551615 (-(10 ^ 40))
    let u := { sampleTransfer 2 6 with receiver := some (sampleTransfer 2 6).sender }
    let text := t.toJson ++ ['\r', '\n'] ++ ([' ', '\t'] ++ '\n' :: u.toJson)
    ofJson ([' ', '\n'] ++ t.toJson ++ ['\t', '\r']) = .ok t ∧ WrittenOn [t, u] text ∧
      (Source.handedOut 1 2 (Lines.ofBytes (encode text))).flatten = [t, u] ∧
      (Source.behind 1 3 (Lines.ofBytes (encode text))).skipped = 0 := by
  intro t u text
  obtain ⟨hread, -, -, hlines⟩ := Transfer.texts_read_back
  have htext : WrittenOn [t, u] text :=
    .line (.inr rfl) (.blank (List.all_eq_true.1 rfl) (by decide) (.lastLine u))
  have hrequests : batchCount 1 [t, u].length = 2 := by simp [batchCount]
  obtain ⟨hflatten, -, -, hskipped⟩ := hlines [t, u] text htext 1 le_rfl
  rw [hrequests] at hflatten
  have hspaced := hread t [' ', '\n'] ['\t', '\r'] (List.all_eq_true.1 rfl) (List.all_eq_true.1 rfl)
  exact ⟨hspaced, htext, hflatten, hskipped 3⟩

end TransferLedger
