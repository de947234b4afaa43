import Mathlib.Tactic
import TransferLedger.Proofs.Storable
import TransferLedger.Proofs.TextLines

/-!
# An account of all lines

However many transfers are asked for, and how often: each line is consumed once, in order, and what
it amounts to shows in the answer of the request that consumes it, or in how many lines are skipped.

* `exists_segments_behind`: the lines are what stands between newlines;
* `Reading.Tells`, `Reading.tells_ofLine`: what a line amounts to, in terms of its text;
* `Lines.after`: the lines behind some requests;
* `Lines.Serves.failed_iff`, `Lines.Serves.empty_iff`: which requests fail and which hand out
  nothing;
* `Lines.account_of_requests`: the account after any requests.
-/

namespace TransferLedger

open Text.Utf8

/-! ### Segments -/

/-- Bytes behind the start of a line are cut behind every newline. -/
theorem exists_segments_behind {start : List UInt8} (hstart : 0x0a ∉ start) (bytes : List UInt8) :
    ∃ closed last, start.reverse ++ bytes = closed.flatMap (· ++ [0x0a]) ++ last ∧
      (∀ segment ∈ last :: closed, 0x0a ∉ segment) ∧
      splitLinesFrom start bytes =
        (closed.map fun segment => chomp segment.reverse) ++ if last = [] then [] else [last] := by
  induction bytes generalizing start with
  | nil =>
    refine ⟨[], start.reverse, by simp, by simpa using hstart, ?_⟩
    simp [splitLinesFrom]
  | cons b bytes ih =>
    by_cases hb : b = 0x0a
    · subst hb
      have hempty : 0x0a ∉ ([] : List UInt8) := List.not_mem_nil
      obtain ⟨closed, last, hbytes, hfree, hlines⟩ := ih hempty
      refine ⟨start.reverse :: closed, last, ?_, ?_, ?_⟩
      · simpa using hbytes
      · intro segment hs
        rcases List.mem_cons.1 hs with rfl | hs
        · exact hfree _ List.mem_cons_self
        · rcases List.mem_cons.1 hs with rfl | hs
          · simpa using hstart
          · exact hfree _ (List.mem_cons_of_mem _ hs)
      · rw [splitLinesFrom, if_pos rfl, hlines]
        simp
    · have hmore : 0x0a ∉ b :: start := by
        rw [List.mem_cons, not_or]
        exact ⟨Ne.symm hb, hstart⟩
      obtain ⟨closed, last, hbytes, hfree, hlines⟩ := ih hmore
      refine ⟨closed, last, ?_, hfree, ?_⟩
      · rw [← hbytes, List.reverse_cons, List.append_assoc, List.singleton_append]
      · rw [splitLinesFrom, if_neg hb, hlines]

/-! ### What lines tell -/

/-- Blanks alone leave nothing. -/
theorem Text.trim_eq_nil_iff {s : List Char} : trim s = [] ↔ ∀ c ∈ s, isBlank c = true := by
  constructor
  · intro h
    have hrest : ∀ c ∈ s.dropWhile isBlank, isBlank c = true := by
      rw [trim, trimBy, List.reverse_eq_nil_iff, List.dropWhile_eq_nil_iff] at h
      simpa using h
    cases hs : s.dropWhile isBlank with
    | nil => exact List.dropWhile_eq_nil_iff.1 hs
    | cons c r =>
      -- What is left begins with a mark, if there is anything.
      have hmark : isBlank c = false := by simpa [hs] using List.head?_dropWhile_not isBlank s
      rw [hrest c (by simp [hs])] at hmark
      cases hmark
  · intro h
    simp [trim, trimBy, List.dropWhile_eq_nil_iff.2 h]

/-- A blank at the end goes with the others. -/
theorem Text.trim_concat {c : Char} (hc : isBlank c = true) (s : List Char) :
    trim (s ++ [c]) = trim s := by
  by_cases hs : s.dropWhile isBlank = []
  · have hall := List.dropWhile_eq_nil_iff.1 hs
    rw [trim_eq_nil_iff.2 hall, trim_eq_nil_iff]
    intro d hd
    rcases List.mem_append.1 hd with hd | hd
    · exact hall d hd
    · rw [List.mem_singleton.1 hd, hc]
  · have hdrop : (s ++ [c]).dropWhile isBlank = s.dropWhile isBlank ++ [c] := by
      rw [List.dropWhile_append, if_neg (by simpa using hs)]
    rw [trim, trimBy, hdrop, List.reverse_concat, List.dropWhile_cons_of_pos hc]
    rfl

/-- At most a carriage return is taken off. -/
theorem chomp_cases (segment : List UInt8) :
    chomp segment.reverse = segment ∨ chomp segment.reverse ++ [0x0d] = segment := by
  rcases List.eq_nil_or_concat' segment with rfl | ⟨front, b, rfl⟩
  · exact .inl rfl
  · by_cases hb : b = 0x0d
    · subst hb
      rw [List.reverse_concat, chomp, if_pos rfl, List.reverse_reverse]
      exact .inr rfl
    · exact .inl (chomp_concat hb front)

namespace Reading

/-- What a line amounts to, told by the text that it encodes, if it does. -/
inductive Tells : List UInt8 → Reading → Prop
  | undecodable {line : List UInt8} {fault : Fault} (other : ∀ text, encode text ≠ line) :
      Tells line (.undecodable fault)
  | blank {text : List Char} (blank : ∀ c ∈ text, Text.isBlank c = true) :
      Tells (encode text) .blank
  | malformed {text : List Char} {fault : Json.Fault} (mark : ∃ c ∈ text, Text.isBlank c = false)
      (json : Transfer.ofJson (Text.trim text) = .error fault) :
      Tells (encode text) (.malformed fault)
  | transfer {text : List Char} {t : Transfer} (mark : ∃ c ∈ text, Text.isBlank c = false)
      (json : Transfer.ofJson (Text.trim text) = .ok t) : Tells (encode text) (.transfer t)

theorem tells_ofLine (line : List UInt8) : Tells line (ofLine line) := by
  unfold ofLine
  split
  · rename_i fault hfault
    refine .undecodable fun text h => ?_
    rw [← h, decode_encode] at hfault
    cases hfault
  · rename_i text htext
    rw [← encode_of_decode htext]
    dsimp only
    split
    · rename_i hblank
      exact .blank (Text.trim_eq_nil_iff.1 (List.isEmpty_iff.1 hblank))
    · rename_i hmark
      have hsome : ∃ c ∈ text, Text.isBlank c = false := by
        by_contra hnone
        push Not at hnone
        refine hmark (List.isEmpty_iff.2 (Text.trim_eq_nil_iff.2 ?_))
        simpa using hnone
      split
      · exact .transfer hsome ‹_›
      · exact .malformed hsome ‹_›

/-- A carriage return at the end makes no difference. -/
theorem Tells.concat_return {line : List UInt8} {reading : Reading} (h : Tells line reading) :
    Tells (line ++ [0x0d]) reading := by
  have hreturn : ∀ text, encode text ++ [0x0d] = encode (text ++ ['\r']) := fun text =>
    (encode_concat text '\r').symm
  have hblank : Text.isBlank '\r' = true := by decide
  cases h with
  | undecodable other =>
    refine .undecodable fun text htext => other (dropReturn text) ?_
    rw [← chomp_encode, htext, List.reverse_concat, chomp, if_pos rfl, List.reverse_reverse]
  | blank hall =>
    rw [hreturn]
    refine .blank fun c hc => ?_
    rcases List.mem_append.1 hc with hc | hc
    · exact hall c hc
    · rw [List.mem_singleton.1 hc, hblank]
  | malformed mark json =>
    obtain ⟨c, hc, hmark⟩ := mark
    rw [hreturn]
    refine .malformed ⟨c, List.mem_append_left _ hc, hmark⟩ ?_
    rw [Text.trim_concat hblank, json]
  | transfer mark json =>
    obtain ⟨c, hc, hmark⟩ := mark
    rw [hreturn]
    refine .transfer ⟨c, List.mem_append_left _ hc, hmark⟩ ?_
    rw [Text.trim_concat hblank, json]

/-- What is read without a carriage return is what the whole segment tells. -/
theorem tells_chomp (segment : List UInt8) : Tells segment (ofLine (chomp segment.reverse)) := by
  have h := tells_ofLine (chomp segment.reverse)
  rcases chomp_cases segment with hsame | hreturn
  · rw [hsame] at h ⊢
    exact h
  · have := h.concat_return
    rwa [hreturn] at this

end Reading

namespace Lines

/-! ### One request -/

section Serves

variable {max : ℕ} {consumed rest : List (List UInt8)} {supply : Supply}

/-- A request fails exactly when it comes to a line that is not UTF-8 while there is room. -/
theorem Serves.failed_iff (h : Serves max rest consumed supply) :
    (∃ error, supply = .failed error) ↔
      ∃ front line behind, consumed ++ rest = front ++ line :: behind ∧
        (∀ l ∈ front, Reading.IsDecodable l) ∧ ¬Reading.IsDecodable line ∧
        (transfersIn front).length < max := by
  cases h with
  | batch decodable fits all room =>
    constructor
    · rintro ⟨error, herror⟩
      cases herror
    · rintro ⟨front, line, behind, heq, -, hline, hroom⟩
      exfalso
      -- The line is among those that are left, so there is no room behind those before it.
      rcases List.append_eq_append_iff.1 heq with ⟨more, rfl, hrest⟩ | ⟨more, rfl, hcons⟩
      · rw [transfersIn_append, List.length_append] at hroom
        rw [all (by omega)] at hrest
        simp at hrest
      · cases more with
        | nil =>
          rw [List.append_nil] at all
          rw [all hroom] at hcons
          cases hcons
        | cons l more =>
          obtain ⟨rfl, -⟩ := List.cons.inj hcons
          exact hline (decodable _ (by simp))
  | @failed front line fault decodable undecodable room =>
    constructor
    · intro _
      refine ⟨front, line, rest, by simp, decodable, ?_, room⟩
      intro hline
      exact hline fault undecodable
    · intro _
      exact ⟨_, rfl⟩

/-- A request hands out nothing exactly when there is nothing to be handed out. -/
theorem Serves.empty_iff (h : Serves max rest consumed supply) :
    supply = .batch [] ↔
      max = 0 ∨ ∀ line ∈ consumed ++ rest,
        Reading.IsDecodable line ∧ (Reading.ofLine line).transfer? = none := by
  have hnil : ∀ lines, transfersIn lines = [] ↔
      ∀ line ∈ lines, (Reading.ofLine line).transfer? = none := fun lines =>
    List.filterMap_eq_nil_iff
  cases h with
  | batch decodable fits all room =>
    rw [Supply.batch.injEq]
    constructor
    · intro hempty
      by_cases hmax : max = 0
      · exact .inl hmax
      · rw [all (by rw [hempty]; exact Nat.pos_of_ne_zero hmax), List.append_nil]
        exact .inr fun line hline => ⟨decodable line hline, (hnil _).1 hempty line hline⟩
    · rintro (rfl | hlines)
      · exact List.eq_nil_of_length_eq_zero (Nat.le_zero.1 fits)
      · exact (hnil _).2 fun line hline => (hlines line (List.mem_append_left _ hline)).2
  | @failed front line fault decodable undecodable room =>
    constructor
    · intro hempty
      cases hempty
    · rintro (rfl | hlines)
      · exact absurd room (Nat.not_lt_zero _)
      · exact absurd undecodable ((hlines line (by simp)).1 fault)

theorem Serves.consumed_eq_nil (h : Serves 0 rest consumed supply) : consumed = [] := by
  cases h with
  | batch _ _ _ room =>
    cases consumed with
    | nil => rfl
    | cons line consumed => exact absurd (room [] line consumed rfl) (Nat.not_lt_zero _)
  | failed _ _ room => exact absurd room (Nat.not_lt_zero _)

end Serves

/-! ### Any requests -/

/-- The lines behind requests for these numbers of transfers. -/
def after (earlier : List ℕ) (s : Lines) : Lines :=
  earlier.foldl (fun s max => (Source.pull max s).source) s

/-- Requests consume lines from the front, and count those that they skip. -/
theorem after_spec (earlier : List ℕ) (s : Lines) :
    ∃ before, s.pending = before ++ (after earlier s).pending ∧
      (after earlier s).skipped = s.skipped + malformedIn before := by
  induction earlier generalizing s with
  | nil => exact ⟨[], rfl, rfl⟩
  | cons max earlier ih =>
    obtain ⟨consumed, hpending, -, hskipped⟩ := pullFrom_serves max s.pending s.read s.skipped
    obtain ⟨before, hbefore, hlater⟩ := ih (Source.pull max s).source
    change (Source.pull max s).source.skipped = _ at hskipped
    change s.pending = consumed ++ (Source.pull max s).source.pending at hpending
    refine ⟨consumed ++ before, ?_, ?_⟩
    · rw [hpending, hbefore, List.append_assoc]
      rfl
    · rw [malformedIn, List.countP_append, ← Nat.add_assoc]
      exact hlater.trans (congrArg (· + malformedIn before) hskipped)

/-- **Every line is accounted for.** The lines are the segments of the bytes that end in a newline,
and a last one that does not; each tells what its text says, with or without a carriage return at
its end. Whatever requests came earlier, a request consumes the lines that come next. It hands out
the transfers in them, never more than it may, and fewer only when no line is left, or it fails at a
line that is not UTF-8 and goes behind it. The number of skipped lines is that of all malformed
lines so far. -/
theorem account_of_requests (bytes : List UInt8) (earlier : List ℕ) (max : ℕ) :
    (∃ closed last, bytes = closed.flatMap (· ++ [0x0a]) ++ last ∧
      (∀ segment ∈ last :: closed, 0x0a ∉ segment) ∧
      splitLines bytes =
        (closed.map fun segment => chomp segment.reverse) ++ (if last = [] then [] else [last]) ∧
      (∀ segment ∈ closed, Reading.Tells segment (Reading.ofLine (chomp segment.reverse))) ∧
      Reading.Tells last (Reading.ofLine last)) ∧
    let s := after earlier (ofBytes bytes)
    let p := Source.pull max s
    (∃ before consumed, splitLines bytes = before ++ consumed ++ p.source.pending ∧
      s.pending = consumed ++ p.source.pending ∧
      s.skipped = malformedIn before ∧ p.source.skipped = malformedIn (before ++ consumed) ∧
      Serves max p.source.pending consumed p.supply ∧ (max = 0 → consumed = [])) ∧
    ((∃ error, p.supply = .failed error) ↔
      ∃ front line behind, s.pending = front ++ line :: behind ∧
        (∀ l ∈ front, Reading.IsDecodable l) ∧ ¬Reading.IsDecodable line ∧
        (transfersIn front).length < max) ∧
    (p.supply = .batch [] ↔
      max = 0 ∨ ∀ line ∈ s.pending,
        Reading.IsDecodable line ∧ (Reading.ofLine line).transfer? = none) := by
  constructor
  · have hempty : 0x0a ∉ ([] : List UInt8) := List.not_mem_nil
    obtain ⟨closed, last, hbytes, hfree, hlines⟩ := exists_segments_behind hempty bytes
    exact ⟨closed, last, hbytes, hfree, hlines, fun segment _ => Reading.tells_chomp segment,
      Reading.tells_ofLine last⟩
  · intro s p
    obtain ⟨before, hbefore, hskipped⟩ := after_spec earlier (ofBytes bytes)
    obtain ⟨consumed, hpending, hserves, hcounted⟩ :=
      pullFrom_serves max s.pending s.read s.skipped
    change s.pending = consumed ++ p.source.pending at hpending
    change Serves max p.source.pending consumed p.supply at hserves
    change p.source.skipped = s.skipped + malformedIn consumed at hcounted
    change splitLines bytes = before ++ s.pending at hbefore
    change s.skipped = 0 + malformedIn before at hskipped
    rw [Nat.zero_add] at hskipped
    refine ⟨⟨before, consumed, ?_, hpending, hskipped, ?_, hserves, ?_⟩, ?_, ?_⟩
    · rw [hbefore, hpending, List.append_assoc]
    · rw [hcounted, hskipped, malformedIn, malformedIn, malformedIn, List.countP_append]
    · rintro rfl
      exact hserves.consumed_eq_nil
    · rw [hpending]
      exact hserves.failed_iff
    · rw [hpending]
      exact hserves.empty_iff

/-- Behind the first of two transfers stand a malformed line, a blank one and one that is not
UTF-8. -/
theorem account_of_sample :
    let bytes := encode (sampleTransfer 1 5).toJson ++ [0x0d, 0x0a] ++ encode "none".toList ++
      [0x0a, 0x20, 0x0a, 0xff, 0x0a] ++ encode (sampleTransfer 2 6).toJson
    let s := after [0, 1] (ofBytes bytes)
    let p := Source.pull 2 s
    (∃ front line behind, s.pending = front ++ line :: behind ∧
      (∀ l ∈ front, Reading.IsDecodable l) ∧ ¬Reading.IsDecodable line ∧
      (transfersIn front).length < 2) ∧
      s.skipped = 0 ∧ p.source.skipped = 1 ∧
      (Source.pull 1 p.source).supply = .batch [sampleTransfer 2 6] := by
  intro bytes s p
  obtain ⟨-, -, hfailed, -⟩ := account_of_requests bytes [0, 1] 2
  have hsupply : p.supply = .failed (.undecodable ⟨0, some 1⟩) := by decide +kernel
  obtain ⟨front, line, behind, hline⟩ := hfailed.1 ⟨_, hsupply⟩
  refine ⟨⟨front, line, behind, hline⟩, ?_, ?_, ?_⟩
  · decide +kernel
  · decide +kernel
  · decide +kernel

end Lines

end TransferLedger
