import Mathlib.Tactic
import TransferLedger.Proofs.JsonText

/-!
# Which strings are read

Between its quotes a string may hold any characters but quotes, backslashes and control characters,
and escapes. An escape with four digits stands for a character, or for one half of a surrogate pair;
a string is read when its halves are paired.

* `Json.Writes`, `Json.IsContent`: what may stand between the quotes, piece by piece;
* `Json.WritesChar`, `Json.Spells`: the text that it stands for, character by character;
* `Json.skipText_of_isContent`: a string is passed over whether its halves are paired or not;
* `Json.readText_eq_ok_iff`: a string is read as the text that its content spells.
-/

namespace TransferLedger.Json

/-! ### What a string may hold -/

/-- A hexadecimal digit in either case, and its value. -/
def IsHexDigit (c : Char) (v : ℕ) : Prop :=
  v < 16 ∧ (c = Nat.digitChar v ∨ c = (Nat.digitChar v).toUpper)

instance (c : Char) (v : ℕ) : Decidable (IsHexDigit c v) := inferInstanceAs (Decidable (_ ∧ _))

/-- Four hexadecimal digits write a number. -/
def WritesUnit (a b c d : Char) (n : ℕ) : Prop :=
  ∃ i j k l, IsHexDigit a i ∧ IsHexDigit b j ∧ IsHexDigit c k ∧ IsHexDigit d l ∧
    n = ((i * 16 + j) * 16 + k) * 16 + l

/-- The letters that stand behind a backslash, with what they stand for. -/
def shortEscapes : List (Char × Char) :=
  [('"', '"'), ('\\', '\\'), ('/', '/'), ('b', '\x08'), ('f', '\x0c'), ('n', '\n'), ('r', '\r'),
    ('t', '\t')]

/-- A character that stands for itself: neither a control character nor a quote or a backslash. -/
def IsPlain (c : Char) : Prop := 0x20 ≤ c.toNat ∧ c ≠ '"' ∧ c ≠ '\\'

/-- The characters that a piece of a string is written with. -/
inductive Writes : List Char → Piece → Prop
  | close : Writes ['"'] .close
  | plain {c : Char} (hc : IsPlain c) : Writes [c] (.char c)
  | short {e d : Char} (known : (e, d) ∈ shortEscapes) : Writes ['\\', e] (.char d)
  | unit {a b c d : Char} {n : ℕ} (digits : WritesUnit a b c d n) :
      Writes ['\\', 'u', a, b, c, d] (.unit n)

/-- What may stand between the quotes of a string: pieces that do not close it. -/
inductive IsContent : List Char → Prop
  | nil : IsContent []
  | cons {w s : List Char} {p : Piece} (first : Writes w p) (inside : p ≠ .close)
      (rest : IsContent s) : IsContent (w ++ s)

/-- What a character is written with: the character or an escape with one letter, the four digits
of its number, or two numbers of four digits, one from each half of the surrogates. -/
inductive WritesChar : List Char → Char → Prop
  | char {w : List Char} {c : Char} (h : Writes w (.char c)) : WritesChar w c
  | unit {w : List Char} {n : ℕ} (h : Writes w (.unit n)) (single : n < 0xd800 ∨ 0xdfff < n) :
      WritesChar w (Char.ofNat n)
  | pair {w v : List Char} {n m : ℕ} (h : Writes w (.unit n)) (lead : 0xd800 ≤ n ∧ n ≤ 0xdbff)
      (h' : Writes v (.unit m)) (trail : 0xdc00 ≤ m ∧ m ≤ 0xdfff) :
      WritesChar (w ++ v) (Char.ofNat ((n - 0xd800) * 0x400 + (m - 0xdc00) + 0x10000))

/-- The text that stands between the quotes, and the text that it stands for. -/
inductive Spells : List Char → List Char → Prop
  | nil : Spells [] []
  | cons {w s t : List Char} {c : Char} (first : WritesChar w c) (rest : Spells s t) :
      Spells (w ++ s) (c :: t)

/-- What stands for a text may stand between quotes. -/
theorem Spells.isContent {s t : List Char} (h : Spells s t) : IsContent s := by
  induction h with
  | nil => exact .nil
  | cons first _ ih =>
    cases first with
    | char h => exact .cons h nofun ih
    | unit h _ => exact .cons h nofun ih
    | pair h _ h' _ =>
      rw [List.append_assoc]
      exact .cons h nofun (.cons h' nofun ih)

/-! ### Pieces -/

theorem hexDigit?_eq_some_iff {c : Char} {v : ℕ} : hexDigit? c = some v ↔ IsHexDigit c v := by
  constructor
  · intro h
    have hsmall : c.toNat < 128 := by
      have hle : ∀ d : Char, d.toNat < 128 → c ≤ d → c.toNat < 128 := fun d hd hc =>
        Nat.lt_of_le_of_lt (UInt32.le_iff_toNat_le.1 hc) hd
      unfold hexDigit? at h
      split_ifs at h with h₁ h₂ h₃
      · exact hle '9' (by decide) (by simpa using (Bool.and_eq_true_iff.1 h₁).2)
      · exact hle 'f' (by decide) (by simpa using (Bool.and_eq_true_iff.1 h₂).2)
      · exact hle 'F' (by decide) (by simpa using (Bool.and_eq_true_iff.1 h₃).2)
    have key : ∀ n < 128, (hexDigit? (Char.ofNat n)).all
        (fun v => IsHexDigit (Char.ofNat n) v) = true := by decide +kernel
    have := key c.toNat hsmall
    rw [Char.ofNat_toNat, h] at this
    simpa using this
  · rintro ⟨hv, hc⟩
    have key : ∀ v < 16, hexDigit? (Nat.digitChar v) = some v ∧
        hexDigit? (Nat.digitChar v).toUpper = some v := by decide +kernel
    rcases hc with rfl | rfl
    · exact (key v hv).1
    · exact (key v hv).2

theorem hexDigits?_eq_some_iff {a b c d : Char} {n : ℕ} :
    hexDigits? a b c d = some n ↔ WritesUnit a b c d n := by
  simp only [hexDigits?, WritesUnit, ← hexDigit?_eq_some_iff, Option.bind_eq_bind,
    Option.bind_eq_some_iff, Option.pure_def, Option.some.injEq]
  constructor
  · rintro ⟨i, hi, j, hj, k, hk, l, hl, rfl⟩
    exact ⟨i, j, k, l, hi, hj, hk, hl, rfl⟩
  · rintro ⟨i, j, k, l, hi, hj, hk, hl, rfl⟩
    exact ⟨i, hi, j, hj, k, hk, l, hl, rfl⟩

theorem shortEscape?_eq_some_iff {e d : Char} :
    shortEscape? e = some d ↔ (e, d) ∈ shortEscapes := by
  unfold shortEscape?
  split <;> simp_all [shortEscapes, eq_comm]

/-- Four digits at the front are read, and nothing else. -/
theorem readUnit_eq_ok_iff {s r : List Char} {n : ℕ} :
    readUnit s = .ok (n, r) ↔ ∃ a b c d, s = a :: b :: c :: d :: r ∧ WritesUnit a b c d n := by
  constructor
  · intro h
    unfold readUnit at h
    split at h
    · rename_i a b c d r'
      split at h
      · rename_i m hm
        obtain ⟨rfl, rfl⟩ := Prod.mk.inj (Except.ok.inj h)
        exact ⟨a, b, c, d, rfl, hexDigits?_eq_some_iff.1 hm⟩
      · cases h
    · cases h
  · rintro ⟨a, b, c, d, rfl, h⟩
    rw [readUnit, hexDigits?_eq_some_iff.2 h]

/-- A piece is read from the characters that it is written with. -/
theorem readPiece_of_writes {w : List Char} {p : Piece} (h : Writes w p) (r : List Char) :
    readPiece (w ++ r) = .ok (p, r) := by
  cases h with
  | close => simp [readPiece]
  | @plain c hc =>
    obtain ⟨hc, hquote, hbackslash⟩ := hc
    simp only [List.singleton_append, readPiece, if_neg hquote, if_neg hbackslash,
      if_neg (Nat.not_lt.2 hc)]
  | @short e d known =>
    have hu : e ≠ 'u' := by
      rintro rfl
      exact absurd known (by simp [shortEscapes])
    simp [readPiece, hu, shortEscape?_eq_some_iff.2 known]
  | @unit a b c d n digits =>
    have hunit : readUnit (a :: b :: c :: d :: r) = .ok (n, r) :=
      readUnit_eq_ok_iff.2 ⟨a, b, c, d, rfl, digits⟩
    simp [readPiece, hunit]

/-- A piece that is read was written at the front. -/
theorem writes_of_readPiece {s r : List Char} {p : Piece} (h : readPiece s = .ok (p, r)) :
    ∃ w, Writes w p ∧ s = w ++ r := by
  obtain _ | ⟨c, s⟩ := s
  · cases h
  by_cases hquote : c = '"'
  · subst hquote
    obtain ⟨rfl, rfl⟩ : .close = p ∧ s = r := by simpa [readPiece] using h
    exact ⟨_, .close, rfl⟩
  by_cases hbackslash : c = '\\'
  · subst hbackslash
    obtain _ | ⟨e, s⟩ := s
    · cases h
    by_cases hu : e = 'u'
    · subst hu
      cases hunit : readUnit s with
      | error f => simp [readPiece, hunit] at h
      | ok found =>
        obtain ⟨n, r'⟩ := found
        obtain ⟨rfl, rfl⟩ : .unit n = p ∧ r' = r := by simpa [readPiece, hunit] using h
        obtain ⟨a, b, c, d, rfl, digits⟩ := readUnit_eq_ok_iff.1 hunit
        exact ⟨_, .unit digits, rfl⟩
    · cases hshort : shortEscape? e with
      | none => simp [readPiece, hu, hshort] at h
      | some d =>
        obtain ⟨rfl, rfl⟩ : .char d = p ∧ s = r := by simpa [readPiece, hu, hshort] using h
        exact ⟨_, .short (shortEscape?_eq_some_iff.1 hshort), rfl⟩
  · simp only [readPiece, if_neg hquote, if_neg hbackslash] at h
    split_ifs at h with hcontrol
    obtain ⟨rfl, rfl⟩ := Prod.mk.inj (Except.ok.inj h)
    exact ⟨_, .plain ⟨Nat.not_lt.1 hcontrol, hquote, hbackslash⟩, rfl⟩

/-! ### Characters -/

theorem isLead_iff {n : ℕ} : isLead n = true ↔ 0xd800 ≤ n ∧ n ≤ 0xdbff := by
  rw [isLead, Bool.and_eq_true, decide_eq_true_eq, decide_eq_true_eq]

theorem isTrail_iff {n : ℕ} : isTrail n = true ↔ 0xdc00 ≤ n ∧ n ≤ 0xdfff := by
  rw [isTrail, Bool.and_eq_true, decide_eq_true_eq, decide_eq_true_eq]

/-- The second half of a pair is read from the digits of its number. -/
theorem readTrail_eq_ok_iff {lead : ℕ} {s r : List Char} {c : Char} :
    readTrail lead s = .ok (c, r) ↔ ∃ w m, Writes w (.unit m) ∧ (0xdc00 ≤ m ∧ m ≤ 0xdfff) ∧
      c = Char.ofNat ((lead - 0xd800) * 0x400 + (m - 0xdc00) + 0x10000) ∧ s = w ++ r := by
  constructor
  · intro h
    unfold readTrail at h
    split at h
    · cases h
    split_ifs at h with hbackslash
    subst hbackslash
    split at h
    · cases h
    split_ifs at h with hu
    subst hu
    split at h
    · rename_i n r' hunit
      split_ifs at h with htrail
      obtain ⟨rfl, rfl⟩ := Prod.mk.inj (Except.ok.inj h)
      obtain ⟨a, b, c, d, rfl, digits⟩ := readUnit_eq_ok_iff.1 hunit
      exact ⟨_, n, .unit digits, isTrail_iff.1 htrail, rfl, rfl⟩
    · cases h
  · rintro ⟨_, m, hm, htrail, hc, rfl⟩
    cases hm with
    | @unit i j k l _ digits =>
      have hunit : readUnit (i :: j :: k :: l :: r) = .ok (m, r) :=
        readUnit_eq_ok_iff.2 ⟨i, j, k, l, rfl, digits⟩
      rw [hc]
      simp [readTrail, hunit, isTrail_iff.2 htrail]

/-- What is read as a character writes it. -/
theorem writesChar_of_readChar {s r : List Char} {c : Char} (h : readChar s = .ok (some c, r)) :
    ∃ w, WritesChar w c ∧ s = w ++ r := by
  unfold readChar at h
  split at h
  · cases h
  · cases h
  · rename_i c' r' hpiece
    obtain ⟨rfl, rfl⟩ : c' = c ∧ r' = r := by simpa using h
    obtain ⟨w, hw, rfl⟩ := writes_of_readPiece hpiece
    exact ⟨w, .char hw, rfl⟩
  · rename_i n r' hpiece
    obtain ⟨w, hw, rfl⟩ := writes_of_readPiece hpiece
    split_ifs at h with htrail hlead
    · split at h
      · rename_i c' r'' hpair
        obtain ⟨rfl, rfl⟩ : c' = c ∧ r'' = r := by simpa using h
        obtain ⟨v, m, hv, hm, hc, rfl⟩ := readTrail_eq_ok_iff.1 hpair
        rw [hc]
        exact ⟨w ++ v, .pair hw (isLead_iff.1 hlead) hv hm, (List.append_assoc ..).symm⟩
      · cases h
    · obtain ⟨rfl, rfl⟩ : Char.ofNat n = c ∧ r' = r := by simpa using h
      refine ⟨w, .unit hw ?_, rfl⟩
      rw [isTrail_iff] at htrail
      rw [isLead_iff] at hlead
      omega

/-- And what writes a character is read as it. -/
theorem readChar_of_writesChar {w : List Char} {c : Char} (h : WritesChar w c) (r : List Char) :
    readChar (w ++ r) = .ok (some c, r) := by
  cases h with
  | char h => rw [readChar, readPiece_of_writes h]
  | @unit _ n h single =>
    have htrail : ¬isTrail n = true := by
      rw [isTrail_iff]
      omega
    have hlead : ¬isLead n = true := by
      rw [isLead_iff]
      omega
    simp only [readChar, readPiece_of_writes h, if_neg htrail, if_neg hlead]
  | @pair w v n m h lead h' trail =>
    have htrail : ¬isTrail n = true := by
      rw [isTrail_iff]
      omega
    have hpair : readTrail n (v ++ r) = .ok (_, r) :=
      readTrail_eq_ok_iff.2 ⟨v, m, h', trail, rfl, rfl⟩
    simp only [readChar, List.append_assoc, readPiece_of_writes h, if_neg htrail,
      if_pos (isLead_iff.2 lead), hpair]

/-- A character is read from what it is written with. -/
theorem readChar_eq_some_iff {s r : List Char} {c : Char} :
    readChar s = .ok (some c, r) ↔ ∃ w, WritesChar w c ∧ s = w ++ r := by
  constructor
  · exact writesChar_of_readChar
  · rintro ⟨w, hw, rfl⟩
    exact readChar_of_writesChar hw r

/-- The end of a string is read from a quote. -/
theorem readChar_eq_none_iff {s r : List Char} : readChar s = .ok (none, r) ↔ s = '"' :: r := by
  constructor
  · intro h
    unfold readChar at h
    split at h
    · cases h
    · rename_i r' hpiece
      obtain rfl : r' = r := by simpa using h
      obtain ⟨_, hw, rfl⟩ := writes_of_readPiece hpiece
      cases hw
      rfl
    · cases h
    · split_ifs at h
      · split at h <;> cases h
      · cases h
  · rintro rfl
    have hclose : readPiece ('"' :: r) = .ok (.close, r) := readPiece_of_writes .close r
    rw [readChar, hclose]

/-! ### Strings -/

/-- A piece takes a character at least. -/
theorem Writes.length_pos {w : List Char} {p : Piece} (h : Writes w p) : 0 < w.length := by
  cases h <;> simp

theorem WritesChar.length_pos {w : List Char} {c : Char} (h : WritesChar w c) : 0 < w.length := by
  cases h with
  | char h | unit h => exact h.length_pos
  | pair h =>
    rw [List.length_append]
    exact Nat.lt_of_lt_of_le h.length_pos (Nat.le_add_right ..)

theorem skipTextFrom_of_isContent {s : List Char} (h : IsContent s) (r : List Char) {turns : ℕ}
    (hturns : s.length < turns) : skipTextFrom turns (s ++ '"' :: r) = .ok r := by
  induction h generalizing turns with
  | nil =>
    obtain ⟨turns, rfl⟩ := Nat.exists_eq_add_of_lt hturns
    have hclose : readPiece ('"' :: r) = .ok (.close, r) := readPiece_of_writes .close r
    rw [List.nil_append, skipTextFrom, hclose]
  | @cons w s p first inside _ ih =>
    obtain _ | turns := turns
    · exact absurd hturns (Nat.not_lt_zero _)
    · have hpos := first.length_pos
      rw [List.length_append] at hturns
      have hrest := @ih turns (by omega)
      rw [List.append_assoc, skipTextFrom, readPiece_of_writes first]
      cases p with
      | close => exact absurd rfl inside
      | char c => exact hrest
      | unit n => exact hrest

/-- A string is passed over, whether its surrogates are paired or not. -/
theorem skipText_of_isContent {s : List Char} (h : IsContent s) (r : List Char) :
    skipText (s ++ '"' :: r) = .ok r :=
  skipTextFrom_of_isContent h r (by simp)

/-- Only one quote closes a string. -/
theorem IsContent.append_quote_inj {s s' r r' : List Char} (h : IsContent s) (h' : IsContent s')
    (heq : s ++ '"' :: r = s' ++ '"' :: r') : s = s' ∧ r = r' := by
  have hskip := skipText_of_isContent h r
  rw [heq, skipText_of_isContent h' r'] at hskip
  obtain rfl := Except.ok.inj hskip
  exact ⟨List.append_cancel_right heq, rfl⟩

theorem readTextFrom_of_spells {s t : List Char} (h : Spells s t) (done r : List Char) {turns : ℕ}
    (hturns : s.length < turns) :
    readTextFrom turns done (s ++ '"' :: r) = .ok (done.reverse ++ t, r) := by
  induction h generalizing turns done with
  | nil =>
    obtain ⟨turns, rfl⟩ := Nat.exists_eq_add_of_lt hturns
    simp [readTextFrom, readChar_eq_none_iff.2 rfl]
  | @cons w s t c first _ ih =>
    obtain _ | turns := turns
    · exact absurd hturns (Nat.not_lt_zero _)
    · have hpos := first.length_pos
      rw [List.length_append] at hturns
      rw [List.append_assoc, readTextFrom, readChar_eq_some_iff.2 ⟨w, first, rfl⟩]
      simp only [@ih (c :: done) turns (by omega), List.reverse_cons, List.append_assoc,
        List.singleton_append]

theorem spells_of_readTextFrom {turns : ℕ} {done x u r : List Char}
    (h : readTextFrom turns done x = .ok (u, r)) :
    ∃ s t, Spells s t ∧ u = done.reverse ++ t ∧ x = s ++ '"' :: r := by
  induction turns generalizing done x with
  | zero => cases h
  | succ turns ih =>
    rw [readTextFrom] at h
    split at h
    · cases h
    · rename_i r' hclose
      obtain ⟨rfl, rfl⟩ := Prod.mk.inj (Except.ok.inj h)
      exact ⟨[], [], .nil, by simp, readChar_eq_none_iff.1 hclose⟩
    · rename_i c r' hchar
      obtain ⟨w, hw, rfl⟩ := readChar_eq_some_iff.1 hchar
      obtain ⟨s, t, hs, rfl, rfl⟩ := ih h
      exact ⟨w ++ s, c :: t, .cons hw hs, by simp, (List.append_assoc ..).symm⟩

/-- A string is read as the text that stands up to its closing quote. -/
theorem readText_eq_ok_iff {x t r : List Char} :
    readText x = .ok (t, r) ↔ ∃ s, Spells s t ∧ x = s ++ '"' :: r := by
  constructor
  · intro h
    obtain ⟨s, t', hs, rfl, rfl⟩ := spells_of_readTextFrom h
    exact ⟨s, hs, rfl⟩
  · rintro ⟨s, hs, rfl⟩
    exact readTextFrom_of_spells hs [] r (by simp)

/-- A string with given content is read as the text that its content spells, if there is one. -/
theorem readText_append_iff {s t r r' : List Char} (h : IsContent s) :
    readText (s ++ '"' :: r) = .ok (t, r') ↔ r' = r ∧ Spells s t := by
  rw [readText_eq_ok_iff]
  constructor
  · rintro ⟨s', hs', heq⟩
    obtain ⟨rfl, rfl⟩ := h.append_quote_inj hs'.isContent heq
    exact ⟨rfl, hs'⟩
  · rintro ⟨rfl, hs⟩
    exact ⟨s, hs, rfl⟩

/-- A content spells one text at most. -/
theorem Spells.unique {s t t' : List Char} (h : Spells s t) (h' : Spells s t') : t = t' := by
  have hread := (readText_append_iff (r := []) h.isContent).2 ⟨rfl, h⟩
  rw [(readText_append_iff h'.isContent).2 ⟨rfl, h'⟩] at hread
  exact (Prod.mk.inj (Except.ok.inj hread)).1.symm

/-- What a string spells is told by reading it up to its closing quote. -/
theorem readText_quote_iff {s t : List Char} :
    readText (s ++ ['"']) = .ok (t, []) ↔ Spells s t := by
  rw [readText_eq_ok_iff]
  constructor
  · rintro ⟨s', hs', heq⟩
    rwa [List.append_cancel_right heq]
  · exact fun hs => ⟨s, hs, rfl⟩

instance : DecidableRel Spells := fun _ _ => decidable_of_iff _ readText_quote_iff

end TransferLedger.Json
