import Mathlib.Tactic
import TransferLedger.Json.Skip
import TransferLedger.Proofs.JsonGrammar

/-!
# Values are passed over

A value that no field is read from is passed over to its end, whatever it holds and however deeply
its lists and objects are nested.

* `Json.PassesOver`: some turns, not more than the text is long, take a reader behind a value;
* `Json.IsValue.passesOver`: every value is passed over in such turns;
* `Json.skipValue_of_isValue`: what follows a value that is passed over.
-/

namespace TransferLedger.Json

/-! ### Turns -/

theorem skipTurn_skipSpace (stage : Stage) (stack : List Bracket) (s : List Char) :
    skipTurn stage stack (skipSpace s) = skipTurn stage stack s := by
  rw [skipTurn, skipTurn, skipSpace_skipSpace]

/-- White space in front of a value makes no difference. -/
theorem skipFrom_value_skipSpace (turns : ℕ) (stack : List Bracket) (s : List Char) :
    skipFrom turns .value stack (skipSpace s) = skipFrom turns .value stack s := by
  cases turns with
  | zero => rfl
  | succ turns => simp only [skipFrom, skipTurn_skipSpace]

/-- A turn that a value is left for. -/
theorem skipFrom_value_succ {turns : ℕ} {stage : Stage} {stack stack' : List Bracket}
    {s r : List Char} (h : skipTurn .value stack s = .ok (stage, stack', r)) :
    skipFrom (turns + 1) .value stack s = skipFrom turns stage stack' r := by
  rw [skipFrom, h]
  exact nofun

/-- A turn inside a bracket that is open. -/
theorem skipFrom_behind_succ {turns : ℕ} {stage : Stage} {top : Bracket}
    {stack stack' : List Bracket} {s r : List Char}
    (h : skipTurn .behind (top :: stack) s = .ok (stage, stack', r)) :
    skipFrom (turns + 1) .behind (top :: stack) s = skipFrom turns stage stack' r := by
  rw [skipFrom, h]
  exact nofun

section Behind

variable {front : List Char} (hfront : IsSpacing front) (turns : ℕ) (stack : List Bracket)
  (r : List Char)

include hfront

/-- A bracket is closed behind its last item. -/
theorem skipFrom_closer (top : Bracket) :
    skipFrom (turns + 1) .behind (top :: stack) (front ++ top.closer :: r) =
      skipFrom turns .behind stack r := by
  have hspace : isSpace top.closer = false := by cases top <;> rfl
  refine skipFrom_behind_succ ?_
  rw [skipTurn, skipSpace_append hfront hspace]
  simp

/-- Behind a comma in a list stands a value. -/
theorem skipFrom_comma_list :
    skipFrom (turns + 1) .behind (.list :: stack) (front ++ ',' :: r) =
      skipFrom turns .value (.list :: stack) r := by
  refine skipFrom_behind_succ ?_
  rw [skipTurn, skipSpace_append hfront (by rfl)]
  simp [Bracket.closer]

/-- Behind a comma in an object stands a name, and then a value. -/
theorem skipFrom_comma_object {x : List Char} (h : skipName r = .ok x) :
    skipFrom (turns + 1) .behind (.object :: stack) (front ++ ',' :: r) =
      skipFrom turns .value (.object :: stack) x := by
  refine skipFrom_behind_succ ?_
  rw [skipTurn, skipSpace_append hfront (by rfl)]
  simp [Bracket.closer, h]

end Behind

/-! ### Names -/

/-- A colon is found behind white space. -/
theorem readColon_append {front : List Char} (h : IsSpacing front) (r : List Char) :
    readColon (front ++ ':' :: r) = .ok r := by
  rw [readColon, skipSpace_append h (by rfl)]
  rfl

/-- The text of a member behind its opening quote and its name. -/
theorem IsMember.exists_eq {m : List Char × List Char} {s : List Char} (h : IsMember m s) :
    ∃ front behind, IsSpacing front ∧ IsSpacing behind ∧ ∀ r,
      s ++ r = '"' :: (m.1 ++ '"' :: (front ++ ':' :: (behind ++ (m.2 ++ r)))) := by
  obtain ⟨-, front, behind, hfront, hbehind, rfl⟩ := h
  exact ⟨front, behind, hfront, hbehind, fun r => by simp⟩

/-- A member's name and its colon are passed over. -/
theorem skipName_append {front : List Char} (hfront : IsSpacing front)
    {m : List Char × List Char} {s : List Char} (h : IsMember m s) :
    ∃ behind, IsSpacing behind ∧
      ∀ r, skipName (front ++ (s ++ r)) = .ok (behind ++ (m.2 ++ r)) := by
  obtain ⟨inner, behind, hinner, hbehind, htext⟩ := h.exists_eq
  refine ⟨behind, hbehind, fun r => ?_⟩
  rw [htext, skipName, skipSpace_append hfront (by rfl)]
  simp only [if_true, skipText_of_isContent h.1, readColon_append hinner]

/-! ### Values -/

/-- Some turns, not more than the text is long, take a reader behind a value. -/
def PassesOver (v : List Char) : Prop :=
  ∃ n ≤ v.length, ∀ front r stack turns, IsSpacing front → IsBehindValue r →
    skipFrom (n + turns) .value stack (front ++ (v ++ r)) = skipFrom turns .behind stack r

/-- A value without parts takes one turn. -/
theorem passesOver_scalar {c : Char} {s : List Char} (hspace : isSpace c = false)
    (hlist : c ≠ '[') (hobject : c ≠ '\x7b')
    (h : ∀ r, IsBehindValue r → skipScalar c (s ++ r) = .ok r) : PassesOver (c :: s) := by
  refine ⟨1, by simp, fun front r stack turns hfront hr => ?_⟩
  rw [Nat.add_comm]
  refine skipFrom_value_succ ?_
  rw [List.cons_append, skipTurn, skipSpace_append hfront hspace]
  simp [hlist, hobject, h r hr]

theorem readWord_append (w r : List Char) : readWord w (w ++ r) = .ok r := by
  induction w with
  | nil => rfl
  | cons c w ih => simpa [readWord] using ih

theorem passesOver_numeral {s : List Char} (h : IsNumeral s) : PassesOver s := by
  obtain ⟨c, t, rfl, hc⟩ := h.exists_cons
  have hscalar : ∀ r, IsBehindValue r → skipScalar c (t ++ r) = .ok r := by
    intro r hr
    have hskip := skipNumber_of_isNumeral h hr
    rw [skipScalar]
    split_ifs
    iterate 4
      subst_vars
      exact absurd hc (by decide)
    exact hskip
  rcases hc with rfl | hdigit
  · exact passesOver_scalar (by rfl) (by decide) (by decide) hscalar
  · refine passesOver_scalar (isSpace_of_isDigit hdigit) ?_ ?_ hscalar
    all_goals
      rintro rfl
      exact absurd hdigit (by decide)

/-- The elements of a list are passed over, one after another, and its bracket is closed. -/
theorem passesOver_elements {vs : List (List Char)} {t : List Char} (h : Separated Eq vs t)
    (values : ∀ v ∈ vs, PassesOver v) :
    ∃ n ≤ t.length + 1, ∀ r stack turns,
      skipFrom (n + turns) .value (.list :: stack) (t ++ ']' :: r) =
        skipFrom turns .behind stack r := by
  induction h with
  | @one v front s behind hfront item hbehind =>
    subst item
    obtain ⟨n, hn, hpass⟩ := values v List.mem_cons_self
    refine ⟨n + 1, by simp; omega, fun r stack turns => ?_⟩
    have hr := hbehind.isBehindValue_append (c := ']') (by decide) r
    rw [List.append_assoc, List.append_assoc, Nat.add_assoc, hpass _ _ _ _ hfront hr, Nat.add_comm]
    exact skipFrom_closer hbehind turns stack r .list
  | @more v vs front s behind t hfront item hbehind _ ih =>
    subst item
    obtain ⟨hv, hvs⟩ := List.forall_mem_cons.1 values
    obtain ⟨n, hn, hpass⟩ := hv
    obtain ⟨k, hk, hrest⟩ := ih hvs
    refine ⟨n + (k + 1), by simp; omega, fun r stack turns => ?_⟩
    have hr := hbehind.isBehindValue_append (c := ',') (by decide) (t ++ ']' :: r)
    have hturns : k + 1 + turns = k + turns + 1 := by omega
    simp only [List.append_assoc, List.cons_append]
    rw [Nat.add_assoc, hpass _ _ _ _ hfront hr, hturns, skipFrom_comma_list hbehind, hrest]

/-- The members of an object are passed over behind the name of the first one, and its bracket is
closed. -/
theorem passesOver_members {ms : List (List Char × List Char)} {t : List Char}
    (h : Separated IsMember ms t) (values : ∀ m ∈ ms, PassesOver m.2) :
    ∃ u, (∀ r, skipName (t ++ r) = .ok (u ++ r)) ∧ ∃ n ≤ t.length, ∀ r stack turns,
      skipFrom (n + turns) .value (.object :: stack) (u ++ '\x7d' :: r) =
        skipFrom turns .behind stack r := by
  induction h with
  | @one m front s behind hfront item hbehind =>
    obtain ⟨n, hn, hpass⟩ := values m List.mem_cons_self
    obtain ⟨gap, hgap, hname⟩ := skipName_append hfront item
    obtain ⟨-, a, b, -, -, rfl⟩ := item
    refine ⟨gap ++ (m.2 ++ behind), fun r => ?_, n + 1, by simp; omega, fun r stack turns => ?_⟩
    · simpa using hname (behind ++ r)
    · have hr := hbehind.isBehindValue_append (c := '\x7d') (by decide) r
      rw [List.append_assoc, List.append_assoc, Nat.add_assoc, hpass _ _ _ _ hgap hr,
        Nat.add_comm]
      exact skipFrom_closer hbehind turns stack r .object
  | @more m ms front s behind t hfront item hbehind _ ih =>
    obtain ⟨hm, hms⟩ := List.forall_mem_cons.1 values
    obtain ⟨n, hn, hpass⟩ := hm
    obtain ⟨u, hu, k, hk, hrest⟩ := ih hms
    obtain ⟨gap, hgap, hname⟩ := skipName_append hfront item
    obtain ⟨-, a, b, -, -, rfl⟩ := item
    refine ⟨gap ++ (m.2 ++ (behind ++ ',' :: t)), fun r => ?_, n + (k + 1), by simp; omega,
      fun r stack turns => ?_⟩
    · simpa using hname (behind ++ ',' :: (t ++ r))
    · have hr := hbehind.isBehindValue_append (c := ',') (by decide) (t ++ '\x7d' :: r)
      have hturns : k + 1 + turns = k + turns + 1 := by omega
      simp only [List.append_assoc, List.cons_append]
      rw [Nat.add_assoc, hpass _ _ _ _ hgap hr, hturns,
        skipFrom_comma_object hbehind _ _ _ (hu _), hrest]

/-- Elements open with a character that is neither white space nor a closing bracket. -/
theorem Separated.skipSpace_elements {vs : List (List Char)} {t : List Char}
    (h : Separated Eq vs t) (values : ∀ v ∈ vs, IsValue v) (r : List Char) :
    ∃ c s, skipSpace (t ++ r) = c :: s ∧ c ≠ ']' := by
  obtain ⟨front, v, _, behind, rfl, hfront, hv, rfl⟩ := h.exists_first
  obtain ⟨c, s, rfl, hspace, hbracket⟩ := (values v hv).exists_cons
  refine ⟨c, s ++ (behind ++ r), ?_, hbracket⟩
  rw [List.append_assoc, List.append_assoc, List.cons_append, skipSpace_append hfront hspace]

/-- Members open with a quote. -/
theorem Separated.skipSpace_members {ms : List (List Char × List Char)} {t : List Char}
    (h : Separated IsMember ms t) (r : List Char) : ∃ s, skipSpace (t ++ r) = '"' :: s := by
  obtain ⟨front, m, _, behind, rfl, hfront, -, -, _, _, -, -, rfl⟩ := h.exists_first
  rw [List.append_assoc, List.append_assoc, List.cons_append, skipSpace_append hfront (by rfl)]
  exact ⟨_, rfl⟩

/-- A list is passed over when its elements are. -/
theorem passesOver_list {vs : List (List Char)} {t : List Char} (h : Listed Eq vs t)
    (values : ∀ v ∈ vs, IsValue v) (pass : ∀ v ∈ vs, PassesOver v) :
    PassesOver ('[' :: (t ++ [']'])) := by
  cases h with
  | empty spacing =>
    refine ⟨1, by simp, fun front r stack turns hfront _ => ?_⟩
    rw [Nat.add_comm]
    refine skipFrom_value_succ ?_
    have hclose : skipSpace (t ++ ']' :: r) = ']' :: r := skipSpace_append spacing (by rfl) r
    rw [List.cons_append, skipTurn, skipSpace_append hfront (by rfl)]
    simp [hclose]
  | items separated =>
    obtain ⟨n, hn, hpass⟩ := passesOver_elements separated pass
    refine ⟨n + 1, by simp; omega, fun front r stack turns hfront _ => ?_⟩
    obtain ⟨c, s, hskip, hbracket⟩ := separated.skipSpace_elements values (']' :: r)
    have hopen : skipTurn .value stack (front ++ ('[' :: (t ++ [']']) ++ r)) =
        .ok (.value, .list :: stack, skipSpace (t ++ ']' :: r)) := by
      rw [List.cons_append, skipTurn, skipSpace_append hfront (by rfl)]
      simp [hskip, hbracket]
    have hturns : n + 1 + turns = n + turns + 1 := by omega
    rw [hturns, skipFrom_value_succ hopen, skipFrom_value_skipSpace, hpass]

/-- An object is passed over when the values of its members are. -/
theorem passesOver_object {ms : List (List Char × List Char)} {t : List Char}
    (h : Listed IsMember ms t) (pass : ∀ m ∈ ms, PassesOver m.2) :
    PassesOver ('\x7b' :: (t ++ ['\x7d'])) := by
  cases h with
  | empty spacing =>
    refine ⟨1, by simp, fun front r stack turns hfront _ => ?_⟩
    rw [Nat.add_comm]
    refine skipFrom_value_succ ?_
    have hclose : skipSpace (t ++ '\x7d' :: r) = '\x7d' :: r :=
      skipSpace_append spacing (by rfl) r
    rw [List.cons_append, skipTurn, skipSpace_append hfront (by rfl)]
    simp [hclose]
  | items separated =>
    obtain ⟨u, hname, n, hn, hpass⟩ := passesOver_members separated pass
    refine ⟨n + 1, by simp; omega, fun front r stack turns hfront _ => ?_⟩
    obtain ⟨s, hskip⟩ := separated.skipSpace_members ('\x7d' :: r)
    have hfirst : skipName ('"' :: s) = .ok (u ++ '\x7d' :: r) := by
      rw [← hname, ← hskip, skipName, skipName, skipSpace_skipSpace]
    have hopen : skipTurn .value stack (front ++ ('\x7b' :: (t ++ ['\x7d']) ++ r)) =
        .ok (.value, .object :: stack, u ++ '\x7d' :: r) := by
      rw [List.cons_append, skipTurn, skipSpace_append hfront (by rfl)]
      simp [hskip, hfirst]
    have hturns : n + 1 + turns = n + turns + 1 := by omega
    rw [hturns, skipFrom_value_succ hopen, hpass]

/-- Every value is passed over. -/
theorem IsValue.passesOver {v : List Char} (h : IsValue v) : PassesOver v := by
  induction h with
  | null =>
    exact passesOver_scalar (by rfl) (by decide) (by decide) fun r _ => readWord_append _ r
  | yes => exact passesOver_scalar (by rfl) (by decide) (by decide) fun r _ => readWord_append _ r
  | no => exact passesOver_scalar (by rfl) (by decide) (by decide) fun r _ => readWord_append _ r
  | text content =>
    refine passesOver_scalar (by rfl) (by decide) (by decide) fun r _ => ?_
    rw [List.append_assoc]
    exact skipText_of_isContent content r
  | numeral h => exact passesOver_numeral h
  | list values listed ih => exact passesOver_list listed values ih
  | object values listed ih => exact passesOver_object listed ih

/-- **A value is passed over to its end.** White space may stand in front of it, and behind it
nothing that a numeral goes on with. -/
theorem skipValue_of_isValue {front v r : List Char} (hfront : IsSpacing front) (h : IsValue v)
    (hr : IsBehindValue r) : skipValue (front ++ (v ++ r)) = .ok r := by
  obtain ⟨n, hn, hpass⟩ := h.passesOver
  obtain ⟨turns, hturns⟩ : ∃ turns, (front ++ (v ++ r)).length + 1 = n + turns :=
    Nat.exists_eq_add_of_le (by simp; omega)
  rw [skipValue, hturns, hpass _ _ _ _ hfront hr]
  cases turns <;> rfl

end TransferLedger.Json
