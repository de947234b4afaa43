import Mathlib.Tactic
import TransferLedger.Json.Form
import TransferLedger.Proofs.PassedOver

/-!
# Forms are read from any layout

What a form gathers from an object depends on its members, and neither on the white space between
them nor on how their names are spelled: a value is taken where the name is that of a field that
has none yet, and passed over where the name is that of no field. From a list, the values are taken
in the order of the fields.

* `Json.Form.ReadsBy`: a relation tells what the fields of a form take from values;
* `Json.Form.Gathers`, `Json.Form.decode_eq_ok_iff_of_isObject`: what is gathered from an object;
* `Json.Form.GathersInOrder`, `Json.Form.decode_eq_ok_iff_of_isList`: what is gathered from a list.
-/

namespace TransferLedger.Json.Form

variable {F D α : Type} {form : Form F D α} {takes : D → F → List Char → D → Prop}

/-- A relation tells what the fields of a form take from values, wherever a value stands. -/
def ReadsBy (form : Form F D α) (takes : D → F → List Char → D → Prop) : Prop :=
  ∀ d f front v r d' r', IsSpacing front → IsValue v → IsBehindValue r →
    (form.fill d f (front ++ (v ++ r)) = .ok (d', r') ↔ r' = r ∧ takes d f v d')

/-- What the members of an object fill a draft with. Every name spells a text; the value of a field
is taken when the field has none yet, and that of another name is passed over. -/
inductive Gathers (form : Form F D α) (takes : D → F → List Char → D → Prop) :
    D → List (List Char × List Char) → D → Prop
  | nil (d : D) : Gathers form takes d [] d
  | known {d d' e : D} {f : F} {name : List Char} {m : List Char × List Char}
      {ms : List (List Char × List Char)} (spells : Spells m.1 name)
      (named : form.named name = some f) (unfilled : form.filled d f = false)
      (taken : takes d f m.2 d') (rest : Gathers form takes d' ms e) :
      Gathers form takes d (m :: ms) e
  | unknown {d e : D} {name : List Char} {m : List Char × List Char}
      {ms : List (List Char × List Char)} (spells : Spells m.1 name)
      (named : form.named name = none) (rest : Gathers form takes d ms e) :
      Gathers form takes d (m :: ms) e

/-- What the elements of a list fill a draft with, one field after another. -/
inductive GathersInOrder (takes : D → F → List Char → D → Prop) :
    D → List F → List (List Char) → D → Prop
  | nil (d : D) : GathersInOrder takes d [] [] d
  | cons {d d' e : D} {f : F} {fs : List F} {v : List Char} {vs : List (List Char)}
      (taken : takes d f v d') (rest : GathersInOrder takes d' fs vs e) :
      GathersInOrder takes d (f :: fs) (v :: vs) e

/-- No members fill nothing. -/
theorem gathers_nil_iff {d e : D} : Gathers form takes d [] e ↔ d = e := by
  constructor
  · rintro ⟨⟩
    rfl
  · rintro rfl
    exact .nil d

theorem gathersInOrder_nil_iff {d e : D} : GathersInOrder takes d [] [] e ↔ d = e := by
  constructor
  · rintro ⟨⟩
    rfl
  · rintro rfl
    exact .nil d

/-- A reader that answers at once. -/
theorem ok_eq_ok_iff {d e : D} {r x : List Char} :
    (.ok (d, r) : Except Fault (D × List Char)) = .ok (e, x) ↔ x = r ∧ d = e := by
  rw [Except.ok.injEq, Prod.mk.injEq, and_comm, eq_comm (a := r)]

/-! ### Names -/

/-- The name of the first member is read when it spells a text. -/
theorem nextName_of_isMember {front s : List Char} {m : List Char × List Char}
    (hfront : IsSpacing front) (item : IsMember m s) (r : List Char) :
    ∃ inner behind, IsSpacing inner ∧ IsSpacing behind ∧ ∀ name r',
      nextName true (front ++ (s ++ r)) = .ok (some name, r') ↔
        Spells m.1 name ∧ r' = inner ++ ':' :: (behind ++ (m.2 ++ r)) := by
  obtain ⟨inner, behind, hinner, hbehind, htext⟩ := item.exists_eq
  refine ⟨inner, behind, hinner, hbehind, fun name r' => ?_⟩
  have hread : ∀ x, readText (m.1 ++ '"' :: x) = .ok (name, r') ↔ r' = x ∧ Spells m.1 name :=
    fun x => readText_append_iff item.1
  rw [htext, nextName, skipSpace_append hfront (by rfl)]
  simp only [if_true]
  rw [if_neg (by decide), And.comm, ← hread]
  cases readText (m.1 ++ '"' :: (inner ++ ':' :: (behind ++ (m.2 ++ r)))) <;> simp [Prod.ext_iff]

/-- There is a name at the front of members. -/
theorem nextName_ne_none {front s : List Char} {m : List Char × List Char}
    (hfront : IsSpacing front) (item : IsMember m s) (r r' : List Char) :
    nextName true (front ++ (s ++ r)) ≠ .ok (none, r') := by
  obtain ⟨inner, behind, -, -, htext⟩ := item.exists_eq
  rw [htext, nextName, skipSpace_append hfront (by rfl)]
  simp only [if_true]
  rw [if_neg (by decide)]
  split <;> simp

/-- Behind a comma the next name is read as if it was the first. -/
theorem nextName_comma_of_separated {ms : List (List Char × List Char)} {front t : List Char}
    (hfront : IsSpacing front) (h : Separated IsMember ms t) (r : List Char) :
    nextName false (front ++ ',' :: (t ++ r)) = nextName true (t ++ r) := by
  obtain ⟨s, hs⟩ := h.skipSpace_members r
  rw [nextName, nextName, skipSpace_append hfront (by rfl)]
  simp [hs]

/-- Behind the last member stands the closing brace. -/
theorem nextName_close {front : List Char} (hfront : IsSpacing front) (first : Bool)
    (r : List Char) : nextName first (front ++ '\x7d' :: r) = .ok (none, r) := by
  rw [nextName, skipSpace_append hfront (by rfl)]
  simp

/-! ### Members -/

theorem readMembers_congr {turns : ℕ} {first first' : Bool} {d : D} {s s' : List Char}
    (h : nextName first s = nextName first' s') :
    form.readMembers turns first d s = form.readMembers turns first' d s' := by
  cases turns with
  | zero => rfl
  | succ turns => simp only [readMembers, h]

theorem readMembers_close {front : List Char} (hfront : IsSpacing front) (turns : ℕ) (first : Bool)
    (d : D) (r : List Char) :
    form.readMembers (turns + 1) first d (front ++ '\x7d' :: r) = .ok (d, r) := by
  rw [readMembers, nextName_close hfront]

/-- What reading one member adds to reading the rest. -/
theorem readMembers_cons (hreads : form.ReadsBy takes) {front s : List Char}
    {m : List Char × List Char} {ms : List (List Char × List Char)} (hfront : IsSpacing front)
    (item : IsMember m s) (value : IsValue m.2) {r x : List Char} (hr : IsBehindValue r)
    {y : List Char} {turns : ℕ} {d e : D}
    (hrest : ∀ d, form.readMembers turns false d r = .ok (e, x) ↔
      x = y ∧ Gathers form takes d ms e) :
    form.readMembers (turns + 1) true d (front ++ (s ++ r)) = .ok (e, x) ↔
      x = y ∧ Gathers form takes d (m :: ms) e := by
  obtain ⟨inner, behind, hinner, hbehind, hname⟩ := nextName_of_isMember hfront item r
  have hcolon := readColon_append hinner (behind ++ (m.2 ++ r))
  constructor
  · intro h
    rw [readMembers] at h
    split at h
    · cases h
    · exact absurd ‹_› (nextName_ne_none hfront item _ _)
    · rename_i name r' hnext
      obtain ⟨hspells, rfl⟩ := (hname name r').1 hnext
      split at h
      · rename_i f hnamed
        split_ifs at h with hfilled
        simp only [hcolon] at h
        split at h
        · cases h
        · rename_i d' r'' hfill
          obtain ⟨rfl, taken⟩ := (hreads _ _ _ _ _ _ _ hbehind value hr).1 hfill
          obtain ⟨hx, rest⟩ := (hrest d').1 h
          exact ⟨hx, .known hspells hnamed (by simpa using hfilled) taken rest⟩
      · rename_i hnamed
        simp only [hcolon, skipValue_of_isValue hbehind value hr] at h
        obtain ⟨hx, rest⟩ := (hrest d).1 h
        exact ⟨hx, .unknown hspells hnamed rest⟩
  · rintro ⟨hx, _ | ⟨hspells, hnamed, hfilled, taken, rest⟩ | ⟨hspells, hnamed, rest⟩⟩
    · have hnext := (hname _ _).2 ⟨hspells, rfl⟩
      have hfill := (hreads _ _ _ _ _ _ _ hbehind value hr).2 ⟨rfl, taken⟩
      simp only [readMembers, hnext, hnamed, hfilled, Bool.false_eq_true, if_false, hcolon, hfill]
      exact (hrest _).2 ⟨hx, rest⟩
    · have hnext := (hname _ _).2 ⟨hspells, rfl⟩
      simp only [readMembers, hnext, hnamed, hcolon, skipValue_of_isValue hbehind value hr]
      exact (hrest d).2 ⟨hx, rest⟩

/-- The members of an object are gathered up to its closing brace. -/
theorem readMembers_separated (hreads : form.ReadsBy takes) {ms : List (List Char × List Char)}
    {t : List Char} (h : Separated IsMember ms t) (values : ∀ m ∈ ms, IsValue m.2) (r : List Char)
    {turns : ℕ} (hturns : ms.length < turns) (d e : D) (x : List Char) :
    form.readMembers turns true d (t ++ '\x7d' :: r) = .ok (e, x) ↔
      x = r ∧ Gathers form takes d ms e := by
  induction h generalizing turns d with
  | @one m front s behind hfront item hbehind =>
    obtain ⟨turns, rfl⟩ := Nat.exists_eq_add_of_lt hturns
    have hr := hbehind.isBehindValue_append (c := '\x7d') (by decide) r
    rw [List.append_assoc, List.append_assoc]
    refine readMembers_cons hreads hfront item (values m List.mem_cons_self) hr fun d => ?_
    rw [List.length_singleton, Nat.add_comm, readMembers_close hbehind, ok_eq_ok_iff,
      gathers_nil_iff]
  | @more m ms front s behind t hfront item hbehind separated ih =>
    obtain ⟨hm, hms⟩ := List.forall_mem_cons.1 values
    obtain _ | turns := turns
    · exact absurd hturns (Nat.not_lt_zero _)
    have hr := hbehind.isBehindValue_append (c := ',') (by decide) (t ++ '\x7d' :: r)
    simp only [List.append_assoc, List.cons_append]
    refine readMembers_cons hreads hfront item hm hr fun d => ?_
    rw [readMembers_congr (nextName_comma_of_separated hbehind separated _)]
    exact ih hms (Nat.lt_of_succ_lt_succ hturns) d

/-! ### Elements -/

/-- The next element of a list stands behind white space, when there is one. -/
theorem nextElement_first {t r : List Char} {vs : List (List Char)} (h : Separated Eq vs t)
    (values : ∀ v ∈ vs, IsValue v) :
    nextElement true (t ++ r) = .ok (some (skipSpace (t ++ r))) := by
  obtain ⟨c, s, hs, hc⟩ := h.skipSpace_elements values r
  rw [nextElement, hs]
  simp [hc]

theorem nextElement_comma {front t r : List Char} {vs : List (List Char)}
    (hfront : IsSpacing front) (h : Separated Eq vs t) (values : ∀ v ∈ vs, IsValue v) :
    nextElement false (front ++ ',' :: (t ++ r)) = .ok (some (skipSpace (t ++ r))) := by
  obtain ⟨c, s, hs, hc⟩ := h.skipSpace_elements values r
  rw [nextElement, skipSpace_append hfront (by rfl)]
  simp [hs, hc]

theorem closeList_append {front : List Char} (hfront : IsSpacing front) (r : List Char) :
    closeList (front ++ ']' :: r) = .ok r := by
  rw [closeList, skipSpace_append hfront (by rfl)]
  simp

/-- What reading one element adds to reading the rest. -/
theorem readElements_cons (hreads : form.ReadsBy takes) {front v : List Char}
    (hfront : IsSpacing front) (value : IsValue v) {r x y z : List Char} (hr : IsBehindValue r)
    {f : F} {fs : List F} {vs : List (List Char)} {i : ℕ} {d e : D}
    (hnext : nextElement (i == 0) z = .ok (some (skipSpace (front ++ (v ++ r)))))
    (hrest : ∀ d, form.readElements fs (i + 1) d r = .ok (e, x) ↔
      x = y ∧ GathersInOrder takes d fs vs e) :
    form.readElements (f :: fs) i d z = .ok (e, x) ↔
      x = y ∧ GathersInOrder takes d (f :: fs) (v :: vs) e := by
  have hread := fun d' r' => hreads d f [] v r d' r' isSpacing_nil value hr
  obtain ⟨c, s, rfl, hspace, -⟩ := value.exists_cons
  rw [List.cons_append, skipSpace_append hfront hspace] at hnext
  rw [readElements, hnext]
  constructor
  · intro h
    simp only at h
    split at h
    · rename_i d' r' hfill
      obtain ⟨rfl, taken⟩ := (hread d' r').1 hfill
      obtain ⟨hx, rest⟩ := (hrest d').1 h
      exact ⟨hx, .cons taken rest⟩
    · cases h
  · rintro ⟨hx, _ | @⟨_, d', _, _, _, _, _, taken, rest⟩⟩
    have hfill := (hread d' r).2 ⟨rfl, taken⟩
    rw [List.nil_append, List.cons_append] at hfill
    simp only [hfill]
    exact (hrest d').2 ⟨hx, rest⟩

/-- The elements of a list are gathered up to its closing bracket. -/
theorem readElements_separated (hreads : form.ReadsBy takes) {vs : List (List Char)}
    {t : List Char} (h : Separated Eq vs t) (values : ∀ v ∈ vs, IsValue v) (r : List Char)
    {fs : List F} (hlength : vs.length = fs.length) {i : ℕ} {z : List Char}
    (hnext : nextElement (i == 0) z = .ok (some (skipSpace (t ++ ']' :: r)))) (d e : D)
    (x : List Char) :
    form.readElements fs i d z = .ok (e, x) ↔ x = r ∧ GathersInOrder takes d fs vs e := by
  induction h generalizing fs i d z with
  | @one v front s behind hfront item hbehind =>
    subst item
    obtain ⟨f, rfl⟩ := List.length_eq_one_iff.1 hlength.symm
    have hr := hbehind.isBehindValue_append (c := ']') (by decide) r
    rw [List.append_assoc, List.append_assoc] at hnext
    refine readElements_cons hreads hfront (values v List.mem_cons_self) hr hnext fun d => ?_
    rw [readElements, closeList_append hbehind, gathersInOrder_nil_iff]
    exact ok_eq_ok_iff
  | @more v vs front s behind t hfront item hbehind separated ih =>
    subst item
    obtain ⟨hv, hvs⟩ := List.forall_mem_cons.1 values
    obtain ⟨f, fs, rfl⟩ := List.exists_cons_of_length_eq_add_one hlength.symm
    have hr := hbehind.isBehindValue_append (c := ',') (by decide) (t ++ ']' :: r)
    simp only [List.append_assoc, List.cons_append] at hnext
    refine readElements_cons hreads hfront hv hr hnext fun d => ?_
    refine ih hvs (Nat.succ.inj hlength) ?_ d
    exact nextElement_comma hbehind separated hvs

/-! ### Whole texts -/

theorem close_eq_ok_iff {d : D} {a : α} : form.close d = .ok a ↔ form.finish d = some a := by
  rw [close]
  constructor
  · intro h
    split at h
    · rw [← Except.ok.inj h]
      assumption
    · split at h <;> cases h
  · intro h
    rw [h]

/-- What is gathered up to a given place has to make up a result. -/
theorem close_gathered {gathered : Except Fault (D × List Char)} {y : List Char} {P : D → Prop}
    {a : α} {x : List Char} : (∀ e x, gathered = .ok (e, x) ↔ x = y ∧ P e) →
    ((match gathered with
      | .error f => .error f
      | .ok (d, r) =>
        match form.close d with
        | .ok a => .ok (a, r)
        | .error f => .error f : Except Fault (α × List Char)) = .ok (a, x) ↔
      x = y ∧ ∃ e, P e ∧ form.finish e = some a) := by
  intro h
  constructor
  · intro hread
    split at hread
    · cases hread
    · rename_i d r
      split at hread
      · rename_i a' hclose
        obtain ⟨rfl, rfl⟩ := Prod.mk.inj (Except.ok.inj hread)
        obtain ⟨rfl, hd⟩ := (h d r).1 rfl
        exact ⟨rfl, d, hd, close_eq_ok_iff.1 hclose⟩
      · cases hread
  · rintro ⟨rfl, e, he, hfinish⟩
    rw [(h e x).2 ⟨rfl, he⟩]
    simp only [close_eq_ok_iff.2 hfinish]

/-- Behind a whole text only white space may stand. -/
theorem decode_eq_ok_iff {read : Reader α} {s behind : List Char} (hbehind : IsSpacing behind)
    {P : α → Prop} (h : ∀ a x, read s = .ok (a, x) ↔ x = behind ∧ P a) {a : α} :
    decode read s = .ok a ↔ P a := by
  have hskip : skipSpace behind = [] := List.dropWhile_eq_nil_iff.2 hbehind
  rw [decode]
  constructor
  · intro hdecode
    split at hdecode
    · cases hdecode
    · rename_i a' r hread
      obtain ⟨rfl, ha⟩ := (h a' r).1 hread
      rw [hskip] at hdecode
      rwa [← Except.ok.inj hdecode]
  · intro ha
    rw [(h a behind).2 ⟨rfl, ha⟩]
    simp only [hskip, List.isEmpty_nil, if_true]

/-- A form is read from an object when what its members fill makes up a result. -/
theorem decode_eq_ok_iff_of_isObject (hreads : form.ReadsBy takes)
    {ms : List (List Char × List Char)} {s : List Char} (h : IsObject ms s) {a : α} :
    decode form.read s = .ok a ↔
      ∃ e, Gathers form takes form.blank ms e ∧ form.finish e = some a := by
  obtain @⟨front, t, behind, hfront, values, listed, hbehind⟩ := h
  refine decode_eq_ok_iff (P := fun a => ∃ e, Gathers form takes form.blank ms e ∧
    form.finish e = some a) hbehind fun a x => ?_
  have hgather : ∀ e x, form.readMembers ((t ++ '\x7d' :: behind).length + 1) true form.blank
      (t ++ '\x7d' :: behind) = .ok (e, x) ↔ x = behind ∧ Gathers form takes form.blank ms e := by
    intro e x
    cases listed with
    | empty spacing =>
      rw [readMembers_close spacing, ok_eq_ok_iff, gathers_nil_iff]
    | items separated =>
      have := separated.length_le
      exact readMembers_separated hreads separated values behind (by simp; omega) _ e x
  rw [read, skipSpace_append hfront (by rfl)]
  exact close_gathered hgather

/-- A form is read from a list with an element for each field when what the elements fill makes up
a result. -/
theorem decode_eq_ok_iff_of_isList (hreads : form.ReadsBy takes) {vs : List (List Char)}
    {s : List Char} (h : IsList vs s) (hlength : vs.length = form.fields.length) {a : α} :
    decode form.read s = .ok a ↔
      ∃ e, GathersInOrder takes form.blank form.fields vs e ∧ form.finish e = some a := by
  obtain @⟨front, t, behind, hfront, values, listed, hbehind⟩ := h
  refine decode_eq_ok_iff (P := fun a => ∃ e, GathersInOrder takes form.blank form.fields vs e ∧
    form.finish e = some a) hbehind fun a x => ?_
  have hgather : ∀ e x, form.readElements form.fields 0 form.blank (t ++ ']' :: behind) =
      .ok (e, x) ↔ x = behind ∧ GathersInOrder takes form.blank form.fields vs e := by
    intro e x
    cases listed with
    | empty spacing =>
      rw [List.eq_nil_of_length_eq_zero hlength.symm, readElements, closeList_append spacing,
        gathersInOrder_nil_iff]
      exact ok_eq_ok_iff
    | items separated =>
      refine readElements_separated hreads separated values behind hlength ?_ _ e x
      exact nextElement_first separated values
  rw [read, skipSpace_append hfront (by rfl)]
  exact close_gathered hgather

end TransferLedger.Json.Form
