import Mathlib.Data.List.DropRight
import Mathlib.Tactic
import TransferLedger.Proofs.JsonNumeral
import TransferLedger.Proofs.StringText

/-!
# Which texts are values

The notation of values: words, strings, numerals, lists and objects, with white space around the
parts of a list or an object. Lists and objects hold values again, to any depth.

* `Json.Separated`, `Json.Listed`: items with commas between them;
* `Json.IsMember`: a member, from what stands between the quotes of its name and from its value;
* `Json.valuesAt`: the values of the members of one name;
* `Json.IsValue`: the texts of values;
* `Json.IsObject`, `Json.IsList`: whole texts that hold an object of given members, or a list of
  given elements;
* `Json.objectText`, `Json.listText`: such texts with blanks between all parts.
-/

namespace TransferLedger.Json

/-! ### White space -/

/-- White space between the parts of a text, which may be left out. -/
def IsSpacing (s : List Char) : Prop := ∀ c ∈ s, isSpace c = true

instance (s : List Char) : Decidable (IsSpacing s) := List.decidableBAll _ s

theorem isSpacing_nil : IsSpacing [] := fun _ h => absurd h List.not_mem_nil

/-- White space in front makes no difference. -/
theorem IsSpacing.skipSpace_append {s : List Char} (h : IsSpacing s) (r : List Char) :
    skipSpace (s ++ r) = skipSpace r := by
  rw [skipSpace, skipSpace, List.dropWhile_append_of_pos h]

theorem skipSpace_skipSpace (s : List Char) : skipSpace (skipSpace s) = skipSpace s :=
  List.dropWhile_idempotent isSpace s

/-- Up to a comma or a closing bracket there may be white space behind a value. -/
theorem IsSpacing.isBehindValue_append {s : List Char} (h : IsSpacing s) {c : Char}
    (hc : c = ',' ∨ c = ']' ∨ c = '\x7d') (r : List Char) : IsBehindValue (s ++ c :: r) := by
  cases s with
  | nil => exact isBehindValue_cons hc r
  | cons d s =>
    rintro _ ⟨⟩
    have hd := h d List.mem_cons_self
    simp only [isSpace, Bool.or_eq_true, beq_iff_eq] at hd
    rcases hd with ((rfl | rfl) | rfl) | rfl <;> decide

/-! ### Items -/

section Items

variable {α : Type} {Item : α → List Char → Prop} {as : List α} {t : List Char}

/-- Items with white space around each and commas between them. -/
inductive Separated (Item : α → List Char → Prop) : List α → List Char → Prop
  | one {a : α} {front s behind : List Char} (hfront : IsSpacing front) (item : Item a s)
      (hbehind : IsSpacing behind) : Separated Item [a] (front ++ (s ++ behind))
  | more {a : α} {as : List α} {front s behind t : List Char} (hfront : IsSpacing front)
      (item : Item a s) (hbehind : IsSpacing behind) (rest : Separated Item as t) :
      Separated Item (a :: as) (front ++ (s ++ (behind ++ ',' :: t)))

/-- What stands between brackets: items, or white space alone. -/
inductive Listed (Item : α → List Char → Prop) : List α → List Char → Prop
  | empty {s : List Char} (spacing : IsSpacing s) : Listed Item [] s
  | items {as : List α} {s : List Char} (separated : Separated Item as s) : Listed Item as s

/-- Behind white space, items open with the first of them. -/
theorem Separated.exists_first (h : Separated Item as t) :
    ∃ front a s behind, t = front ++ (s ++ behind) ∧ IsSpacing front ∧ a ∈ as ∧ Item a s := by
  cases h with
  | one hfront item _ => exact ⟨_, _, _, _, rfl, hfront, List.mem_cons_self, item⟩
  | more hfront item _ _ => exact ⟨_, _, _, _, rfl, hfront, List.mem_cons_self, item⟩

/-- There are no more items than characters. -/
theorem Separated.length_le (h : Separated Item as t) : as.length ≤ t.length + 1 := by
  induction h with
  | one => simp
  | more _ _ _ _ ih =>
    simp only [List.length_append, List.length_cons]
    omega

/-- Items with a blank wherever white space may stand. -/
def spread : List (List Char) → List Char
  | [] => [' ']
  | [s] => [' '] ++ (s ++ [' '])
  | s :: ss => [' '] ++ (s ++ ([' '] ++ ',' :: spread ss))

theorem separated_spread {a : α} {s : List Char} {ss : List (List Char)} (item : Item a s)
    (items : List.Forall₂ Item as ss) : Separated Item (a :: as) (spread (s :: ss)) := by
  have hblank : IsSpacing [' '] := by decide
  induction items generalizing a s with
  | nil => exact .one hblank item hblank
  | cons first _ ih => exact .more hblank item hblank (ih first)

/-- The items are listed between the blanks. -/
theorem listed_spread {ss : List (List Char)} (items : List.Forall₂ Item as ss) :
    Listed Item as (spread ss) := by
  cases items with
  | nil => exact .empty (by decide)
  | cons item items => exact .items (separated_spread item items)

end Items

/-! ### Values -/

/-- A member of an object: a name between quotes, a colon and a value. -/
def IsMember (m : List Char × List Char) (s : List Char) : Prop :=
  IsContent m.1 ∧ ∃ front behind, IsSpacing front ∧ IsSpacing behind ∧
    s = '"' :: (m.1 ++ '"' :: (front ++ ':' :: (behind ++ m.2)))

/-- A member with a blank on both sides of its colon. -/
def memberText (m : List Char × List Char) : List Char :=
  '"' :: (m.1 ++ '"' :: ([' '] ++ ':' :: ([' '] ++ m.2)))

theorem isMember_memberText {m : List Char × List Char} (h : IsContent m.1) :
    IsMember m (memberText m) :=
  ⟨h, [' '], [' '], by decide, by decide, rfl⟩

/-- The values of the members whose names spell a given text, in their own order. -/
def valuesAt (name : List Char) (ms : List (List Char × List Char)) : List (List Char) :=
  (ms.filter fun m => Spells m.1 name).map Prod.snd

theorem valuesAt_cons_of_spells {name : List Char} {m : List Char × List Char}
    (h : Spells m.1 name) (ms : List (List Char × List Char)) :
    valuesAt name (m :: ms) = m.2 :: valuesAt name ms := by
  rw [valuesAt, List.filter_cons_of_pos (by simpa using h), List.map_cons, ← valuesAt]

theorem valuesAt_cons_of_not_spells {name : List Char} {m : List Char × List Char}
    (h : ¬Spells m.1 name) (ms : List (List Char × List Char)) :
    valuesAt name (m :: ms) = valuesAt name ms := by
  rw [valuesAt, List.filter_cons_of_neg (by simpa using h), ← valuesAt]

/-- The texts of values. -/
inductive IsValue : List Char → Prop
  | null : IsValue ['n', 'u', 'l', 'l']
  | yes : IsValue ['t', 'r', 'u', 'e']
  | no : IsValue ['f', 'a', 'l', 's', 'e']
  | text {s : List Char} (content : IsContent s) : IsValue ('"' :: (s ++ ['"']))
  | numeral {s : List Char} (h : IsNumeral s) : IsValue s
  | list {vs : List (List Char)} {s : List Char} (values : ∀ v ∈ vs, IsValue v)
      (listed : Listed Eq vs s) : IsValue ('[' :: (s ++ [']']))
  | object {ms : List (List Char × List Char)} {s : List Char} (values : ∀ m ∈ ms, IsValue m.2)
      (listed : Listed IsMember ms s) : IsValue ('\x7b' :: (s ++ ['\x7d']))

/-- A value opens with a character that is neither white space nor a closing bracket. -/
theorem IsValue.exists_cons {v : List Char} (h : IsValue v) :
    ∃ c t, v = c :: t ∧ isSpace c = false ∧ c ≠ ']' := by
  cases h with
  | numeral h =>
    obtain ⟨c, t, rfl, rfl | hc⟩ := h.exists_cons
    · exact ⟨_, _, rfl, by decide⟩
    · refine ⟨c, t, rfl, isSpace_of_isDigit hc, ?_⟩
      rintro rfl
      exact absurd hc (by decide)
  | null | yes | no | text _ | list _ _ | object _ _ => exact ⟨_, _, rfl, by decide⟩

/-- A whole text that holds an object of given members. -/
inductive IsObject (ms : List (List Char × List Char)) : List Char → Prop
  | intro {front s behind : List Char} (hfront : IsSpacing front)
      (values : ∀ m ∈ ms, IsValue m.2) (listed : Listed IsMember ms s)
      (hbehind : IsSpacing behind) : IsObject ms (front ++ '\x7b' :: (s ++ '\x7d' :: behind))

/-- A whole text that holds a list of given elements. -/
inductive IsList (vs : List (List Char)) : List Char → Prop
  | intro {front s behind : List Char} (hfront : IsSpacing front) (values : ∀ v ∈ vs, IsValue v)
      (listed : Listed Eq vs s) (hbehind : IsSpacing behind) :
      IsList vs (front ++ '[' :: (s ++ ']' :: behind))

/-- An object with a blank wherever white space may stand inside it. -/
def objectText (ms : List (List Char × List Char)) : List Char :=
  '\x7b' :: (spread (ms.map memberText) ++ ['\x7d'])

theorem isObject_objectText {ms : List (List Char × List Char)}
    (h : ∀ m ∈ ms, IsContent m.1 ∧ IsValue m.2) : IsObject ms (objectText ms) := by
  have hmembers : List.Forall₂ IsMember ms (ms.map memberText) := by
    rw [List.forall₂_map_right_iff, List.forall₂_same]
    exact fun m hm => isMember_memberText (h m hm).1
  exact .intro isSpacing_nil (fun m hm => (h m hm).2) (listed_spread hmembers) isSpacing_nil

/-- So for a list. -/
def listText (vs : List (List Char)) : List Char := '[' :: (spread vs ++ [']'])

theorem isValue_listText {vs : List (List Char)} (h : ∀ v ∈ vs, IsValue v) :
    IsValue (listText vs) :=
  .list h (listed_spread (List.forall₂_same.2 fun _ _ => rfl))

theorem isList_listText {vs : List (List Char)} (h : ∀ v ∈ vs, IsValue v) :
    IsList vs (listText vs) :=
  .intro isSpacing_nil h (listed_spread (List.forall₂_same.2 fun _ _ => rfl)) isSpacing_nil

end TransferLedger.Json
