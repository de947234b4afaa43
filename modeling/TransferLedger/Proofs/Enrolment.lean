import Mathlib.Tactic
import TransferLedger.Store

/-!
# Rows in the order of their first arrival

Rows arrive one after another, and one whose name is taken is turned away.

* `enrol`, `enrolAll`: the rows after an arrival, and after several;
* `newcomers`: those among the arrivals whose names are new, the first of each name;
* `enrolAll_eq`: arrivals add exactly the newcomers, behind what was there;
* `length_enrolAll`: the rows grow by the number of newcomers;
* `Growth.enrolAll`: arrivals that are enrolled with a count of those that are new;
* `mem_newcomers_iff`, `newcomers_sublist`, `nodup_newcomers`: which arrivals these are, and in
  which order;
* `nodup_enrolAll`: names stay apart;
* `enrolAll_of_subset`: arrivals that are all there change nothing;
* `enrolAll_of_prefix`: neither does it that some of them came before;
* `enrolAll_map`: rows may be renamed, as long as their names stay apart.
-/

namespace TransferLedger

variable {ρ κ : Type} [DecidableEq κ] (name : ρ → κ)

/-- The rows after an arrival. -/
def enrol (rows : List ρ) (r : ρ) : List ρ :=
  if rows.any fun q => name q == name r then rows else rows ++ [r]

/-- The rows after several arrivals. -/
def enrolAll (rows arrivals : List ρ) : List ρ := arrivals.foldl (enrol name) rows

/-- The arrivals whose names are neither taken nor those of earlier arrivals. -/
def newcomers (taken : List κ) : List ρ → List ρ
  | [] => []
  | r :: rs => if name r ∈ taken then newcomers taken rs else r :: newcomers (name r :: taken) rs

@[simp] theorem enrolAll_nil (rows : List ρ) : enrolAll name rows [] = rows := rfl

theorem enrolAll_cons (rows : List ρ) (r : ρ) (rs : List ρ) :
    enrolAll name rows (r :: rs) = enrolAll name (enrol name rows r) rs := rfl

theorem enrolAll_append (rows xs ys : List ρ) :
    enrolAll name rows (xs ++ ys) = enrolAll name (enrolAll name rows xs) ys :=
  List.foldl_append

/-- A name is turned away exactly when it is taken. -/
theorem enrol_eq (rows : List ρ) (r : ρ) :
    enrol name rows r = if name r ∈ rows.map name then rows else rows ++ [r] := by
  have h : (rows.any fun q => name q == name r) = true ↔ name r ∈ rows.map name := by
    simp [List.any_eq_true, List.mem_map]
  simp only [enrol, h]

/-- Only membership in the taken names counts. -/
theorem newcomers_congr {s t : List κ} (h : ∀ k, k ∈ s ↔ k ∈ t) (rs : List ρ) :
    newcomers name s rs = newcomers name t rs := by
  induction rs generalizing s t with
  | nil => rfl
  | cons r rs ih =>
    have hcons : ∀ k, k ∈ name r :: s ↔ k ∈ name r :: t := fun k => by simp [h k]
    simp only [newcomers, h (name r), ih h, ih hcons]

/-- A name that is not taken is taken from then on. -/
theorem newcomers_cons_of_not_mem {rows : List ρ} {r : ρ} (h : name r ∉ rows.map name)
    (rs : List ρ) : newcomers name (rows.map name) (r :: rs) =
      r :: newcomers name ((rows ++ [r]).map name) rs := by
  have hperm : ∀ k, k ∈ (rows ++ [r]).map name ↔ k ∈ name r :: rows.map name := fun k => by
    simp [or_comm]
  rw [newcomers, if_neg h, newcomers_congr name hperm]

/-- Arrivals add exactly the newcomers, behind what was there. -/
theorem enrolAll_eq (rows rs : List ρ) :
    enrolAll name rows rs = rows ++ newcomers name (rows.map name) rs := by
  induction rs generalizing rows with
  | nil => simp [newcomers]
  | cons r rs ih =>
    rw [enrolAll_cons, enrol_eq]
    by_cases h : name r ∈ rows.map name
    · rw [if_pos h, newcomers, if_pos h]
      exact ih rows
    · rw [if_neg h, newcomers_cons_of_not_mem name h, ih, List.append_assoc, List.singleton_append]

/-- What was there stays in front. -/
theorem prefix_enrolAll (rows rs : List ρ) : rows <+: enrolAll name rows rs :=
  ⟨_, (enrolAll_eq name rows rs).symm⟩

/-- The rows grow by the number of newcomers. -/
theorem length_enrolAll (rows rs : List ρ) : (enrolAll name rows rs).length =
    rows.length + (newcomers name (rows.map name) rs).length := by
  rw [enrolAll_eq, List.length_append]

theorem length_le_enrolAll (rows rs : List ρ) : rows.length ≤ (enrolAll name rows rs).length :=
  (prefix_enrolAll name rows rs).length_le

/-- No more rows are added than arrive. -/
theorem newcomers_sublist (taken : List κ) (rs : List ρ) :
    (newcomers name taken rs).Sublist rs := by
  induction rs generalizing taken with
  | nil => exact List.Sublist.slnil
  | cons r rs ih =>
    rw [newcomers]
    split_ifs
    · exact (ih taken).cons r
    · exact (ih _).cons_cons r

theorem length_enrolAll_le (rows rs : List ρ) :
    (enrolAll name rows rs).length ≤ rows.length + rs.length := by
  rw [length_enrolAll]
  exact Nat.add_le_add_left (newcomers_sublist name _ rs).length_le _

/-- Every row was there or has arrived. -/
theorem mem_enrolAll {rows rs : List ρ} {r : ρ} (h : r ∈ enrolAll name rows rs) :
    r ∈ rows ∨ r ∈ rs := by
  rw [enrolAll_eq, List.mem_append] at h
  exact h.imp_right fun hr => (newcomers_sublist name _ rs).subset hr

/-- A newcomer is the first arrival of its name, and its name was not taken. -/
theorem mem_newcomers_iff {taken : List κ} {rs : List ρ} {r : ρ} :
    r ∈ newcomers name taken rs ↔
      name r ∉ taken ∧ rs.find? (fun q => name q = name r) = some r := by
  induction rs generalizing taken with
  | nil => simp [newcomers]
  | cons q rs ih =>
    by_cases hq : name q = name r
    · -- The first arrival of this name decides, and later ones are turned away.
      rw [newcomers, List.find?_cons_of_pos (by simpa using hq)]
      split_ifs with ht
      · rw [hq] at ht
        simp [ih, ht]
      · rw [hq] at ht
        simp only [List.mem_cons, ih, hq, not_true_eq_false, false_and, or_false, ht,
          not_false_eq_true, true_and, Option.some.injEq]
        exact eq_comm
    · rw [newcomers, List.find?_cons_of_neg (by simpa using hq)]
      have hne : r ≠ q := fun h => hq (h ▸ rfl)
      split_ifs with ht
      · exact ih
      · simp [ih, hne, Ne.symm hq]

/-- No two newcomers have one name. -/
theorem nodup_newcomers (taken : List κ) (rs : List ρ) :
    ((newcomers name taken rs).map name).Nodup := by
  induction rs generalizing taken with
  | nil => exact List.nodup_nil
  | cons r rs ih =>
    rw [newcomers]
    split_ifs
    · exact ih taken
    · rw [List.map_cons, List.nodup_cons]
      refine ⟨fun h => ?_, ih _⟩
      obtain ⟨q, hq, he⟩ := List.mem_map.1 h
      exact ((mem_newcomers_iff name).1 hq).1 (by simp [he])

/-- Names stay apart. -/
theorem nodup_enrolAll {rows : List ρ} (h : (rows.map name).Nodup) (rs : List ρ) :
    ((enrolAll name rows rs).map name).Nodup := by
  rw [enrolAll_eq, List.map_append, List.nodup_append]
  refine ⟨h, nodup_newcomers name _ rs, ?_⟩
  intro k hk k' hk' hkk'
  obtain ⟨r, hr, rfl⟩ := List.mem_map.1 hk'
  exact ((mem_newcomers_iff name).1 hr).1 (hkk' ▸ hk)

/-- Every arrival's name is taken afterwards. -/
theorem mem_map_enrolAll {rows rs : List ρ} {k : κ} :
    k ∈ (enrolAll name rows rs).map name ↔ k ∈ rows.map name ∨ k ∈ rs.map name := by
  induction rs generalizing rows with
  | nil => simp
  | cons r rs ih =>
    rw [enrolAll_cons, ih, enrol_eq]
    split_ifs with h
    · rw [List.map_cons, List.mem_cons]
      constructor
      · rintro (hk | hk)
        · exact .inl hk
        · exact .inr (.inr hk)
      · rintro (hk | rfl | hk)
        · exact .inl hk
        · exact .inl h
        · exact .inr hk
    · simp only [List.map_append, List.map_cons, List.map_nil, List.mem_append, List.mem_cons,
        List.not_mem_nil, or_false, or_assoc]

/-- Arrivals whose names are all taken change nothing. -/
theorem enrolAll_of_subset {rows rs : List ρ} (h : ∀ r ∈ rs, name r ∈ rows.map name) :
    enrolAll name rows rs = rows := by
  induction rs with
  | nil => rfl
  | cons r rs ih =>
    rw [enrolAll_cons, enrol_eq, if_pos (h r List.mem_cons_self)]
    exact ih fun q hq => h q (List.mem_cons_of_mem r hq)

/-- When none of some arrivals is new, neither are the first of them. -/
theorem enrolAll_of_append {rows xs ys : List ρ} (h : enrolAll name rows (xs ++ ys) = rows) :
    enrolAll name rows xs = rows := by
  have hlater := prefix_enrolAll name (enrolAll name rows xs) ys
  rw [← enrolAll_append, h] at hlater
  exact hlater.eq_of_length_le (length_le_enrolAll name rows xs)

/-- When the first arrivals have come already, it makes no difference that they come again. -/
theorem enrolAll_of_prefix {xs rs : List ρ} (h : xs <+: rs) (rows : List ρ) :
    enrolAll name (enrolAll name rows xs) rs = enrolAll name rows rs := by
  obtain ⟨ys, rfl⟩ := h
  have hself : enrolAll name (enrolAll name rows xs) xs = enrolAll name rows xs :=
    enrolAll_of_subset name fun r hr =>
      (mem_map_enrolAll name).2 (.inr (List.mem_map_of_mem hr))
  rw [enrolAll_append, hself, ← enrolAll_append]

/-- Renaming rows without confusing their names. -/
theorem enrolAll_map {ρ' κ' : Type} [DecidableEq κ'] (name' : ρ' → κ') (f : ρ → ρ')
    (hf : ∀ a b, name' (f a) = name' (f b) ↔ name a = name b) (rows rs : List ρ) :
    enrolAll name' (rows.map f) (rs.map f) = (enrolAll name rows rs).map f := by
  induction rs generalizing rows with
  | nil => rfl
  | cons r rs ih =>
    have hstep : enrol name' (rows.map f) (f r) = (enrol name rows r).map f := by
      have hany : ((rows.map f).any fun q => name' q == name' (f r)) =
          rows.any fun q => name q == name r := by
        rw [List.any_map]
        congr 1
        funext q
        exact Bool.eq_iff_iff.2 (by simp [hf])
      rw [enrol, hany, enrol]
      split <;> simp
    rw [List.map_cons, enrolAll_cons, hstep, ih, enrolAll_cons]

/-! ### Arrivals that are counted -/

namespace Growth

/-- Several arrivals are enrolled, and those of them that are new are counted. -/
def enrolAll (g : Growth ρ) (arrivals : List ρ) : Growth ρ where
  rows := TransferLedger.enrolAll name g.rows arrivals
  inserted := g.inserted + (newcomers name (g.rows.map name) arrivals).length

@[simp] theorem enrolAll_nil (g : Growth ρ) : g.enrolAll name [] = g := rfl

/-- The first arrival counts when its name is not taken. -/
theorem enrolAll_cons (g : Growth ρ) (r : ρ) (rs : List ρ) : g.enrolAll name (r :: rs) =
    Growth.enrolAll name
      (if g.rows.any fun q => name q == name r then g else ⟨g.rows ++ [r], g.inserted + 1⟩) rs := by
  have hany : (g.rows.any fun q => name q == name r) = decide (name r ∈ g.rows.map name) := by
    rw [Bool.eq_iff_iff, decide_eq_true_iff]
    simp [List.any_eq_true, List.mem_map]
  rw [hany]
  by_cases h : name r ∈ g.rows.map name
  · simp [enrolAll, TransferLedger.enrolAll_cons, enrol_eq, newcomers, h]
  · simp only [enrolAll, TransferLedger.enrolAll_cons, enrol_eq, newcomers_cons_of_not_mem name h,
      h, if_false, decide_false, Bool.false_eq_true, List.length_cons, Growth.mk.injEq, true_and]
    omega

end Growth

end TransferLedger
