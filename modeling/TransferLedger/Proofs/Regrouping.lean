import Mathlib.Tactic
import TransferLedger.Proofs.NewestFirst
import TransferLedger.Proofs.ReadRows

/-!
# Batches may be divided and interleaved

How transfers are divided into batches makes no difference to what a store holds afterwards, and the
order of the batches only decides which transfer of a name comes first.

* `perm_names_newcomers`, `perm_newcomers`: newcomers in another order of arrival;
* `LawfulStore.commitAll`: batches that are committed one after another;
* `ListsAlike`: two listings that differ in the order of transfers of one block and log index;
* `LawfulStore.IgnoresBatching`: what does not depend on the batches;
* `stores_ignore_batching`: this holds of the store in memory and of databases.
-/

namespace TransferLedger

open LawfulStore

/-! ### Another order of arrival -/

section Newcomers

variable {ρ κ : Type} [DecidableEq κ] (name : ρ → κ) (taken : List κ) {xs ys : List ρ}

theorem mem_map_newcomers_iff {k : κ} :
    k ∈ (newcomers name taken xs).map name ↔ k ∉ taken ∧ k ∈ xs.map name := by
  constructor
  · intro hk
    obtain ⟨r, hr, rfl⟩ := List.mem_map.1 hk
    exact ⟨((mem_newcomers_iff name).1 hr).1,
      List.mem_map_of_mem ((newcomers_sublist name taken xs).subset hr)⟩
  · rintro ⟨htaken, hk⟩
    -- The first arrival of this name is a newcomer.
    obtain ⟨q, hq, hname⟩ := List.mem_map.1 hk
    obtain ⟨r, hr⟩ := Option.isSome_iff_exists.1
      (List.find?_isSome.2 ⟨q, hq, by simpa using hname⟩ :
        (xs.find? fun q => name q = k).isSome)
    have hrk : name r = k := by simpa using List.find?_some hr
    subst hrk
    exact List.mem_map_of_mem ((mem_newcomers_iff name).2 ⟨htaken, hr⟩)

/-- The names of the newcomers do not depend on the order of arrival. -/
theorem perm_names_newcomers (h : xs.Perm ys) :
    ((newcomers name taken xs).map name).Perm ((newcomers name taken ys).map name) := by
  rw [List.perm_ext_iff_of_nodup (nodup_newcomers name taken xs) (nodup_newcomers name taken ys)]
  intro k
  rw [mem_map_newcomers_iff, mem_map_newcomers_iff, (h.map name).mem_iff]

/-- Neither do the newcomers themselves, when those of one name are the same. -/
theorem perm_newcomers (h : xs.Perm ys) (hsame : ∀ a ∈ xs, ∀ b ∈ xs, name a = name b → a = b) :
    (newcomers name taken xs).Perm (newcomers name taken ys) := by
  have hmem : ∀ zs : List ρ, (∀ a ∈ zs, a ∈ xs) → ∀ r, r ∈ newcomers name taken zs ↔
      name r ∈ (newcomers name taken zs).map name ∧ r ∈ zs := by
    intro zs hzs r
    refine ⟨fun hr => ⟨List.mem_map_of_mem hr, (newcomers_sublist name taken zs).subset hr⟩, ?_⟩
    rintro ⟨hname, hr⟩
    obtain ⟨q, hq, hqr⟩ := List.mem_map.1 hname
    have hqz := (newcomers_sublist name taken zs).subset hq
    rwa [← hsame q (hzs q hqz) r (hzs r hr) hqr]
  rw [List.perm_ext_iff_of_nodup (nodup_newcomers name taken xs).of_map
    (nodup_newcomers name taken ys).of_map]
  intro r
  rw [hmem xs (fun _ => id), hmem ys (fun a ha => h.mem_iff.2 ha),
    (perm_names_newcomers name taken h).mem_iff, h.mem_iff]

theorem newcomers_map {ρ' : Type} (f : ρ' → ρ) (rs : List ρ') :
    newcomers name taken (rs.map f) = (newcomers (fun r => name (f r)) taken rs).map f := by
  induction rs generalizing taken with
  | nil => rfl
  | cons r rs ih =>
    rw [List.map_cons, newcomers, newcomers]
    split_ifs
    · exact ih taken
    · rw [ih, List.map_cons]

end Newcomers

/-! ### Listings -/

/-- What decides where a transfer is listed. -/
def Transfer.place (t : Transfer) : UInt64 × UInt64 := (t.blockNumber, t.logIndex)

/-- Two listings hold the same transfers, and at each place those of one block and log index; or
both fail with one error. -/
inductive ListsAlike : Except StoreError (List Transfer) → Except StoreError (List Transfer) → Prop
  | ok {l l' : List Transfer} (perm : l.Perm l') (places : l.map (·.place) = l'.map (·.place)) :
      ListsAlike (.ok l) (.ok l')
  | error (e : StoreError) : ListsAlike (.error e) (.error e)

/-- The same transfers in listing order are listed alike. -/
theorem ListsAlike.of_pairwise {l l' : List Transfer} (hperm : l.Perm l')
    (hl : l.Pairwise fun a b => newerOrSame a b = true)
    (hl' : l'.Pairwise fun a b => newerOrSame a b = true) : ListsAlike (.ok l) (.ok l') := by
  let le : UInt64 × UInt64 → UInt64 × UInt64 → Prop := fun p q =>
    q.1.toNat < p.1.toNat ∨ q.1.toNat = p.1.toNat ∧ q.2.toNat ≤ p.2.toNat
  have hplaces : ∀ m : List Transfer, (m.Pairwise fun a b => newerOrSame a b = true) →
      (m.map Transfer.place).Pairwise le := fun m hm =>
    List.pairwise_map.2 (hm.imp fun {a b} h => (newerOrSame_iff a b).1 h)
  have hantisymm : ∀ p q, le p q → le q p → p = q := by
    intro p q hpq hqp
    rw [Prod.ext_iff, ← UInt64.toNat_inj, ← UInt64.toNat_inj]
    omega
  exact .ok hperm (List.Perm.eq_of_pairwise (fun p q _ _ => hantisymm p q) (hplaces l hl)
    (hplaces l' hl') (hperm.map _))

namespace LawfulStore

variable {τ ρ κ : Type} [DecidableEq κ] [Store τ] [LawfulStore τ ρ κ] {s : τ}

/-- Commits batches one after another: how many transfers were new in all, and the store afterwards,
or the first error. -/
def commitAll : List (List Transfer) → τ → Except StoreError (ℕ × τ)
  | [], s => .ok (0, s)
  | batch :: batches, s =>
    match (Store.commit batch s).result with
    | .error e => .error e
    | .ok n =>
      match commitAll batches (Store.commit batch s).store with
      | .error e => .error e
      | .ok (m, s') => .ok (n + m, s')

/-- How transfers come in batches makes no difference to a store. -/
structure IgnoresBatching (P : Transfer → Prop) (s : τ) : Prop where
  /-- Two batches are added at once as they are one after the other, with as many new ones. -/
  joined : ∀ xs ys n, (Store.commit (xs ++ ys) s).result = .ok n ↔
    ∃ a b, (Store.commit xs s).result = .ok a ∧
      (Store.commit ys (Store.commit xs s).store).result = .ok b ∧ a + b = n
  /-- And then they leave the same rows. -/
  rows_joined : ∀ xs ys n, (Store.commit (xs ++ ys) s).result = .ok n →
    rows (Store.commit (xs ++ ys) s).store =
      rows (Store.commit ys (Store.commit xs s).store).store
  /-- When nothing is in the way, only what transfers there are decides whether they are added. -/
  accepted : IsReady s → ∀ batches : List (List Transfer),
    (∃ total s', commitAll batches s = .ok (total, s')) ↔ ∀ t ∈ batches.flatten, P t
  /-- The same transfers in other batches, or in another order, give as many new ones and the same
  names. If no two different ones have one name, they give the same rows in some order, and listings
  of everything that differ in the order of transfers of one block and log index. -/
  regrouped : ∀ batches others : List (List Transfer), batches.flatten.Perm others.flatten →
    ∀ total total' s₁ s₂, commitAll batches s = .ok (total, s₁) →
      commitAll others s = .ok (total', s₂) →
        total = total' ∧
        (∀ k, k ∈ (rows s₁).map (name τ) ↔ k ∈ (rows s₂).map (name τ)) ∧
        ((∀ t ∈ batches.flatten, ∀ u ∈ batches.flatten, t.key = u.key → t = u) →
          (rows s₁).Perm (rows s₂) ∧ ∀ limit, (rows s₁).length ≤ limit →
            ListsAlike (Store.recent limit s₁) (Store.recent limit s₂))

/-- Batches that are all added enrol the rows of all their transfers. -/
theorem commitAll_spec {batches : List (List Transfer)} {total : ℕ} {s' : τ}
    (h : commitAll batches s = .ok (total, s')) :
    rows s' = enrolAll (name τ) (rows s) (batches.flatten.map (row τ)) ∧
      (rows s).length + total = (rows s').length ∧
      ∀ P : Transfer → Prop, (∀ (s : τ) (batch : List Transfer) (n : ℕ),
        (Store.commit batch s).result = .ok n → ∀ t ∈ batch, P t) →
          ∀ t ∈ batches.flatten, P t := by
  induction batches generalizing s total with
  | nil =>
    obtain ⟨rfl, rfl⟩ := Prod.mk.inj (Except.ok.inj h)
    exact ⟨rfl, rfl, by simp⟩
  | cons batch batches ih =>
    rw [commitAll] at h
    split at h
    · cases h
    · rename_i n hn
      split at h
      · cases h
      · rename_i m s'' hall
        obtain ⟨rfl, rfl⟩ := Prod.mk.inj (Except.ok.inj h)
        obtain ⟨hrows, hlength, hP⟩ := ih hall
        obtain ⟨hfirst, hcount⟩ := rows_of_ok hn
        refine ⟨?_, by omega, fun P hadmits => ?_⟩
        · rw [hrows, hfirst, List.flatten_cons, List.map_append, enrolAll_append]
        · rw [List.flatten_cons, List.forall_mem_append]
          exact ⟨hadmits s batch n hn, hP P hadmits⟩

/-- Batches of acceptable transfers are all added when nothing is in the way. -/
theorem exists_commitAll {P : Transfer → Prop}
    (hP : ∀ (s : τ) (batch : List Transfer), IsReady s → (∀ t ∈ batch, P t) →
      ∃ n, (Store.commit batch s).result = .ok n)
    (hs : IsReady s) {batches : List (List Transfer)} (hb : ∀ t ∈ batches.flatten, P t) :
    ∃ total s', commitAll batches s = .ok (total, s') := by
  induction batches generalizing s with
  | nil => exact ⟨0, s, rfl⟩
  | cons batch batches ih =>
    rw [List.flatten_cons, List.forall_mem_append] at hb
    obtain ⟨n, hn⟩ := hP s batch hs hb.1
    obtain ⟨m, s', hall⟩ := ih (isReady_commit hs batch) hb.2
    exact ⟨n + m, s', by simp only [commitAll, hn, hall]⟩

/-- A batch is added at once exactly when its two parts are added one after the other, and then with
the same rows and as many new ones. -/
theorem joined_of_exists {xs ys : List Transfer}
    (h : (∃ n, (Store.commit (xs ++ ys) s).result = .ok n) ↔
      (∃ a, (Store.commit xs s).result = .ok a) ∧
        ∃ b, (Store.commit ys (Store.commit xs s).store).result = .ok b) (n : ℕ) :
    ((Store.commit (xs ++ ys) s).result = .ok n ↔
      ∃ a b, (Store.commit xs s).result = .ok a ∧
        (Store.commit ys (Store.commit xs s).store).result = .ok b ∧ a + b = n) ∧
      ((Store.commit (xs ++ ys) s).result = .ok n → rows (Store.commit (xs ++ ys) s).store =
        rows (Store.commit ys (Store.commit xs s).store).store) := by
  have hsame : ∀ {n a b}, (Store.commit (xs ++ ys) s).result = .ok n →
      (Store.commit xs s).result = .ok a →
      (Store.commit ys (Store.commit xs s).store).result = .ok b → a + b = n ∧
        rows (Store.commit (xs ++ ys) s).store =
          rows (Store.commit ys (Store.commit xs s).store).store := by
    intro n a b hn ha hb
    obtain ⟨hrows, hlength⟩ := rows_of_ok hn
    obtain ⟨hrowsx, hlengthx⟩ := rows_of_ok ha
    obtain ⟨hrowsy, hlengthy⟩ := rows_of_ok hb
    have heq : rows (Store.commit (xs ++ ys) s).store =
        rows (Store.commit ys (Store.commit xs s).store).store := by
      rw [hrows, hrowsy, hrowsx, List.map_append, enrolAll_append]
    have := congrArg List.length heq
    exact ⟨by omega, heq⟩
  constructor
  · constructor
    · intro hn
      obtain ⟨⟨a, ha⟩, b, hb⟩ := h.1 ⟨n, hn⟩
      exact ⟨a, b, ha, hb, (hsame hn ha hb).1⟩
    · rintro ⟨a, b, ha, hb, rfl⟩
      obtain ⟨n, hn⟩ := h.2 ⟨⟨a, ha⟩, b, hb⟩
      rw [hn, (hsame hn ha hb).1]
  · intro hn
    obtain ⟨⟨a, ha⟩, b, hb⟩ := h.1 ⟨n, hn⟩
    exact (hsame hn ha hb).2

/-- A store ignores batching when its commits succeed for the same transfers however they are
batched, and its listings do not depend on the order in which transfers were added. -/
theorem ignoresBatching {P : Transfer → Prop}
    (hjoin : ∀ xs ys, (∃ n, (Store.commit (xs ++ ys) s).result = .ok n) ↔
      (∃ a, (Store.commit xs s).result = .ok a) ∧
        ∃ b, (Store.commit ys (Store.commit xs s).store).result = .ok b)
    (hadmits : ∀ (s : τ) (batch : List Transfer) (n : ℕ),
      (Store.commit batch s).result = .ok n → ∀ t ∈ batch, P t)
    (haccepts : ∀ (s : τ) (batch : List Transfer), IsReady s → (∀ t ∈ batch, P t) →
      ∃ n, (Store.commit batch s).result = .ok n)
    (hlist : ∀ (s₁ s₂ : τ) (xs ys : List Transfer), rows s₁ = rows s ++ xs.map (row τ) →
      rows s₂ = rows s ++ ys.map (row τ) → xs.Perm ys → (∀ t ∈ xs, P t) → ∀ limit,
        (rows s₁).length ≤ limit → ListsAlike (Store.recent limit s₁) (Store.recent limit s₂)) :
    IgnoresBatching P s where
  joined xs ys n := (joined_of_exists (hjoin xs ys) n).1
  rows_joined xs ys n := (joined_of_exists (hjoin xs ys) n).2
  accepted hs batches :=
    ⟨fun ⟨_, _, hall⟩ => (commitAll_spec hall).2.2 P hadmits, exists_commitAll haccepts hs⟩
  regrouped batches others hperm total total' s₁ s₂ hall₁ hall₂ := by
    obtain ⟨hrows₁, hlength₁, hP⟩ := commitAll_spec hall₁
    obtain ⟨hrows₂, hlength₂, -⟩ := commitAll_spec hall₂
    have hkeys : ∀ k, k ∈ (rows s₁).map (name τ) ↔ k ∈ (rows s₂).map (name τ) := by
      intro k
      rw [hrows₁, hrows₂, mem_map_enrolAll, mem_map_enrolAll,
        ((hperm.map (row τ)).map (name τ)).mem_iff]
    -- The new rows are those of the newcomers among the transfers.
    rw [enrolAll_eq, newcomers_map] at hrows₁ hrows₂
    have hnames :=
      perm_names_newcomers (fun t => name τ (row τ t)) ((rows s).map (name τ)) hperm
    have htotal : total = total' := by
      have h := hnames.length_eq
      rw [List.length_map, List.length_map] at h
      rw [hrows₁, List.length_append, List.length_map] at hlength₁
      rw [hrows₂, List.length_append, List.length_map] at hlength₂
      omega
    refine ⟨htotal, hkeys, fun hsame => ?_⟩
    have hnew := perm_newcomers (fun t => name τ (row τ t)) ((rows s).map (name τ)) hperm
      fun t ht u hu h => hsame t ht u hu ((name_row_iff t u).1 h)
    refine ⟨?_, fun limit hlimit => ?_⟩
    · rw [hrows₁, hrows₂]
      exact (hnew.map (row τ)).append_left (rows s)
    · exact hlist s₁ s₂ _ _ hrows₁ hrows₂ hnew
        (fun t ht => hP P hadmits t ((newcomers_sublist _ _ _).subset ht)) limit hlimit

end LawfulStore

/-! ### The store in memory -/

namespace MemoryStore

variable {s : MemoryStore}

/-- A commit succeeds when no failure is armed and the amounts are in range. -/
theorem exists_ok_iff (batch : List Transfer) :
    (∃ n, (Store.commit batch s).result = .ok n) ↔
      s.armed = none ∧ ∀ t ∈ batch, t.amount.IsInRange := by
  show (∃ n, (commit batch s).result = .ok n) ↔ _
  cases ha : s.armed with
  | some error => simp [commit, ha]
  | none =>
    by_cases hb : ∀ t ∈ batch, t.amount.IsInRange
    · rw [commit_eq_ok ha hb]
      exact ⟨fun _ => ⟨rfl, hb⟩, fun _ => ⟨_, rfl⟩⟩
    · obtain ⟨why, hc⟩ := commit_eq_error ha hb
      simp [hc, hb]

/-- Within the limit everything is listed. -/
theorem recent_of_length_le {limit : ℕ} (h : s.rows.length ≤ limit) :
    recent limit s = s.rows.mergeSort newerOrSame := by
  rw [recent, List.take_of_length_le]
  rwa [List.length_mergeSort]

/-- The same rows in another order are listed alike. -/
theorem recent_alike {s₁ s₂ : MemoryStore} (h : s₁.rows.Perm s₂.rows) {limit : ℕ}
    (hlimit : s₁.rows.length ≤ limit) :
    ListsAlike (Store.recent limit s₁) (Store.recent limit s₂) := by
  show ListsAlike (.ok (recent limit s₁)) (.ok (recent limit s₂))
  rw [recent_of_length_le hlimit, recent_of_length_le (h.length_eq ▸ hlimit)]
  refine .of_pairwise ?_ (List.pairwise_mergeSort newerOrSame_trans newerOrSame_total _)
    (List.pairwise_mergeSort newerOrSame_trans newerOrSame_total _)
  exact (List.mergeSort_perm _ _).trans (h.trans (List.mergeSort_perm _ _).symm)

theorem ignoresBatching (s : MemoryStore) : IgnoresBatching (fun t => t.amount.IsInRange) s := by
  refine LawfulStore.ignoresBatching (fun xs ys => ?_)
    (fun s batch n hn => ((exists_ok_iff batch).1 ⟨n, hn⟩).2)
    (fun s batch hs hb => (exists_ok_iff batch).2 ⟨hs, hb⟩) ?_
  · rw [exists_ok_iff, exists_ok_iff, exists_ok_iff, List.forall_mem_append]
    constructor
    · rintro ⟨hs, hxs, hys⟩
      exact ⟨⟨hs, hxs⟩, isReady_commit (τ := MemoryStore) hs xs, hys⟩
    · rintro ⟨⟨hs, hxs⟩, -, hys⟩
      exact ⟨hs, hxs, hys⟩
  · intro s₁ s₂ xs ys h₁ h₂ hperm _ limit hlimit
    have hrows : s₁.rows.Perm s₂.rows := by
      change s₁.rows = _ at h₁
      change s₂.rows = _ at h₂
      rw [h₁, h₂]
      exact (hperm.map id).append_left s.rows
    exact recent_alike hrows hlimit

end MemoryStore

/-! ### Databases -/

namespace Table

variable {rows : List Cells} {ts : List Transfer} {table₁ table₂ : Table}

theorem map_toTransfer_of_readAll (h : readAll rows = .ok ts) :
    rows.map Cells.toTransfer = ts.map .ok := by
  induction rows generalizing ts with
  | nil =>
    obtain rfl := Except.ok.inj h
    rfl
  | cons r rows ih =>
    rw [readAll] at h
    split at h
    · cases h
    · rename_i t ht
      split at h
      · cases h
      · rename_i us hus
        obtain rfl := Except.ok.inj h
        rw [List.map_cons, List.map_cons, ht, ih hus]

/-- Rows that hold transfers are listed as these are. -/
theorem newerOrSame_of_holds {r q : Cells} {t u : Transfer} (hr : r.Holds t) (hq : q.Holds u) :
    newerOrSame r q = TransferLedger.newerOrSame t u := by
  rw [← newerOrSame_ofTransfer, newerOrSame, hr.blockNumber, hr.logIndex, hq.blockNumber,
    hq.logIndex]
  rfl

/-- The transfers of a listing are in order. -/
theorem pairwise_of_readAll {table : Table} (hstored : ∀ r ∈ table.rows, r.IsStored)
    (h : readAll table.listing = .ok ts) :
    ts.Pairwise fun a b => TransferLedger.newerOrSame a b = true := by
  have hperm := List.mergeSort_perm table.rows newerOrSame
  have hsorted := (isSorting_mergeSort isRanking_newerOrSame table.rows).order
  let R : Except StoreError Transfer → Except StoreError Transfer → Prop := fun x y =>
    ∀ a b, x = .ok a → y = .ok b → TransferLedger.newerOrSame a b = true
  have hread : (ts.map Except.ok).Pairwise R := by
    rw [← map_toTransfer_of_readAll h, List.pairwise_map]
    refine hsorted.imp_of_mem fun {r q} hr hq hle a b ha hb => ?_
    have hholds : ∀ {r t}, r ∈ table.listing → r.toTransfer = .ok t → r.Holds t := by
      intro r t hr ht
      have hexamines := Cells.examines_toTransfer (hstored r (hperm.subset hr))
      rw [ht] at hexamines
      exact hexamines.1
    rwa [← newerOrSame_of_holds (hholds hr ha) (hholds hq hb)]
  exact (List.pairwise_map.1 hread).imp fun {a b} hab => hab a b rfl rfl

/-- Rows that hold no transfer are listed alike, whatever other rows are there. -/
theorem readAll_eq_error_iff_of_filter (h₁ : ∀ r ∈ table₁.rows, r.IsStored)
    (h₂ : ∀ r ∈ table₂.rows, r.IsStored)
    (h : table₁.rows.filter (fun r => !r.toTransfer.isOk) =
      table₂.rows.filter fun r => !r.toTransfer.isOk) (e : StoreError) :
    readAll table₁.listing = .error e ↔ readAll table₂.listing = .error e := by
  have hfault : ∀ table : Table, (∀ r ∈ table.rows, r.IsStored) →
      (readAll table.listing = .error e ↔ IsFirstFault Cells.IsWrong
        ((table.rows.filter fun r => !r.toTransfer.isOk).mergeSort newerOrSame) e) := by
    intro table hstored
    have hlisting : ∀ r ∈ table.listing, r.IsStored := fun r hr =>
      hstored r ((List.mergeSort_perm table.rows newerOrSame).subset hr)
    rw [readAll_eq_error_iff hlisting, ← filter_mergeSort isRanking_newerOrSame]
    refine (isFirstFault_filter_iff fun r hr why hwhy => ?_).symm
    have hexamines := Cells.examines_toTransfer (hlisting r hr)
    cases hread : r.toTransfer with
    | error _ => rfl
    | ok t =>
      rw [hread] at hexamines
      exact absurd hwhy (hexamines.2 r List.mem_cons_self why)
  rw [hfault table₁ h₁, hfault table₂ h₂, h]

/-- Rows made of transfers can be read. -/
theorem filter_map_ofTransfer (ts : List Transfer) :
    (ts.map Cells.ofTransfer).filter (fun r => !r.toTransfer.isOk) = [] := by
  refine List.filter_eq_nil_iff.2 fun r hr => ?_
  obtain ⟨t, -, rfl⟩ := List.mem_map.1 hr
  simp [Cells.toTransfer_ofTransfer, Except.isOk, Except.toBool]

/-- Within the limit the whole listing is read. -/
theorem recent_of_length_le {table : Table} {limit : ℕ} (h : table.rows.length ≤ limit) :
    recent limit table = readAll table.listing := by
  rw [recent, List.take_of_length_le]
  rwa [listing, List.length_mergeSort]

/-- Tables to which the same transfers have been added in another order are listed alike. -/
theorem recent_alike {xs ys : List Transfer} (h₁ : table₁.rows = rows ++ xs.map Cells.ofTransfer)
    (h₂ : table₂.rows = rows ++ ys.map Cells.ofTransfer) (hperm : xs.Perm ys)
    (hstored : ∀ r ∈ rows, r.IsStored) (hxs : ∀ t ∈ xs, t.HasStoredNumbers) {limit : ℕ}
    (hlimit : table₁.rows.length ≤ limit) :
    ListsAlike (recent limit table₁) (recent limit table₂) := by
  have hrows : table₁.rows.Perm table₂.rows := by
    rw [h₁, h₂]
    exact (hperm.map _).append_left rows
  have hstored₁ : ∀ r ∈ table₁.rows, r.IsStored := by
    rw [h₁, List.forall_mem_append]
    refine ⟨hstored, fun r hr => ?_⟩
    obtain ⟨t, ht, rfl⟩ := List.mem_map.1 hr
    exact Cells.isStored_ofTransfer (hxs t ht)
  have hstored₂ : ∀ r ∈ table₂.rows, r.IsStored := fun r hr => hstored₁ r (hrows.mem_iff.2 hr)
  have hfilter : table₁.rows.filter (fun r => !r.toTransfer.isOk) =
      table₂.rows.filter fun r => !r.toTransfer.isOk := by
    rw [h₁, h₂, List.filter_append, List.filter_append, filter_map_ofTransfer,
      filter_map_ofTransfer]
  have herror := readAll_eq_error_iff_of_filter hstored₁ hstored₂ hfilter
  rw [recent_of_length_le hlimit, recent_of_length_le (hrows.length_eq ▸ hlimit)]
  cases hall₁ : readAll table₁.listing with
  | error e =>
    rw [(herror e).1 hall₁]
    exact .error e
  | ok l =>
    cases hall₂ : readAll table₂.listing with
    | error e =>
      rw [(herror e).2 hall₂] at hall₁
      cases hall₁
    | ok l' =>
      refine .of_pairwise ?_ (pairwise_of_readAll hstored₁ hall₁)
        (pairwise_of_readAll hstored₂ hall₂)
      have hlistings : table₁.listing.Perm table₂.listing :=
        (List.mergeSort_perm _ _).trans (hrows.trans (List.mergeSort_perm _ _).symm)
      have hmap := hlistings.map Cells.toTransfer
      rw [map_toTransfer_of_readAll hall₁, map_toTransfer_of_readAll hall₂] at hmap
      exact (List.map_perm_map_iff fun _ _ => Except.ok.inj).1 hmap

end Table

namespace Database

variable {db : Database} {batch : List Transfer}

theorem commit_flags (batch : List Transfer) (db : Database) :
    (commit batch db).store.readOnly = db.readOnly ∧
      (commit batch db).store.blocked = db.blocked := by
  unfold commit
  split
  · exact ⟨rfl, rfl⟩
  · dsimp only
    split
    · split <;> exact ⟨rfl, rfl⟩
    · exact ⟨rfl, rfl⟩

/-- What may be written goes to the table, unless it is new and no journal can be made. -/
theorem result_commit (h : db.readOnly = true → batch = []) :
    (commit batch db).result = match (db.table.commit batch).result with
      | .ok (n + 1) => if db.blocked then .error (.database .cannotOpenBeside) else .ok (n + 1)
      | result => result := by
  have hcommit : commit batch db =
      let c := db.table.commit batch
      match c.result with
      | .ok (_ + 1) =>
        if db.blocked then { result := .error (.database .cannotOpenBeside), store := db }
        else
          let changes := if db.log = .unused then db.changes + 1 else db.changes
          { result := c.result, store := { db with table := c.store, changes }, events := c.events }
      | _ => { result := c.result, store := db, events := c.events } := by
    unfold commit
    split
    · rename_i hw
      exact absurd (h hw) (by simp)
    · rfl
  rw [hcommit]
  cases hr : (db.table.commit batch).result with
  | error e => simp only [hr]
  | ok n =>
    cases n with
    | zero => simp only [hr]
    | succ n => cases hb : db.blocked <;> simp only [hr, Bool.false_eq_true, if_false, if_true]

/-- A commit succeeds when the database may be written or there is nothing to write, everything can
be stored, and there is nothing new or a journal can be made. -/
theorem exists_ok_iff (batch : List Transfer) (db : Database) :
    (∃ n, (Store.commit batch db).result = .ok n) ↔
      (db.readOnly = true → batch = []) ∧ (∀ t ∈ batch, t.IsStorable) ∧
        (db.blocked = true →
          enrolAll Cells.key db.table.rows (batch.map Cells.ofTransfer) = db.table.rows) := by
  show (∃ n, (commit batch db).result = .ok n) ↔ _
  by_cases hw : db.readOnly = true → batch = []
  · rw [result_commit hw]
    by_cases hb : ∀ t ∈ batch, t.IsStorable
    · rw [(Table.commit_eq_ok hb db.table).1, enrolAll_eq]
      cases newcomers Cells.key (db.table.rows.map Cells.key) (batch.map Cells.ofTransfer) with
      | nil =>
        exact ⟨fun _ => ⟨hw, hb, fun _ => List.append_nil _⟩, fun _ => ⟨0, rfl⟩⟩
      | cons r rs =>
        have hother : db.table.rows ++ r :: rs ≠ db.table.rows := by simp
        rw [List.length_cons]
        cases db.blocked with
        | false => exact ⟨fun _ => ⟨hw, hb, nofun⟩, fun _ => ⟨_, rfl⟩⟩
        | true => exact ⟨nofun, fun h => absurd (h.2.2 rfl) hother⟩
    · obtain ⟨why, hc⟩ := Table.commit_eq_error hb
      simp [hc, hb]
  · obtain ⟨hreadOnly, hne⟩ := Classical.not_imp.1 hw
    obtain ⟨t, ts, rfl⟩ := List.exists_cons_of_ne_nil hne
    simp [commit, hreadOnly]

/-- A batch is added exactly when its two parts are added one after the other. -/
theorem exists_ok_append_iff (xs ys : List Transfer) (db : Database) :
    (∃ n, (Store.commit (xs ++ ys) db).result = .ok n) ↔
      (∃ a, (Store.commit xs db).result = .ok a) ∧
        ∃ b, (Store.commit ys (Store.commit xs db).store).result = .ok b := by
  obtain ⟨hw, hb⟩ := commit_flags xs db
  have hrows : ∀ a, (Store.commit xs db).result = .ok a →
      (Store.commit xs db).store.table.rows =
        enrolAll Cells.key db.table.rows (xs.map Cells.ofTransfer) := fun a ha =>
    (rows_of_ok ha).1
  rw [exists_ok_iff, exists_ok_iff ys, List.forall_mem_append, List.map_append]
  constructor
  · rintro ⟨hwrite, ⟨hxs, hys⟩, hnone⟩
    obtain ⟨a, ha⟩ := (exists_ok_iff xs db).2
      ⟨fun h => (List.append_eq_nil_iff.1 (hwrite h)).1, hxs,
        fun h => enrolAll_of_append Cells.key (hnone h)⟩
    refine ⟨⟨a, ha⟩, fun h => ?_, hys, fun h => ?_⟩
    · exact (List.append_eq_nil_iff.1 (hwrite (hw.symm.trans h))).2
    · have hwhole := hnone (hb.symm.trans h)
      rw [hrows a ha, ← enrolAll_append, hwhole, enrolAll_of_append Cells.key hwhole]
  · rintro ⟨⟨a, ha⟩, hwrite, hys, hnone⟩
    obtain ⟨hwritex, hxs, hnonex⟩ := (exists_ok_iff xs db).1 ⟨a, ha⟩
    refine ⟨fun h => ?_, ⟨hxs, hys⟩, fun h => ?_⟩
    · rw [hwritex h, hwrite (hw.trans h), List.append_nil]
    · rw [enrolAll_append, ← hrows a ha, hnone (hb.trans h), hrows a ha, hnonex h]

theorem ignoresBatching (hstored : ∀ r ∈ db.table.rows, r.IsStored) :
    IgnoresBatching Transfer.IsStorable db := by
  refine LawfulStore.ignoresBatching (fun xs ys => exists_ok_append_iff xs ys db)
    (fun db batch n hn => ((exists_ok_iff batch db).1 ⟨n, hn⟩).2.1)
    (fun db batch hs hb => exists_ok hs hb) ?_
  intro db₁ db₂ xs ys h₁ h₂ hperm hxs limit hlimit
  exact Table.recent_alike h₁ h₂ hperm hstored (fun t ht => (hxs t ht).numbers) hlimit

end Database

/-- **How transfers are batched does not matter.** In the store in memory and in a database, in any
state, a batch is added exactly when its two parts are added one after the other, and then with the
same rows and as many new ones. The same transfers, however they are divided into batches and
interleaved, are all added when each of them is acceptable and nothing is in the way; wherever they
are added, as many are new and the same names are taken. If those of one name are the same, the rows
differ in their order only, and listings of everything in the order of transfers of one block and
log index. -/
theorem stores_ignore_batching :
    (∀ s : MemoryStore, IgnoresBatching (fun t => t.amount.IsInRange) s) ∧
      ∀ db : Database, (∀ r ∈ db.table.rows, r.IsStored) →
        IgnoresBatching Transfer.IsStorable db :=
  ⟨MemoryStore.ignoresBatching, fun _ => Database.ignoresBatching⟩

/-- One row is there already, which holds no transfer. -/
theorem stores_ignore_batching_on_sample :
    let db : Database :=
      { table := ⟨[{ Cells.ofTransfer (sampleTransfer 4 1) with amount := .text [] }]⟩ }
    let a := sampleTransfer 1 5
    let b := sampleTransfer 2 6
    let c := sampleTransfer 3 7
    let batches := [[a, b], [b, c]]
    let others := [[c], [], [b, a], [b]]
    (∀ r ∈ db.table.rows, r.IsStored) ∧ batches.flatten.Perm others.flatten ∧
      (∀ t ∈ batches.flatten, t.IsStorable) ∧
      ∃ s₁ s₂, commitAll batches db = .ok (3, s₁) ∧ commitAll others db = .ok (3, s₂) ∧
        s₁.table.rows.Perm s₂.table.rows ∧ ListsAlike (Store.recent 4 s₁) (Store.recent 4 s₂) := by
  intro db a b c batches others
  have hstored : ∀ r ∈ db.table.rows, r.IsStored := by decide +kernel
  have hperm : batches.flatten.Perm others.flatten := by decide +kernel
  have hstorable : ∀ t ∈ batches.flatten, t.IsStorable := by decide +kernel
  have hsame : ∀ t ∈ batches.flatten, ∀ u ∈ batches.flatten, t.key = u.key → t = u := by
    decide +kernel
  have hnew : (commitAll batches db).map Prod.fst = .ok 3 := by decide +kernel
  obtain ⟨hready, hrecords⟩ : IsReady db ∧ IgnoresBatching Transfer.IsStorable db :=
    ⟨⟨rfl, rfl⟩, stores_ignore_batching.2 db hstored⟩
  obtain ⟨total, s₁, hall₁⟩ := (hrecords.accepted hready batches).2 hstorable
  obtain ⟨total', s₂, hall₂⟩ := (hrecords.accepted hready others).2
    fun t ht => hstorable t (hperm.mem_iff.2 ht)
  obtain ⟨rfl, -, hrows⟩ := hrecords.regrouped batches others hperm _ _ _ _ hall₁ hall₂
  rw [hall₁] at hnew
  obtain rfl : total = 3 := Except.ok.inj hnew
  obtain ⟨hrows, hlists⟩ := hrows hsame
  have hlength : s₁.table.rows.length ≤ 4 :=
    ((commitAll_spec hall₁).2.1.symm : s₁.table.rows.length = 1 + 3).le
  exact ⟨hstored, hperm, hstorable, s₁, s₂, hall₁, hall₂, hrows, hlists 4 hlength⟩

end TransferLedger
