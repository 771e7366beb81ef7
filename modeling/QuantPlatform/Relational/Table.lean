/-
Rows under a unique constraint.

A table is a list of rows with the fact that no two of them share a key, which
is what a `UNIQUE` constraint keeps true of it.  The list is the order in which
rows were first written.  A query may return rows in any order, so everything a
reader can learn about a table is `find`: the row stored under a key, if there
is one.

The one write is `INSERT … ON CONFLICT (key) DO UPDATE SET …`.  Its `SET`
clause is a `ConflictClause`, which carries the proof that it leaves the key
alone, so a write always yields a table again.
-/
import Mathlib.Data.List.Nodup
import Mathlib.Data.List.Lemmas

namespace Relational

variable {ρ κ : Type*} {key : ρ → κ}

/-- A list of rows in which no two share a key. -/
structure Table (ρ : Type*) {κ : Type*} (key : ρ → κ) where
  rows : List ρ
  unique : (rows.map key).Nodup

/-- The `SET` clause of an upsert: the stored row and the row that collided with
it give the row stored next, under the same key. -/
structure ConflictClause (ρ : Type*) {κ : Type*} (key : ρ → κ) where
  set : ρ → ρ → ρ
  key_set : ∀ old new, key (set old new) = key old

namespace Table

def empty : Table ρ key := { rows := [], unique := List.nodup_nil }

/-- The rows of a table that pass a test. -/
def restrict (t : Table ρ key) (p : ρ → Bool) : Table ρ key where
  rows := t.rows.filter p
  unique := t.unique.sublist (List.filter_sublist.map key)

theorem eq_of_key_eq (t : Table ρ key) {r s : ρ} (hr : r ∈ t.rows) (hs : s ∈ t.rows)
    (h : key r = key s) : r = s :=
  List.inj_on_of_nodup_map t.unique hr hs h

theorem rows_nodup (t : Table ρ key) : t.rows.Nodup := t.unique.of_map key

theorem unique_map_set [DecidableEq κ] (c : ConflictClause ρ key) (t : Table ρ key) (new : ρ) :
    ((t.rows.map fun r => if key r = key new then c.set r new else r).map key).Nodup := by
  have hkeys : (t.rows.map fun r => if key r = key new then c.set r new else r).map key
      = t.rows.map key := by
    rw [List.map_map]
    refine List.map_congr_left fun r _ => ?_
    simp only [Function.comp_apply]
    split
    · exact c.key_set r new
    · rfl
  rw [hkeys]
  exact t.unique

theorem unique_append (t : Table ρ key) {new : ρ} (h : ¬ ∃ r ∈ t.rows, key r = key new) :
    ((t.rows ++ [new]).map key).Nodup := by
  rw [List.map_append, List.map_singleton, List.nodup_append]
  refine ⟨t.unique, List.nodup_singleton _, ?_⟩
  intro k hk l hl
  obtain ⟨r, hr, rfl⟩ := List.mem_map.mp hk
  rw [List.mem_singleton.mp hl]
  exact fun he => h ⟨r, hr, he⟩

variable [DecidableEq κ]

/-- The row stored under a key. -/
def find (t : Table ρ key) (k : κ) : Option ρ := t.rows.find? fun r => key r = k

theorem find_eq_some_iff (t : Table ρ key) (k : κ) (r : ρ) :
    t.find k = some r ↔ r ∈ t.rows ∧ key r = k := by
  constructor
  · intro h
    exact ⟨List.mem_of_find?_eq_some h, by simpa using List.find?_some h⟩
  · intro h
    obtain ⟨hr, rfl⟩ := h
    cases h : t.find (key r) with
    | none =>
        have hnone := List.find?_eq_none.mp h r hr
        simp at hnone
    | some s =>
        have hs : key s = key r := by simpa using List.find?_some h
        rw [t.eq_of_key_eq (List.mem_of_find?_eq_some h) hr hs]

theorem mem_rows_iff (t : Table ρ key) (r : ρ) : r ∈ t.rows ↔ t.find (key r) = some r := by
  rw [find_eq_some_iff]
  exact ⟨fun h => ⟨h, rfl⟩, And.left⟩

theorem find_eq_none_iff (t : Table ρ key) (k : κ) :
    t.find k = none ↔ ∀ r ∈ t.rows, key r ≠ k := by
  simp [find, List.find?_eq_none]

theorem key_of_find {t : Table ρ key} {k : κ} {r : ρ} (h : t.find k = some r) : key r = k :=
  ((find_eq_some_iff t k r).mp h).2

/-- `INSERT … ON CONFLICT (key) DO UPDATE SET …` of one row. -/
def insert (c : ConflictClause ρ key) (t : Table ρ key) (new : ρ) : Table ρ key :=
  if h : ∃ r ∈ t.rows, key r = key new then
    { rows := t.rows.map fun r => if key r = key new then c.set r new else r
      unique := unique_map_set c t new }
  else
    { rows := t.rows ++ [new]
      unique := unique_append t h }

theorem rows_insert_of_exists (c : ConflictClause ρ key) {t : Table ρ key} {new : ρ}
    (h : ∃ r ∈ t.rows, key r = key new) :
    (t.insert c new).rows = t.rows.map fun r => if key r = key new then c.set r new else r := by
  rw [insert, dif_pos h]

theorem rows_insert_of_not_exists (c : ConflictClause ρ key) {t : Table ρ key} {new : ρ}
    (h : ¬ ∃ r ∈ t.rows, key r = key new) : (t.insert c new).rows = t.rows ++ [new] := by
  rw [insert, dif_neg h]

omit [DecidableEq κ] in
theorem eq_of_rows_eq {t t' : Table ρ key} (h : t.rows = t'.rows) : t = t' := by
  cases t
  cases t'
  cases h
  rfl

/-- Of two upserts of one key the second is enough when its `SET` clause overrides the first. -/
theorem insert_insert (c : ConflictClause ρ key) (t : Table ρ key) {first second : ρ}
    (hkey : key first = key second)
    (hset : ∀ old, c.set (c.set old first) second = c.set old second)
    (hnew : c.set first second = second) :
    (t.insert c first).insert c second = t.insert c second := by
  refine eq_of_rows_eq ?_
  by_cases h : ∃ r ∈ t.rows, key r = key second
  · have hfirst : ∃ r ∈ t.rows, key r = key first := hkey ▸ h
    have hagain : ∃ r ∈ (t.insert c first).rows, key r = key second := by
      obtain ⟨r, hr, hkr⟩ := id hfirst
      rw [rows_insert_of_exists c hfirst]
      refine ⟨_, List.mem_map_of_mem hr, ?_⟩
      rw [if_pos hkr, c.key_set, hkr, hkey]
    rw [rows_insert_of_exists c hagain, rows_insert_of_exists c hfirst, rows_insert_of_exists c h,
      List.map_map]
    refine List.map_congr_left fun r _ => ?_
    simp only [Function.comp_apply, hkey]
    by_cases hr : key r = key second
    · rw [if_pos hr, c.key_set, if_pos hr, hset, if_pos hr]
    · rw [if_neg hr, if_neg hr]
  · have hfirst : ¬ ∃ r ∈ t.rows, key r = key first := hkey ▸ h
    have hagain : ∃ r ∈ (t.insert c first).rows, key r = key second := by
      rw [rows_insert_of_not_exists c hfirst]
      exact ⟨first, List.mem_append_right _ (List.mem_singleton_self first), hkey⟩
    have hkept : ∀ r ∈ t.rows, (if key r = key second then c.set r second else r) = id r :=
      fun r hr => if_neg fun hkr => h ⟨r, hr, hkr⟩
    rw [rows_insert_of_exists c hagain, rows_insert_of_not_exists c hfirst,
      rows_insert_of_not_exists c h, List.map_append, List.map_congr_left hkept, List.map_id,
      List.map_singleton, if_pos hkey, hnew]

/-- The row an upsert leaves under the key it writes. -/
def stored (c : ConflictClause ρ key) (old : Option ρ) (new : ρ) : ρ :=
  match old with
  | none => new
  | some old => c.set old new

theorem key_stored (c : ConflictClause ρ key) {t : Table ρ key} (new : ρ) :
    key (stored c (t.find (key new)) new) = key new := by
  cases h : t.find (key new) with
  | none => rfl
  | some old => exact (c.key_set old new).trans (key_of_find h)

/-- What an upsert does to every lookup: it writes one key and frames the rest. -/
theorem find_insert (c : ConflictClause ρ key) (t : Table ρ key) (new : ρ) (k : κ) :
    (t.insert c new).find k =
      if k = key new then some (stored c (t.find k) new) else t.find k := by
  unfold insert
  split
  · rename_i h
    obtain ⟨old, hold, hkey⟩ := h
    have hfind : t.find (key new) = some old := (find_eq_some_iff t _ _).mpr ⟨hold, hkey⟩
    by_cases hk : k = key new
    · subst hk
      rw [if_pos rfl, hfind, find_eq_some_iff]
      refine ⟨List.mem_map.mpr ⟨old, hold, if_pos hkey⟩, ?_⟩
      exact (c.key_set old new).trans hkey
    · rw [if_neg hk]
      refine Option.ext fun r => ?_
      rw [find_eq_some_iff, find_eq_some_iff]
      constructor
      · intro h
        obtain ⟨hr, rfl⟩ := h
        obtain ⟨s, hs, rfl⟩ := List.mem_map.mp hr
        by_cases hsk : key s = key new
        · rw [if_pos hsk, c.key_set] at hk
          exact absurd hsk hk
        · rw [if_neg hsk]
          exact ⟨hs, rfl⟩
      · intro h
        obtain ⟨hr, rfl⟩ := h
        exact ⟨List.mem_map.mpr ⟨r, hr, if_neg hk⟩, rfl⟩
  · rename_i h
    have hnone : t.find (key new) = none :=
      (find_eq_none_iff t _).mpr fun r hr he => h ⟨r, hr, he⟩
    by_cases hk : k = key new
    · subst hk
      rw [if_pos rfl, hnone, find_eq_some_iff]
      exact ⟨List.mem_append_right _ (List.mem_singleton_self new), rfl⟩
    · rw [if_neg hk]
      refine Option.ext fun r => ?_
      rw [find_eq_some_iff, find_eq_some_iff, List.mem_append, List.mem_singleton]
      constructor
      · intro h
        obtain ⟨hr | rfl, hkr⟩ := h
        · exact ⟨hr, hkr⟩
        · exact absurd hkr.symm hk
      · intro h
        obtain ⟨hr, hkr⟩ := h
        exact ⟨Or.inl hr, hkr⟩

theorem find_insert_self (c : ConflictClause ρ key) (t : Table ρ key) (new : ρ) :
    (t.insert c new).find (key new) = some (stored c (t.find (key new)) new) := by
  rw [find_insert, if_pos rfl]

theorem find_insert_of_ne (c : ConflictClause ρ key) (t : Table ρ key) {new : ρ} {k : κ}
    (h : k ≠ key new) : (t.insert c new).find k = t.find k := by
  rw [find_insert, if_neg h]

theorem mem_insert_iff (c : ConflictClause ρ key) (t : Table ρ key) (new r : ρ) :
    r ∈ (t.insert c new).rows ↔
      r = stored c (t.find (key new)) new ∨ (r ∈ t.rows ∧ key r ≠ key new) := by
  rw [mem_rows_iff, find_insert]
  by_cases hk : key r = key new
  · rw [if_pos hk, hk]
    simp only [Option.some.injEq, ne_eq, not_true_eq_false, and_false, or_false]
    exact eq_comm
  · rw [if_neg hk, ← mem_rows_iff]
    constructor
    · exact fun h => Or.inr ⟨h, hk⟩
    · intro h
      rcases h with rfl | h
      · exact absurd (key_stored c new) hk
      · exact h.1

theorem length_insert (c : ConflictClause ρ key) (t : Table ρ key) (new : ρ) :
    (t.insert c new).rows.length =
      t.rows.length + if (t.find (key new)).isSome then 0 else 1 := by
  unfold insert
  split
  · rename_i h
    obtain ⟨old, hold, hkey⟩ := h
    have hfind : t.find (key new) = some old := (find_eq_some_iff t _ _).mpr ⟨hold, hkey⟩
    simp [hfind]
  · rename_i h
    have hnone : t.find (key new) = none :=
      (find_eq_none_iff t _).mpr fun r hr he => h ⟨r, hr, he⟩
    simp [hnone]

/-! ## Bulk upsert

One statement with several rows is refused by the database when two of them
share a key.  When it is not refused it equals the rows upserted one by one. -/

def insertAll (c : ConflictClause ρ key) (t : Table ρ key) (news : List ρ) : Table ρ key :=
  news.foldl (insert c) t

section Map

variable {σ : Type*} {key' : σ → κ} {f : ρ → σ} (hf : ∀ r, key' (f r) = key r)

omit [DecidableEq κ] in
/-- Each row changed for another under the same key. -/
def map (t : Table ρ key) : Table σ key' where
  rows := t.rows.map f
  unique := by
    rw [List.map_map, show key' ∘ f = key from funext hf]
    exact t.unique

variable {c : ConflictClause ρ key} {c' : ConflictClause σ key'}
  (hset : ∀ old new, key old = key new → f (c.set old new) = c'.set (f old) (f new))

include hset

theorem map_insert (t : Table ρ key) (new : ρ) :
    (t.insert c new).map hf = (t.map hf).insert c' (f new) := by
  refine eq_of_rows_eq ?_
  have hkeys : (∃ r ∈ (t.map hf).rows, key' r = key' (f new)) ↔
      ∃ r ∈ t.rows, key r = key new := by
    show (∃ r ∈ t.rows.map f, _) ↔ _
    simp [hf]
  by_cases h : ∃ r ∈ t.rows, key r = key new
  · rw [rows_insert_of_exists c' (hkeys.mpr h)]
    show (t.insert c new).rows.map f = (t.rows.map f).map _
    rw [rows_insert_of_exists c h, List.map_map, List.map_map]
    refine List.map_congr_left fun r _ => ?_
    simp only [Function.comp_apply, hf]
    by_cases hr : key r = key new
    · rw [if_pos hr, if_pos hr, hset r new hr]
    · rw [if_neg hr, if_neg hr]
  · rw [rows_insert_of_not_exists c' fun h' => h (hkeys.mp h')]
    show (t.insert c new).rows.map f = t.rows.map f ++ [f new]
    rw [rows_insert_of_not_exists c h, List.map_append, List.map_singleton]

theorem map_insertAll (t : Table ρ key) (news : List ρ) :
    (t.insertAll c news).map hf = (t.map hf).insertAll c' (news.map f) := by
  induction news generalizing t with
  | nil => rfl
  | cons new rest ih =>
    rw [insertAll, List.foldl_cons, ← insertAll, ih, map_insert hf hset]
    rfl

end Map

theorem find_insertAll_of_not_mem (c : ConflictClause ρ key) {news : List ρ} {k : κ}
    (h : k ∉ news.map key) (t : Table ρ key) : (t.insertAll c news).find k = t.find k := by
  induction news generalizing t with
  | nil => rfl
  | cons new rest ih =>
    rw [List.map_cons, List.mem_cons, not_or] at h
    exact (ih h.2 (t.insert c new)).trans (find_insert_of_ne c t h.1)

theorem find_insertAll_of_mem (c : ConflictClause ρ key) {news : List ρ}
    (hn : (news.map key).Nodup) {new : ρ} (h : new ∈ news) (t : Table ρ key) :
    (t.insertAll c news).find (key new) = some (stored c (t.find (key new)) new) := by
  induction news generalizing t with
  | nil => cases h
  | cons first rest ih =>
    rw [List.map_cons, List.nodup_cons] at hn
    rcases List.mem_cons.mp h with rfl | hrest
    · exact (find_insertAll_of_not_mem c hn.1 _).trans (find_insert_self c t new)
    · have hne : key new ≠ key first := by
        intro he
        exact hn.1 (he ▸ List.mem_map_of_mem hrest)
      have hstep := ih hn.2 hrest (t.insert c first)
      rw [find_insert_of_ne c t hne] at hstep
      exact hstep

/-- The rows of a table after a bulk upsert: what was written, and what no
written key covers. -/
theorem mem_insertAll_iff (c : ConflictClause ρ key) {news : List ρ}
    (hn : (news.map key).Nodup) (t : Table ρ key) (r : ρ) :
    r ∈ (t.insertAll c news).rows ↔
      (∃ new ∈ news, r = stored c (t.find (key new)) new) ∨
        (r ∈ t.rows ∧ key r ∉ news.map key) := by
  rw [mem_rows_iff]
  by_cases hk : key r ∈ news.map key
  · obtain ⟨new, hnew, hkey⟩ := List.mem_map.mp hk
    have hfind := find_insertAll_of_mem c hn hnew t
    rw [hkey] at hfind
    rw [hfind]
    constructor
    · intro h
      rw [Option.some.injEq] at h
      exact Or.inl ⟨new, hnew, by rw [hkey]; exact h.symm⟩
    · intro h
      rcases h with ⟨new', hnew', hr⟩ | ⟨_, hnot⟩
      · have hkey' : key r = key new' := hr ▸ key_stored c new'
        have hsame : new = new' :=
          List.inj_on_of_nodup_map hn hnew hnew' (hkey.trans hkey')
        rw [hkey', hsame, ← hr]
      · exact absurd hk hnot
  · rw [find_insertAll_of_not_mem c hk, ← mem_rows_iff]
    constructor
    · exact fun h => Or.inr ⟨h, hk⟩
    · intro h
      rcases h with ⟨new, hnew, hr⟩ | h
      · have hkey : key r = key new := hr ▸ key_stored c new
        exact absurd (hkey ▸ List.mem_map_of_mem hnew) hk
      · exact h.1

end Table
end Relational
