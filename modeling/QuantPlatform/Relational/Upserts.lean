import QuantPlatform.Relational.Query
import QuantPlatform.Relational.Table
import Mathlib.Data.List.Induction

namespace Relational

variable {ρ κ : Type*} {key : ρ → κ} [DecidableEq κ]

theorem firstPerKey_append (rows later : List ρ) :
    firstPerKey key (rows ++ later) =
      firstPerKey key rows ++ (firstPerKey key later).filter fun s => key s ∉ rows.map key := by
  induction rows with
  | nil =>
    rw [List.nil_append, firstPerKey, List.nil_append, List.filter_eq_self.mpr]
    intro s _
    simp
  | cons r rest ih =>
    rw [List.cons_append, firstPerKey, ih, List.filter_append, List.filter_filter, firstPerKey,
      List.cons_append]
    congr 2
    refine List.filter_congr fun s _ => ?_
    simp [not_or]

theorem firstPerKey_sublist (key : ρ → κ) (rows : List ρ) : (firstPerKey key rows).Sublist rows := by
  induction rows with
  | nil => exact List.Sublist.refl _
  | cons r rest ih => exact (List.filter_sublist.trans ih).cons_cons r

theorem mem_firstPerKey_iff (rows : List ρ) (r : ρ) :
    r ∈ firstPerKey key rows ↔ rows.find? (fun s => key s = key r) = some r := by
  induction rows with
  | nil => simp [firstPerKey]
  | cons s rest ih =>
    rw [firstPerKey, List.mem_cons, List.mem_filter, ih]
    by_cases hs : key s = key r
    · rw [List.find?_cons_of_pos (by simpa using hs), Option.some.injEq, hs]
      simp [eq_comm]
    · have hne : r ≠ s := fun h => hs (congrArg key h.symm)
      rw [List.find?_cons_of_neg (by simpa using hs)]
      simp [hne, Ne.symm hs]

namespace Table

/-- `ON CONFLICT DO NOTHING`: the first row of each key stays, and nothing else gets in. -/
theorem rows_insertAll_of_keeps {c : ConflictClause ρ key} (hkeep : ∀ old new, c.set old new = old)
    (news : List ρ) : ((empty : Table ρ key).insertAll c news).rows = firstPerKey key news := by
  induction news using List.reverseRecOn with
  | nil => rfl
  | append_singleton news new ih =>
    have hlast : (empty : Table ρ key).insertAll c (news ++ [new]) =
        ((empty : Table ρ key).insertAll c news).insert c new := List.foldl_append
    rw [hlast, firstPerKey_append, ← ih]
    have hkeys : (∃ r ∈ ((empty : Table ρ key).insertAll c news).rows, key r = key new) ↔
        key new ∈ news.map key := by
      rw [ih]
      constructor
      · intro h
        obtain ⟨r, hr, hkey⟩ := h
        exact List.mem_map.mpr ⟨r, mem_of_mem_firstPerKey key hr, hkey⟩
      · intro h
        obtain ⟨r, hr, hkey⟩ := List.mem_map.mp h
        obtain ⟨s, hs, hsr⟩ := exists_mem_firstPerKey key hr
        exact ⟨s, hs, hsr.trans hkey⟩
    have hone : firstPerKey key [new] = [new] := rfl
    rw [hone]
    by_cases h : key new ∈ news.map key
    · rw [rows_insert_of_exists c (hkeys.mpr h), List.filter_cons_of_neg (by simpa using h)]
      simp [hkeep]
    · rw [rows_insert_of_not_exists c (fun hexists => h (hkeys.mp hexists)),
        List.filter_cons_of_pos (by simpa using h), List.filter_nil]

theorem find_insertAll (c : ConflictClause ρ key) (t : Table ρ key) (news : List ρ) (k : κ) :
    (t.insertAll c news).find k =
      (news.filter fun new => key new = k).foldl (fun old new => some (stored c old new))
        (t.find k) := by
  induction news generalizing t with
  | nil => rfl
  | cons new rest ih =>
    have hstep := ih (t.insert c new)
    rw [find_insert] at hstep
    by_cases hk : key new = k
    · rw [List.filter_cons_of_pos (by simpa using hk), List.foldl_cons]
      rw [if_pos hk.symm, ← hk] at hstep
      rw [← hk]
      exact hstep
    · rw [List.filter_cons_of_neg (by simpa using hk)]
      rw [if_neg (Ne.symm hk)] at hstep
      exact hstep

/-- What a run of writes says of a key: the first row under it, as the last one sets it. -/
def observed (c : ConflictClause ρ key) (news : List ρ) (k : κ) : Option ρ :=
  let rows := news.filter fun new => key new = k
  rows.head?.bind fun first => rows.getLast?.map (c.set first)

/-- A column that the clause does not set is that of the first row. -/
theorem map_observed {α : Type*} {c : ConflictClause ρ key} {col : ρ → α}
    (hcol : ∀ old new, col (c.set old new) = col old) (news : List ρ) (k : κ) :
    (observed c news k).map col = (news.find? fun new => key new = k).map col := by
  rw [observed, ← List.head?_filter]
  cases news.filter fun new => key new = k with
  | nil => rfl
  | cons first rest =>
    rw [List.head?_cons, List.getLast?_cons]
    exact congrArg some (hcol first _)

theorem key_of_observed {c : ConflictClause ρ key} {news : List ρ} {k : κ} {r : ρ}
    (h : observed c news k = some r) : key r = k := by
  have hkey := map_observed c.key_set news k
  rw [h] at hkey
  obtain ⟨s, hs, hsr⟩ := Option.map_eq_some_iff.mp hkey.symm
  rw [← hsr]
  simpa using List.find?_some hs

/-- A clause whose last write wins, and under which a row says what it is. -/
structure Overwrites (c : ConflictClause ρ key) : Prop where
  set_set : ∀ old new last, c.set (c.set old new) last = c.set old last
  set_self : ∀ row, c.set row row = row

omit [DecidableEq κ] in
theorem Overwrites.foldl_stored {c : ConflictClause ρ key} (hc : Overwrites c) (old : ρ)
    (news : List ρ) :
    news.foldl (fun old new => some (stored c old new)) (some old) =
      some (((news.getLast?).map (c.set old)).getD old) := by
  induction news using List.reverseRecOn with
  | nil => rfl
  | append_singleton news new ih =>
    rw [List.foldl_append, ih, List.getLast?_append_of_ne_nil _ (List.cons_ne_nil _ _)]
    cases news.getLast? with
    | none => rfl
    | some last => exact congrArg some (hc.set_set old last new)

theorem find_insertAll_empty {c : ConflictClause ρ key} (hc : Overwrites c) (news : List ρ)
    (k : κ) : ((empty : Table ρ key).insertAll c news).find k = observed c news k := by
  rw [find_insertAll, observed]
  cases news.filter fun new => key new = k with
  | nil => rfl
  | cons first rest =>
    show rest.foldl (fun old new => some (stored c old new)) (some first) = _
    rw [hc.foldl_stored]
    cases hrest : rest.getLast? with
    | none =>
      rw [List.getLast?_eq_none_iff] at hrest
      rw [hrest]
      exact congrArg some (hc.set_self first).symm
    | some last =>
      rw [List.getLast?_cons, hrest]
      rfl

/-- A write does not show to a reader who sees neither the new row nor the row it lands on,
before or after. -/
theorem filter_insert {c : ConflictClause ρ key} {t : Table ρ key} {new : ρ} {p : ρ → Bool}
    (hnew : p new = false)
    (hold : ∀ r ∈ t.rows, key r = key new → p r = false ∧ p (c.set r new) = false) :
    (t.insert c new).rows.filter p = t.rows.filter p := by
  by_cases h : ∃ r ∈ t.rows, key r = key new
  · rw [rows_insert_of_exists c h]
    generalize t.rows = rows at hold
    induction rows with
    | nil => rfl
    | cons r rows ih =>
      have hrest := ih fun s hs => hold s (List.mem_cons_of_mem r hs)
      rw [List.map_cons]
      by_cases hkey : key r = key new
      · obtain ⟨hr, hset⟩ := hold r List.mem_cons_self hkey
        rw [if_pos hkey, List.filter_cons_of_neg (by simp [hset]),
          List.filter_cons_of_neg (by simp [hr]), hrest]
      · rw [if_neg hkey]
        cases hp : p r with
        | true => rw [List.filter_cons_of_pos hp, List.filter_cons_of_pos hp, hrest]
        | false =>
          rw [List.filter_cons_of_neg (by simp [hp]), List.filter_cons_of_neg (by simp [hp]),
            hrest]
  · rw [rows_insert_of_not_exists c h, List.filter_append, List.filter_cons_of_neg (by simp [hnew]),
      List.filter_nil, List.append_nil]

/-- A reader who goes by the key sees nothing of rows with other keys. -/
theorem filter_insertAll {c : ConflictClause ρ key} {p : κ → Bool} {news : List ρ}
    (h : ∀ new ∈ news, p (key new) = false) (t : Table ρ key) :
    (t.insertAll c news).rows.filter (fun r => p (key r)) = t.rows.filter fun r => p (key r) := by
  induction news generalizing t with
  | nil => rfl
  | cons new rest ih =>
    have hnew := h new List.mem_cons_self
    refine (ih (fun new' hnew' => h new' (List.mem_cons_of_mem new hnew')) (t.insert c new)).trans ?_
    exact filter_insert hnew fun r _ hkey =>
      ⟨hkey ▸ hnew, by rw [c.key_set, hkey]; exact hnew⟩

end Table

end Relational
