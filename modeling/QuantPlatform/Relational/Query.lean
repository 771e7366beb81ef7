/-
`ORDER BY` and `DISTINCT ON`.

SQL fixes the order of a result only as far as the `ORDER BY` clause goes: rows
that compare equal may come in any order, and in a different one the next time.
`OrderBy le` is therefore not a sorting algorithm but any arrangement that
respects `le`.  A statement about one query takes an arbitrary arrangement, and
a statement that compares two queries takes two.

`distinctOn` keeps, of the rows that share a key, the one that its ordering puts
first.
-/
import Mathlib.Data.List.Sort
import Mathlib.Data.List.Nodup

namespace Relational

variable {ρ κ : Type*}

/-- The same rows, and the column they are ordered by reads the same down both:
only rows that tie on it may have changed places. -/
def SameUpToTies {τ : Type*} (col : ρ → τ) (rows rows' : List ρ) : Prop :=
  rows.Perm rows' ∧ rows.map col = rows'.map col

theorem sameUpToTies_of_perm {τ : Type*} [LinearOrder τ] {col : ρ → τ} {rows rows' : List ρ}
    (hperm : rows.Perm rows') (hrows : rows.Pairwise fun a b => col a ≤ col b)
    (hrows' : rows'.Pairwise fun a b => col a ≤ col b) : SameUpToTies col rows rows' := by
  have hsorted : (rows.map col).Pairwise (· ≤ ·) := List.pairwise_map.mpr hrows
  have hsorted' : (rows'.map col).Pairwise (· ≤ ·) := List.pairwise_map.mpr hrows'
  exact ⟨hperm, (hperm.map col).eq_of_pairwise (fun a b _ _ hab hba => le_antisymm hab hba)
    hsorted hsorted'⟩

theorem SameUpToTies.map {σ τ : Type*} {col : ρ → τ} {col' : σ → τ} {f : ρ → σ}
    (hcol : ∀ r, col' (f r) = col r) {rows rows' : List ρ} (h : SameUpToTies col rows rows') :
    SameUpToTies col' (rows.map f) (rows'.map f) := by
  refine ⟨h.1.map f, ?_⟩
  rw [List.map_map, List.map_map, show col' ∘ f = col from funext hcol]
  exact h.2

/-- What `ORDER BY` promises: the selected rows, arranged so that `le` is never
violated. -/
structure OrderBy (ρ : Type*) (le : ρ → ρ → Prop) where
  arrange : List ρ → List ρ
  perm : ∀ rows, (arrange rows).Perm rows
  sorted : ∀ rows, (arrange rows).Pairwise le

namespace OrderBy

variable {le : ρ → ρ → Prop}

/-- `ORDER BY col`, with ties left in the order in which the rows come. -/
def byColumn {τ : Type*} [LinearOrder τ] (col : ρ → τ) : OrderBy ρ fun a b => col a ≤ col b :=
  have : Std.Total fun a b : ρ => col a ≤ col b := ⟨fun a b => le_total (col a) (col b)⟩
  have : IsTrans ρ fun a b => col a ≤ col b := ⟨fun _ _ _ => le_trans⟩
  { arrange := List.insertionSort fun a b => col a ≤ col b
    perm := List.perm_insertionSort _
    sorted := List.pairwise_insertionSort _ }

/-- `ORDER BY col DESC`. -/
def byColumnDesc {τ : Type*} [LinearOrder τ] (col : ρ → τ) : OrderBy ρ fun a b => col b ≤ col a :=
  byColumn fun r => OrderDual.toDual (col r)

theorem mem_arrange_iff (o : OrderBy ρ le) (rows : List ρ) (r : ρ) :
    r ∈ o.arrange rows ↔ r ∈ rows := (o.perm rows).mem_iff

theorem sameUpToTies_arrange {τ : Type*} [LinearOrder τ] {col : ρ → τ}
    (o o' : OrderBy ρ fun a b => col a ≤ col b) {rows rows' : List ρ} (h : rows.Perm rows') :
    SameUpToTies col (o.arrange rows) (o'.arrange rows') :=
  sameUpToTies_of_perm ((o.perm rows).trans (h.trans (o'.perm rows').symm))
    (o.sorted rows) (o'.sorted rows')

/-- Any list of the selected rows that respects `le` is what some arrangement gives. -/
theorem exists_arrange_eq (o : OrderBy ρ le) {rows target : List ρ} (hperm : target.Perm rows)
    (hsorted : target.Pairwise le) : ∃ o' : OrderBy ρ le, o'.arrange rows = target := by
  classical
  refine ⟨{ arrange := fun l => if l = rows then target else o.arrange l
            perm := fun l => ?_
            sorted := fun l => ?_ }, if_pos rfl⟩
  · by_cases hl : l = rows
    · simp only [hl, if_true]
      exact hperm
    · simp only [hl, if_false]
      exact o.perm l
  · by_cases hl : l = rows
    · simp only [hl, if_true]
      exact hsorted
    · simp only [hl, if_false]
      exact o.sorted l

/-- Of the rows that come first, `le` leaves open which one does. -/
theorem exists_head_arrange (o : OrderBy ρ le) {rows : List ρ} {r : ρ} (hr : r ∈ rows)
    (hfirst : ∀ s ∈ rows, le r s) : ∃ o' : OrderBy ρ le, (o'.arrange rows).head? = some r := by
  classical
  have hperm : (r :: o.arrange (rows.erase r)).Perm rows :=
    ((o.perm _).cons r).trans (List.perm_cons_erase hr).symm
  have hsorted : (r :: o.arrange (rows.erase r)).Pairwise le := by
    rw [List.pairwise_cons]
    refine ⟨fun s hs => ?_, o.sorted _⟩
    exact hfirst s (List.mem_of_mem_erase ((o.mem_arrange_iff _ s).mp hs))
  obtain ⟨o', ho'⟩ := o.exists_arrange_eq hperm hsorted
  exact ⟨o', by rw [ho']; rfl⟩

/-- `LIMIT`: what is left out comes after every row that is not. -/
theorem take_arrange (o : OrderBy ρ le) (rows : List ρ) (limit : ℕ) :
    ∃ rest, ((o.arrange rows).take limit ++ rest).Perm rows ∧
      ((o.arrange rows).take limit).Pairwise le ∧
      (∀ r ∈ (o.arrange rows).take limit, ∀ s ∈ rest, le r s) ∧
      (rest ≠ [] → ((o.arrange rows).take limit).length = limit) := by
  have hsorted := o.sorted rows
  rw [← List.take_append_drop limit (o.arrange rows), List.pairwise_append] at hsorted
  refine ⟨(o.arrange rows).drop limit, ?_, hsorted.1, hsorted.2.2, fun hrest => ?_⟩
  · rw [List.take_append_drop]
    exact o.perm rows
  · rw [List.length_take, Nat.min_eq_left]
    by_contra hshort
    exact hrest (List.drop_eq_nil_of_le (Nat.le_of_lt (Nat.lt_of_not_le hshort)))

/-- The first row of an arrangement comes before every other row. -/
theorem le_of_head_arrange (o : OrderBy ρ le) {rows : List ρ} {r : ρ}
    (h : (o.arrange rows).head? = some r) : r ∈ rows ∧ ∀ s ∈ rows, s = r ∨ le r s := by
  obtain ⟨rest, hrest⟩ := List.head?_eq_some_iff.mp h
  have hsorted := o.sorted rows
  rw [hrest, List.pairwise_cons] at hsorted
  have hmem : ∀ s, s ∈ rows ↔ s = r ∨ s ∈ rest := by
    intro s
    rw [← o.mem_arrange_iff rows s, hrest, List.mem_cons]
  refine ⟨(hmem r).mpr (Or.inl rfl), fun s hs => ?_⟩
  rcases (hmem s).mp hs with hs | hs
  · exact Or.inl hs
  · exact Or.inr (hsorted.1 s hs)

end OrderBy

section DistinctOn

variable [DecidableEq κ] (key : ρ → κ)

/-- The first row of each key, in the order of the list. -/
def firstPerKey : List ρ → List ρ
  | [] => []
  | r :: rest => r :: (firstPerKey rest).filter fun s => key s ≠ key r

theorem mem_of_mem_firstPerKey {rows : List ρ} {r : ρ} (h : r ∈ firstPerKey key rows) :
    r ∈ rows := by
  induction rows with
  | nil => cases h
  | cons s rest ih =>
    rw [firstPerKey, List.mem_cons, List.mem_filter] at h
    rcases h with rfl | ⟨h, _⟩
    · exact List.mem_cons_self
    · exact List.mem_cons_of_mem s (ih h)

theorem keys_firstPerKey_nodup (rows : List ρ) : ((firstPerKey key rows).map key).Nodup := by
  induction rows with
  | nil => exact List.nodup_nil
  | cons r rest ih =>
    rw [firstPerKey, List.map_cons, List.nodup_cons]
    refine ⟨?_, ih.sublist (List.filter_sublist.map key)⟩
    intro h
    obtain ⟨s, hs, hkey⟩ := List.mem_map.mp h
    exact absurd hkey (by simpa using (List.mem_filter.mp hs).2)

theorem exists_mem_firstPerKey {rows : List ρ} {r : ρ} (h : r ∈ rows) :
    ∃ s ∈ firstPerKey key rows, key s = key r := by
  induction rows with
  | nil => cases h
  | cons t rest ih =>
    by_cases hkey : key r = key t
    · exact ⟨t, List.mem_cons_self, hkey.symm⟩
    · rcases List.mem_cons.mp h with rfl | hrest
      · exact absurd rfl hkey
      · obtain ⟨s, hs, hsr⟩ := ih hrest
        refine ⟨s, List.mem_cons_of_mem t (List.mem_filter.mpr ⟨hs, ?_⟩), hsr⟩
        simpa [hsr] using hkey

/-- In a sorted list the row kept for a key comes before every other row of it. -/
theorem le_of_mem_firstPerKey {le : ρ → ρ → Prop} {rows : List ρ} (hsorted : rows.Pairwise le)
    {r s : ρ} (hr : r ∈ firstPerKey key rows) (hs : s ∈ rows) (hkey : key s = key r) :
    s = r ∨ le r s := by
  induction rows with
  | nil => cases hr
  | cons t rest ih =>
    rw [List.pairwise_cons] at hsorted
    rw [firstPerKey, List.mem_cons, List.mem_filter] at hr
    rcases hr with rfl | ⟨hr, hne⟩
    · rcases List.mem_cons.mp hs with rfl | hs
      · exact Or.inl rfl
      · exact Or.inr (hsorted.1 s hs)
    · rcases List.mem_cons.mp hs with rfl | hs
      · exact absurd hkey.symm (by simpa using hne)
      · exact ih hsorted.2 hr hs

variable (le : ρ → ρ → Prop) [DecidableRel le]

/-- `SELECT DISTINCT ON (key) … ORDER BY key, le`. -/
def distinctOn (rows : List ρ) : List ρ := firstPerKey key (rows.insertionSort le)

theorem keys_distinctOn_nodup (rows : List ρ) : ((distinctOn key le rows).map key).Nodup :=
  keys_firstPerKey_nodup key _

theorem mem_of_mem_distinctOn {rows : List ρ} {r : ρ} (h : r ∈ distinctOn key le rows) :
    r ∈ rows :=
  (List.mem_insertionSort le).mp (mem_of_mem_firstPerKey key h)

theorem exists_mem_distinctOn {rows : List ρ} {r : ρ} (h : r ∈ rows) :
    ∃ s ∈ distinctOn key le rows, key s = key r :=
  exists_mem_firstPerKey key ((List.mem_insertionSort le).mpr h)

/-- The rows `DISTINCT ON` keeps are the least rows of their keys, when the
ordering separates the rows of a key. -/
theorem mem_distinctOn_iff [Std.Total le] [IsTrans ρ le] {rows : List ρ}
    (hsep : ∀ r ∈ rows, ∀ s ∈ rows, key r = key s → le r s → le s r → r = s) (r : ρ) :
    r ∈ distinctOn key le rows ↔ r ∈ rows ∧ ∀ s ∈ rows, key s = key r → le r s := by
  have hle : ∀ {t s : ρ}, t ∈ distinctOn key le rows → s ∈ rows → key s = key t → le t s := by
    intro t s ht hs hkey
    rcases le_of_mem_firstPerKey key (List.pairwise_insertionSort le rows) ht
      ((List.mem_insertionSort le).mpr hs) hkey with rfl | h
    · exact (Std.Total.total (r := le) s s).elim id id
    · exact h
  constructor
  · exact fun h => ⟨mem_of_mem_distinctOn key le h, fun s hs hkey => hle h hs hkey⟩
  · intro h
    obtain ⟨hr, hleast⟩ := h
    obtain ⟨s, hs, hkey⟩ := exists_mem_distinctOn key le hr
    have hs' := mem_of_mem_distinctOn key le hs
    have hsr : s = r := hsep s hs' r hr hkey (hle hs hr hkey.symm) (hleast s hs' hkey)
    exact hsr ▸ hs

end DistinctOn

end Relational
