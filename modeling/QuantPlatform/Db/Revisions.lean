/-
Point-in-time reads of the revisioned tables.

`selectLatestRevisionAsOf` is the query behind every `get_*_as_of` of
`market_bars`, `news_events` and `disclosure_events`: filter, drop what was not
available at `as_of`, keep one row per logical key, and order by `event_time`.

`IsCurrent` says what the read is for: the revision of an event that is current
at `as_of`, chosen among all rows of the event.  The query filters before it
chooses.  `latestRevisions_exact_iff` says when the two agree, and
`mem_latestRevisions_of_keyFilter` that they always do when the filter reads
nothing but the logical key.
-/
import QuantPlatform.Relational.Query
import QuantPlatform.Db.Upsert

namespace QuantPlatform
namespace Db

open Relational Temporal

variable {Key Value : Type}

/-- `available_at DESC, revision DESC`. -/
def latestFirst (a b : RevisionRow Key Value) : Prop :=
  b.availableAt < a.availableAt ∨ (b.availableAt = a.availableAt ∧ b.revision ≤ a.revision)

instance : DecidableRel (@latestFirst Key Value) :=
  fun a b => inferInstanceAs (Decidable (b.availableAt < a.availableAt ∨ _))

instance : Std.Total (@latestFirst Key Value) where
  total a b := by
    unfold latestFirst
    rcases lt_trichotomy a.availableAt b.availableAt with h | h | h
    · exact Or.inr (Or.inl h)
    · rcases Nat.le_total a.revision b.revision with hr | hr
      · exact Or.inr (Or.inr ⟨h, hr⟩)
      · exact Or.inl (Or.inr ⟨h.symm, hr⟩)
    · exact Or.inl (Or.inl h)

instance : IsTrans (RevisionRow Key Value) latestFirst where
  trans a b c hab hbc := by
    unfold latestFirst at *
    rcases hab with hab | ⟨hab, hrab⟩
    · rcases hbc with hbc | ⟨hbc, _⟩
      · exact Or.inl (lt_trans hbc hab)
      · exact Or.inl (hbc ▸ hab)
    · rcases hbc with hbc | ⟨hbc, hrbc⟩
      · exact Or.inl (hab ▸ hbc)
      · exact Or.inr ⟨hbc.trans hab, Nat.le_trans hrbc hrab⟩

theorem availableAt_le_of_latestFirst {a b : RevisionRow Key Value} (h : latestFirst a b) :
    b.availableAt ≤ a.availableAt := by
  rcases h with h | ⟨h, _⟩
  · exact h.le
  · exact h.le

variable [DecidableEq Key]

/-- The rows the `WHERE` clause lets through. -/
def visibleRows (table : RevisionTable Key Value) (filters : RevisionRow Key Value → Bool)
    (asOf : Instant) : List (RevisionRow Key Value) :=
  table.rows.filter fun r => filters r && decide (r.availableAt ≤ asOf)

/-- The inner query: `SELECT DISTINCT ON (<logical key>)`. -/
def latestRevisions (table : RevisionTable Key Value) (filters : RevisionRow Key Value → Bool)
    (asOf : Instant) : List (RevisionRow Key Value) :=
  distinctOn RevisionRow.key latestFirst (visibleRows table filters asOf)

/-- The outer query adds `ORDER BY event_time`. -/
def selectLatestRevisionAsOf {eventTime : RevisionRow Key Value → Instant}
    (order : OrderBy (RevisionRow Key Value) fun a b => eventTime a ≤ eventTime b)
    (table : RevisionTable Key Value) (filters : RevisionRow Key Value → Bool)
    (asOf : Instant) : List (RevisionRow Key Value) :=
  order.arrange (latestRevisions table filters asOf)

omit [DecidableEq Key] in
theorem mem_visibleRows_iff (table : RevisionTable Key Value)
    (filters : RevisionRow Key Value → Bool) (asOf : Instant) (r : RevisionRow Key Value) :
    r ∈ visibleRows table filters asOf ↔
      r ∈ table.rows ∧ filters r = true ∧ r.availableAt ≤ asOf := by
  simp [visibleRows]

theorem keys_latestRevisions_nodup (table : RevisionTable Key Value)
    (filters : RevisionRow Key Value → Bool) (asOf : Instant) :
    ((latestRevisions table filters asOf).map RevisionRow.key).Nodup :=
  keys_distinctOn_nodup _ _ _

/-- A row is returned when it passes the filters and no row that also passes
them and belongs to the same event became available later, up to `as_of`. -/
theorem mem_latestRevisions_iff (table : RevisionTable Key Value)
    (filters : RevisionRow Key Value → Bool) (asOf : Instant) (r : RevisionRow Key Value) :
    r ∈ latestRevisions table filters asOf ↔
      (r ∈ table.rows ∧ filters r = true ∧ r.availableAt ≤ asOf) ∧
        ∀ s ∈ table.rows, filters s = true → s.availableAt ≤ asOf → s.key = r.key →
          s.availableAt ≤ r.availableAt := by
  -- The unique constraint leaves no two rows of an event at one `available_at`.
  have hsame : ∀ a ∈ table.rows, ∀ b ∈ table.rows, a.key = b.key →
      a.availableAt = b.availableAt → a = b := fun a ha b hb hk ht =>
    table.eq_of_key_eq ha hb (Prod.ext hk ht)
  have hsep : ∀ a ∈ visibleRows table filters asOf, ∀ b ∈ visibleRows table filters asOf,
      a.key = b.key → latestFirst a b → latestFirst b a → a = b := by
    intro a ha b hb hk hab hba
    exact hsame a ((mem_visibleRows_iff ..).mp ha).1 b ((mem_visibleRows_iff ..).mp hb).1 hk
      (le_antisymm (availableAt_le_of_latestFirst hba) (availableAt_le_of_latestFirst hab))
  unfold latestRevisions
  rw [mem_distinctOn_iff _ _ hsep, mem_visibleRows_iff]
  refine and_congr_right fun hr => ?_
  constructor
  · intro h s hs hf ht hk
    exact availableAt_le_of_latestFirst (h s ((mem_visibleRows_iff ..).mpr ⟨hs, hf, ht⟩) hk)
  · intro h s hs hk
    obtain ⟨hs, hf, ht⟩ := (mem_visibleRows_iff ..).mp hs
    rcases lt_or_eq_of_le (h s hs hf ht hk) with hlt | heq
    · exact Or.inl hlt
    · exact Or.inr ⟨heq, hsame s hs r hr.1 hk heq ▸ Nat.le_refl _⟩

/-- The read depends on the rows it lets through and on no others. -/
theorem latestRevisions_perm_of_filters {table table' : RevisionTable Key Value} {asOf : Instant}
    {filters : RevisionRow Key Value → Bool}
    (h : ∀ r : RevisionRow Key Value, filters r = true → r.availableAt ≤ asOf →
      (r ∈ table.rows ↔ r ∈ table'.rows)) :
    (latestRevisions table filters asOf).Perm (latestRevisions table' filters asOf) := by
  have hnodup : ∀ t : RevisionTable Key Value, (latestRevisions t filters asOf).Nodup :=
    fun t => (keys_latestRevisions_nodup t filters asOf).of_map _
  rw [List.perm_ext_iff_of_nodup (hnodup table) (hnodup table')]
  intro r
  rw [mem_latestRevisions_iff, mem_latestRevisions_iff]
  constructor
  · intro hmem
    obtain ⟨⟨hr, hf, ht⟩, hlatest⟩ := hmem
    exact ⟨⟨(h r hf ht).mp hr, hf, ht⟩,
      fun s hs hfs hts hk => hlatest s ((h s hfs hts).mpr hs) hfs hts hk⟩
  · intro hmem
    obtain ⟨⟨hr, hf, ht⟩, hlatest⟩ := hmem
    exact ⟨⟨(h r hf ht).mpr hr, hf, ht⟩,
      fun s hs hfs hts hk => hlatest s ((h s hfs hts).mp hs) hfs hts hk⟩

/-- It depends on the rows available at `as_of` and on no others. -/
theorem latestRevisions_perm {table table' : RevisionTable Key Value} {asOf : Instant}
    (h : ∀ r : RevisionRow Key Value, r.availableAt ≤ asOf →
      (r ∈ table.rows ↔ r ∈ table'.rows))
    (filters : RevisionRow Key Value → Bool) :
    (latestRevisions table filters asOf).Perm (latestRevisions table' filters asOf) :=
  latestRevisions_perm_of_filters fun r _ => h r

/-- The revision of its event that is current at `as_of`: of all rows of the
event available by then, the one that became available last. -/
def IsCurrent (table : RevisionTable Key Value) (asOf : Instant) (r : RevisionRow Key Value) :
    Prop :=
  r ∈ table.rows ∧ r.availableAt ≤ asOf ∧
    ∀ s ∈ table.rows, s.key = r.key → s.availableAt ≤ asOf → s.availableAt ≤ r.availableAt

theorem isCurrent_iff (table : RevisionTable Key Value) (asOf : Instant)
    (r : RevisionRow Key Value) :
    IsCurrent table asOf r ↔ r ∈ latestRevisions table (fun _ => true) asOf := by
  rw [mem_latestRevisions_iff]
  unfold IsCurrent
  constructor
  · intro h
    obtain ⟨hr, ht, hlatest⟩ := h
    exact ⟨⟨hr, rfl, ht⟩, fun s hs _ hts hk => hlatest s hs hk hts⟩
  · intro h
    obtain ⟨⟨hr, _, ht⟩, hlatest⟩ := h
    exact ⟨hr, ht, fun s hs hk hts => hlatest s hs rfl hts hk⟩

omit [DecidableEq Key] in
theorem IsCurrent.unique {table : RevisionTable Key Value} {asOf : Instant}
    {r s : RevisionRow Key Value} (hr : IsCurrent table asOf r) (hs : IsCurrent table asOf s)
    (hk : r.key = s.key) : r = s :=
  table.eq_of_key_eq hr.1 hs.1 (Prod.ext hk
    (le_antisymm (hs.2.2 r hr.1 hk hr.2.1) (hr.2.2 s hs.1 hk.symm hs.2.1)))

/-- Every event with a row available at `as_of` has a current revision. -/
theorem exists_isCurrent {table : RevisionTable Key Value} {asOf : Instant}
    {r : RevisionRow Key Value} (hr : r ∈ table.rows) (ht : r.availableAt ≤ asOf) :
    ∃ c, IsCurrent table asOf c ∧ c.key = r.key := by
  have hvisible : r ∈ visibleRows table (fun _ => true) asOf :=
    (mem_visibleRows_iff ..).mpr ⟨hr, rfl, ht⟩
  obtain ⟨c, hc, hk⟩ := exists_mem_distinctOn RevisionRow.key latestFirst hvisible
  exact ⟨c, (isCurrent_iff ..).mpr hc, hk⟩

/-- A current revision that passes the filters is always returned. -/
theorem IsCurrent.mem_latestRevisions {table : RevisionTable Key Value} {asOf : Instant}
    {r : RevisionRow Key Value} (hr : IsCurrent table asOf r)
    {filters : RevisionRow Key Value → Bool} (hf : filters r = true) :
    r ∈ latestRevisions table filters asOf :=
  (mem_latestRevisions_iff ..).mpr
    ⟨⟨hr.1, hf, hr.2.1⟩, fun s hs _ hts hk => hr.2.2 s hs hk hts⟩

/-- Filtering before choosing gives the current revisions that pass the filters
exactly when no event passes them with a superseded revision only. -/
theorem latestRevisions_exact_iff (table : RevisionTable Key Value)
    (filters : RevisionRow Key Value → Bool) (asOf : Instant) :
    (∀ r, r ∈ latestRevisions table filters asOf ↔ IsCurrent table asOf r ∧ filters r = true) ↔
      ∀ r ∈ table.rows, r.availableAt ≤ asOf → filters r = true →
        ∀ c, IsCurrent table asOf c → c.key = r.key → filters c = true := by
  constructor
  · intro h r hr ht hf c hc hk
    have hvisible : r ∈ visibleRows table filters asOf :=
      (mem_visibleRows_iff ..).mpr ⟨hr, hf, ht⟩
    obtain ⟨s, hs, hsk⟩ := exists_mem_distinctOn RevisionRow.key latestFirst hvisible
    obtain ⟨hcurrent, hfs⟩ := (h s).mp hs
    exact hcurrent.unique hc (hsk.trans hk.symm) ▸ hfs
  · intro h r
    refine ⟨fun hr => ?_, fun hr => hr.1.mem_latestRevisions hr.2⟩
    obtain ⟨⟨hmem, hf, ht⟩, hlatest⟩ := (mem_latestRevisions_iff ..).mp hr
    obtain ⟨c, hc, hk⟩ := exists_isCurrent hmem ht
    have hfc := h r hmem ht hf c hc hk
    have heq : c = r := table.eq_of_key_eq hc.1 hmem (Prod.ext hk
      (le_antisymm (hlatest c hc.1 hfc hc.2.1 hk) (hc.2.2 r hmem hk.symm ht)))
    exact heq ▸ ⟨hc, hfc⟩

/-- A filter on the logical key alone passes all revisions of an event or none. -/
theorem mem_latestRevisions_of_keyFilter (table : RevisionTable Key Value) (p : Key → Bool)
    (asOf : Instant) (r : RevisionRow Key Value) :
    r ∈ latestRevisions table (fun s => p s.key) asOf ↔
      IsCurrent table asOf r ∧ p r.key = true := by
  refine (latestRevisions_exact_iff table (fun s => p s.key) asOf).mpr ?_ r
  intro s _ _ hf c _ hk
  exact hk ▸ hf

/-- The current revision of an event carries what a reader at `as_of` sees of the
facts the table records. -/
theorem Records.seenAt_iff {table : RevisionTable Key Value}
    {facts : List (Fact Key Instant Value)} (h : Records table facts) (asOf : Instant) (k : Key)
    (t : Instant) (v : Value) :
    SeenAt facts k asOf t v ↔
      ∃ r, IsCurrent table asOf r ∧ r.key = k ∧ r.availableAt = t ∧ r.value = v := by
  have hstored : ∀ {l : Key} {s : Instant} {w : Value}, first facts l s = some w →
      ∃ r ∈ table.rows, r.key = l ∧ r.availableAt = s ∧ r.value = w := by
    intro l s w hw
    obtain ⟨r, hr, hv⟩ := Option.map_eq_some_iff.mp ((h l s).trans hw)
    obtain ⟨hmem, hkey⟩ := (Table.find_eq_some_iff table _ _).mp hr
    exact ⟨r, hmem, congrArg Prod.fst hkey, congrArg Prod.snd hkey, hv⟩
  have hrecorded : ∀ r ∈ table.rows, first facts r.key r.availableAt = some r.value := by
    intro r hr
    have hfind := (Table.mem_rows_iff table r).mp hr
    rw [← h r.key r.availableAt]
    exact congrArg (Option.map RevisionRow.value) hfind
  constructor
  · intro h
    obtain ⟨⟨⟨_, ht⟩, hgreatest⟩, hv⟩ := h
    obtain ⟨r, hr, rfl, rfl, rfl⟩ := hstored hv
    refine ⟨r, ⟨hr, ht, fun s hs hk hts => ?_⟩, rfl, rfl, rfl⟩
    exact hgreatest ⟨(mem_times_iff facts r.key s.availableAt).mpr
      ⟨s.value, hk ▸ hrecorded s hs⟩, hts⟩
  · intro h
    obtain ⟨r, ⟨hr, ht, hlatest⟩, rfl, rfl, rfl⟩ := h
    refine ⟨⟨⟨(mem_times_iff ..).mpr ⟨r.value, hrecorded r hr⟩, ht⟩, ?_⟩, hrecorded r hr⟩
    intro s h
    obtain ⟨hs, hts⟩ := h
    obtain ⟨w, hw⟩ := (mem_times_iff facts r.key s).mp hs
    obtain ⟨q, hq, hqk, rfl, _⟩ := hstored hw
    exact hlatest q hq hqk hts

end Db
end QuantPlatform
