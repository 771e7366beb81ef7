import QuantPlatform.Ingest.Ingestors
import QuantPlatform.Db.PointInTime

namespace QuantPlatform
namespace Ingest

open Db Relational Temporal

section Again

variable {Item Key Value : Type} [DecidableEq Key]

/-- The second of two deliveries at different readings of the clock adds no row
exactly when each of its items was stored at its reading from the start. -/
theorem length_restamped_eq_iff (key : Item → Key) (value : Item → Value)
    (table : RevisionTable Key Value) (items : List Item) {t₁ t₂ : Instant} (ht : t₁ < t₂) :
    let once := (appendRevisionRows table (stampedRows key value t₁ items)).1
    (appendRevisionRows once (stampedRows key value t₂ items)).1.rows.length = once.rows.length ↔
      ∀ item ∈ items, (table.find (key item, t₂)).isSome := by
  intro once
  rw [length_appendRevisionRows_eq_iff]
  -- The first delivery wrote at its own reading only.
  have honce : ∀ k, (once.find (k, t₂)).isSome ↔ (table.find (k, t₂)).isSome := by
    intro k
    rw [isSome_find_appendRevisionRows]
    constructor
    · intro h
      rcases h with h | h
      · exact h
      · simp only [stampedRows, List.map_map, List.mem_map] at h
        obtain ⟨item, _, hitem⟩ := h
        exact absurd (congrArg Prod.snd hitem) (ne_of_lt ht)
    · exact Or.inl
  simp only [stampedRows, List.forall_mem_map, RevisionInput.naturalKey, honce]

end Again

/-- Ingesting again what upstream answered before leaves the number of rows as it
is exactly when all of it was already stored under the later reading of the
clock, before the first run. -/
theorem reingest_adds_no_row_iff {t₁ t₂ : Instant} (ht : t₁ < t₂) :
    (∀ (ingestor : MarketBarIngestor) (db : Database) (symbol : String)
        (interval : CandleInterval) (count : Int) (series : CandleSeries),
      ∃ once twice r₁ r₂,
        ingestor.ingestCandles (fun _ _ _ => .ok series) t₁ symbol interval count db =
            .ok (once, r₁) ∧
        ingestor.ingestCandles (fun _ _ _ => .ok series) t₂ symbol interval count once =
            .ok (twice, r₂) ∧
        (twice.marketBars.rows.length = once.marketBars.rows.length ↔
          ∀ candle ∈ series.candles,
            (db.marketBars.find
              (ingestor.barKey (ingestor.instrument db.instruments symbol).2.id series candle,
                t₂)).isSome)) ∧
    (∀ (news : NewsEvents) (since₁ since₂ : Instant) (articles : List NewsArticle),
      ∃ once twice r₁ r₂,
        NewsIngestor.run (fun _ => .ok articles) t₁ since₁ news = .ok (once, r₁) ∧
        NewsIngestor.run (fun _ => .ok articles) t₂ since₂ once = .ok (twice, r₂) ∧
        (twice.rows.length = once.rows.length ↔
          ∀ article ∈ articles, (news.find (article.key, t₂)).isSome)) ∧
    (∀ (disclosures : DisclosureEvents) (since₁ since₂ : Instant)
        (filings : List DisclosureFiling),
      ∃ once twice r₁ r₂,
        DisclosureIngestor.run (fun _ => .ok filings) t₁ since₁ disclosures = .ok (once, r₁) ∧
        DisclosureIngestor.run (fun _ => .ok filings) t₂ since₂ once = .ok (twice, r₂) ∧
        (twice.rows.length = once.rows.length ↔
          ∀ filing ∈ filings, (disclosures.find (filing.key, t₂)).isSome)) := by
  refine ⟨?_, ?_, ?_⟩
  · intro ingestor db symbol interval count series
    refine ⟨_, _, _, _, ingestor.ingestCandles_ok .., ingestor.ingestCandles_ok .., ?_⟩
    -- Both runs write to the same instrument.
    have hid : (ingestor.instrument (ingestor.instrument db.instruments symbol).1 symbol).2 =
        (ingestor.instrument db.instruments symbol).2 :=
      Instruments.getOrCreate_getOrCreate ..
    simp only [hid]
    exact length_restamped_eq_iff _ _ db.marketBars series.candles ht
  · intro news since₁ since₂ articles
    refine ⟨_, _, _, _, rfl, rfl, ?_⟩
    exact length_restamped_eq_iff NewsArticle.key NewsArticle.value news articles ht
  · intro disclosures since₁ since₂ filings
    refine ⟨_, _, _, _, rfl, rfl, ?_⟩
    exact length_restamped_eq_iff DisclosureFiling.key DisclosureFiling.value disclosures filings ht

/-- An article fetched at 1 and fetched again, unchanged, at 2. -/
def article : NewsArticle :=
  { source := "wire", externalId := "n-1", eventTime := 0, headline := "headline" }

theorem refetched_article_length :
    ∃ once twice r₁ r₂,
      NewsIngestor.run (fun _ => .ok [article]) 1 0 Table.empty = .ok (once, r₁) ∧
      NewsIngestor.run (fun _ => .ok [article]) 2 0 once = .ok (twice, r₂) ∧
      (twice.rows.length = once.rows.length ↔
        ∀ a ∈ [article], ((Table.empty : NewsEvents).find (a.key, 2)).isSome) :=
  (reingest_adds_no_row_iff (show (1 : Instant) < 2 by decide)).2.1 Table.empty 0 0 [article]

/-- The second fetch adds a row. -/
theorem refetched_article_duplicated :
    ¬ ∀ (news : NewsEvents) (since : Instant) (articles : List NewsArticle) (t₁ t₂ : Instant),
      t₁ < t₂ → ∀ once twice r₁ r₂,
        NewsIngestor.run (fun _ => .ok articles) t₁ since news = .ok (once, r₁) →
        NewsIngestor.run (fun _ => .ok articles) t₂ since once = .ok (twice, r₂) →
        twice.rows.length = once.rows.length := by
  intro h
  have hlength := h Table.empty 0 [article] 1 2 (by decide) _ _ _ _ rfl rfl
  exact absurd hlength (by decide)

/-! ## An item and its correction -/

section Corrections

variable {Item Key Value Content : Type} [DecidableEq Key]

omit [DecidableEq Key] in
theorem delivered_pairwise (key : Item → Key) (value : Item → Value)
    {deliveries : List (Delivery Item)}
    (hclock : deliveries.Pairwise fun d e => d.clock ≤ e.clock) :
    (delivered key value deliveries).Pairwise fun f g => f.time ≤ g.time := by
  induction deliveries with
  | nil => exact List.Pairwise.nil
  | cons delivery rest ih =>
    rw [List.pairwise_cons] at hclock
    rw [delivered, List.flatMap_cons, List.pairwise_append]
    refine ⟨?_, ih hclock.2, ?_⟩
    · exact List.pairwise_map.mpr (List.pairwise_of_forall fun _ _ => le_rfl)
    · intro f hf g hg
      obtain ⟨_, _, hfact⟩ := List.mem_map.mp hf
      obtain ⟨later, hlater, hg⟩ := List.mem_flatMap.mp hg
      obtain ⟨_, _, hgact⟩ := List.mem_map.mp hg
      subst hfact hgact
      exact hclock.1 later hlater

/-- A table filled by runs of an ingestor records what they delivered. -/
theorem records_delivered (key : Item → Key) (value : Item → Value)
    (deliveries : List (Delivery Item)) :
    Records (deliveries.foldl
        (fun table d => (appendRevisionRows table (stampedRows key value d.clock d.items)).1)
        Table.empty)
      (delivered key value deliveries) := by
  have hrecords := records_appendBatches
    (deliveries.map fun d => stampedRows key value d.clock d.items)
  rw [appendBatches, List.foldl_map] at hrecords
  have hfacts : ((deliveries.map fun d => stampedRows key value d.clock d.items).flatten.map
      RevisionInput.fact) = delivered key value deliveries := by
    simp only [delivered, List.map_flatten, List.map_map, List.flatMap_def, stampedRows,
      Function.comp_def, RevisionInput.fact]
  rw [hfacts] at hrecords
  exact hrecords

/-- The first item delivered under the reading of an event's last delivery shows
what the last item shows. -/
def FirstShowsLast (content : Value → Content) (facts : List (Fact Key Instant Value)) : Prop :=
  ∀ k f v, last facts k = some f → first facts k f.time = some v → content v = content f.value

/-- What is read of each event is what its last delivery shows. -/
def ReadsLast (content : Value → Content) (facts : List (Fact Key Instant Value))
    (read : Key → Content → Prop) : Prop :=
  ∀ k c, read k c ↔ ∃ f, last facts k = some f ∧ content f.value = c

/-- A late unfiltered read shows the last delivery of each event exactly when the
first one under the same reading of the clock shows the same. -/
theorem latest_readsLast_iff {table : RevisionTable Key Value}
    {facts : List (Fact Key Instant Value)} (hrecords : Records table facts)
    (hordered : facts.Pairwise fun f g => f.time ≤ g.time) {asOf : Instant}
    (hcutoff : ∀ f ∈ facts, f.time ≤ asOf) {filters : RevisionRow Key Value → Bool}
    (hfilters : ∀ r ∈ table.rows, filters r = true) (content : Value → Content) :
    ReadsLast content facts
        (fun k c => ∃ r ∈ latestRevisions table filters asOf, r.key = k ∧ content r.value = c) ↔
      FirstShowsLast content facts := by
  have hread : ∀ k c,
      (∃ r ∈ latestRevisions table filters asOf, r.key = k ∧ content r.value = c) ↔
        ∃ f v, last facts k = some f ∧ first facts k f.time = some v ∧ content v = c := by
    intro k c
    have hcurrent := (latestRevisions_exact_iff table filters asOf).mpr
      fun _ _ _ _ r hr _ => hfilters r hr.1
    constructor
    · intro h
      obtain ⟨r, hr, hk, hc⟩ := h
      have hseen := (hrecords.seenAt_iff asOf k r.availableAt r.value).mpr
        ⟨r, ((hcurrent r).mp hr).1, hk, rfl, rfl⟩
      obtain ⟨f, hf, ht, hfirst⟩ := (seenAt_iff_last hordered hcutoff ..).mp hseen
      exact ⟨f, r.value, hf, ht ▸ hfirst, hc⟩
    · intro h
      obtain ⟨f, v, hf, hfirst, hc⟩ := h
      have hseen := (seenAt_iff_last hordered hcutoff k f.time v).mpr ⟨f, hf, rfl, hfirst⟩
      obtain ⟨r, hr, hk, _, hv⟩ := (hrecords.seenAt_iff asOf k f.time v).mp hseen
      exact ⟨r, (hcurrent r).mpr ⟨hr, hfilters r hr.1⟩, hk, hv ▸ hc⟩
  unfold ReadsLast FirstShowsLast
  constructor
  · intro h k f v hf hfirst
    obtain ⟨g, hg, hc⟩ := (h k (content v)).mp ((hread k _).mpr ⟨f, v, hf, hfirst, rfl⟩)
    rw [hf, Option.some.injEq] at hg
    rw [← hc, hg]
  · intro h k c
    apply (hread k c).trans
    constructor
    · intro hv
      obtain ⟨f, v, hf, hfirst, hc⟩ := hv
      exact ⟨f, hf, (h k f v hf hfirst).symm.trans hc⟩
    · intro hl
      obtain ⟨f, hf, hc⟩ := hl
      obtain ⟨hmem, hk⟩ := mem_of_last hf
      obtain ⟨v, hv⟩ := (mem_times_iff facts k f.time).mp ⟨f, hmem, hk, rfl⟩
      exact ⟨f, v, hf, hv, (h k f v hf hv).trans hc⟩

omit [DecidableEq Key] in
theorem forall_mem_delivered (key : Item → Key) (value : Item → Value)
    (deliveries : List (Delivery Item)) (p : Instant → Value → Prop) :
    (∀ f ∈ delivered key value deliveries, p f.time f.value) ↔
      ∀ d ∈ deliveries, ∀ item ∈ d.items, p d.clock (value item) := by
  simp only [delivered, List.forall_mem_flatMap, List.forall_mem_map]

/-- A stored row has the value of a fact that was recorded. -/
theorem value_of_records {table : RevisionTable Key Value}
    {facts : List (Fact Key Instant Value)} (hrecords : Records table facts)
    (p : Value → Prop) (hp : ∀ f ∈ facts, p f.value) : ∀ r ∈ table.rows, p r.value := by
  intro r hr
  have hfirst := hrecords r.key r.availableAt
  rw [show table.find (r.key, r.availableAt) = some r from (Table.mem_rows_iff table r).mp hr]
    at hfirst
  obtain ⟨f, hf, _, _, hv⟩ := exists_of_first hfirst.symm
  exact hv ▸ hp f hf

/-- The same, of the rows a read returns. -/
theorem read_readsLast_iff {Row : Type} {key : Item → Key} {value : Item → Value}
    {content : Value → Content} (ofRow : RevisionRow Key Value → Row) (rowKey : Row → Key)
    (rowContent : Row → Content) (hkey : ∀ r, rowKey (ofRow r) = r.key)
    (hcontent : ∀ r, rowContent (ofRow r) = content r.value)
    {eventTime : RevisionRow Key Value → Instant}
    (order : OrderBy (RevisionRow Key Value) fun a b => eventTime a ≤ eventTime b)
    {deliveries : List (Delivery Item)}
    (hclock : deliveries.Pairwise fun d e => d.clock ≤ e.clock) {asOf : Instant}
    (hasOf : ∀ d ∈ deliveries, d.clock ≤ asOf) {table : RevisionTable Key Value}
    (hrecords : Records table (delivered key value deliveries))
    {filters : RevisionRow Key Value → Bool} (hfilters : ∀ r ∈ table.rows, filters r = true) :
    ReadsLast content (delivered key value deliveries)
        (fun k c => ∃ row ∈ (selectLatestRevisionAsOf order table filters asOf).map ofRow,
          rowKey row = k ∧ rowContent row = c) ↔
      FirstShowsLast content (delivered key value deliveries) := by
  have hcutoff : ∀ f ∈ delivered key value deliveries, f.time ≤ asOf :=
    (forall_mem_delivered key value deliveries fun t _ => t ≤ asOf).mpr
      fun d hd _ _ => hasOf d hd
  rw [← latest_readsLast_iff hrecords (delivered_pairwise key value hclock) hcutoff hfilters]
  simp only [selectLatestRevisionAsOf, List.mem_map, order.mem_arrange_iff,
    exists_exists_and_eq_and, hkey, hcontent]

end Corrections

/-- Runs of an ingestor with clock readings that never go back.  A late unfiltered
read shows the last delivery of each event exactly when the first delivery of the
event under the same reading of the clock shows the same. -/
theorem last_delivery_read_iff (start stop asOf : Instant) :
    (∀ (order : NewsOrder) (deliveries : List (Delivery NewsArticle)),
      (deliveries.Pairwise fun d e => d.clock ≤ e.clock) →
      (∀ d ∈ deliveries, d.clock ≤ asOf) →
      (∀ d ∈ deliveries, ∀ article ∈ d.items,
        start ≤ article.eventTime ∧ article.eventTime ≤ stop) →
      (ReadsLast NewsValue.content (delivered NewsArticle.key NewsArticle.value deliveries)
          (fun k c =>
            ∃ row ∈ getNewsAsOf order (NewsIngestor.after deliveries) start stop asOf none,
              row.key = k ∧ row.content = c) ↔
        FirstShowsLast NewsValue.content
          (delivered NewsArticle.key NewsArticle.value deliveries))) ∧
    (∀ (order : DisclosureOrder) (deliveries : List (Delivery DisclosureFiling)),
      (deliveries.Pairwise fun d e => d.clock ≤ e.clock) →
      (∀ d ∈ deliveries, d.clock ≤ asOf) →
      (∀ d ∈ deliveries, ∀ filing ∈ d.items,
        start ≤ filing.eventTime ∧ filing.eventTime ≤ stop) →
      (ReadsLast DisclosureValue.content
          (delivered DisclosureFiling.key DisclosureFiling.value deliveries)
          (fun k c =>
            ∃ row ∈ getDisclosuresAsOf order (DisclosureIngestor.after deliveries) start stop
                asOf none,
              row.key = k ∧ row.content = c) ↔
        FirstShowsLast DisclosureValue.content
          (delivered DisclosureFiling.key DisclosureFiling.value deliveries))) := by
  constructor
  · intro order deliveries hclock hasOf hwindow
    have hrecords : Records (NewsIngestor.after deliveries) _ :=
      records_delivered NewsArticle.key NewsArticle.value deliveries
    apply read_readsLast_iff NewsEventRow.ofRow NewsEventRow.key NewsEventRow.content
      (fun _ => rfl) (fun _ => rfl) order hclock hasOf hrecords
    intro r hr
    let inside := fun v : NewsValue => start ≤ v.eventTime ∧ v.eventTime ≤ stop
    have hinside := (forall_mem_delivered NewsArticle.key NewsArticle.value deliveries
      fun _ => inside).mpr hwindow
    have hr := value_of_records hrecords inside hinside r hr
    simp [newsFilter, hr.1, hr.2]
  · intro order deliveries hclock hasOf hwindow
    have hrecords : Records (DisclosureIngestor.after deliveries) _ :=
      records_delivered DisclosureFiling.key DisclosureFiling.value deliveries
    apply read_readsLast_iff DisclosureEventRow.ofRow DisclosureEventRow.key
      DisclosureEventRow.content (fun _ => rfl) (fun _ => rfl) order hclock hasOf hrecords
    intro r hr
    let inside := fun v : DisclosureValue => start ≤ v.eventTime ∧ v.eventTime ≤ stop
    have hinside := (forall_mem_delivered DisclosureFiling.key DisclosureFiling.value deliveries
      fun _ => inside).mpr hwindow
    have hr := value_of_records hrecords inside hinside r hr
    simp [disclosureFilter, hr.1, hr.2]

/-- An article and its correction in one answer of the collector. -/
def correctedArticle : List (Delivery NewsArticle) :=
  [{ clock := 1, since := 0
     items := [article, { article with headline := "corrected headline" }] }]

theorem correctedArticle_read_iff :
    ReadsLast NewsValue.content (delivered NewsArticle.key NewsArticle.value correctedArticle)
        (fun k c =>
          ∃ row ∈ getNewsAsOf (OrderBy.byColumn _) (NewsIngestor.after correctedArticle) 0 0 1 none,
            row.key = k ∧ row.content = c) ↔
      FirstShowsLast NewsValue.content
        (delivered NewsArticle.key NewsArticle.value correctedArticle) :=
  (last_delivery_read_iff 0 0 1).1 (OrderBy.byColumn _) correctedArticle
    (List.pairwise_singleton _ _) (by decide) (by decide)

/-- The correction is lost. -/
theorem correction_in_one_answer_lost :
    ¬ ∀ (order : NewsOrder) (deliveries : List (Delivery NewsArticle))
        (start stop asOf : Instant),
      (deliveries.Pairwise fun d e => d.clock ≤ e.clock) →
      (∀ d ∈ deliveries, d.clock ≤ asOf) →
      (∀ d ∈ deliveries, ∀ article ∈ d.items,
        start ≤ article.eventTime ∧ article.eventTime ≤ stop) →
      ReadsLast NewsValue.content (delivered NewsArticle.key NewsArticle.value deliveries)
        (fun k c =>
          ∃ row ∈ getNewsAsOf order (NewsIngestor.after deliveries) start stop asOf none,
            row.key = k ∧ row.content = c) := by
  intro h
  have hread := h (OrderBy.byColumn _) correctedArticle 0 0 1 (List.pairwise_singleton _ _)
    (by decide) (by decide)
  have hcorrected := (hread article.key { article.value.content with
    headline := "corrected headline" }).mpr ⟨_, rfl, rfl⟩
  exact absurd hcorrected (by decide)

end Ingest
end QuantPlatform
