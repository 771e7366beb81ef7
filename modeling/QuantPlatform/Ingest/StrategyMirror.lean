import QuantPlatform.Ingest.StrategySync

namespace QuantPlatform
namespace Ingest

open QuantPlatform.Core Db Effects Files Relational Research

inductive Event
  | save (call : SaveCall)
  | sync (now : Instant)

/-- The files and the table. -/
structure Mirror where
  tree : FileSystem
  rows : StrategyRows

/-- The saves of a history. -/
def saves (events : List Event) : List SaveCall :=
  events.filterMap fun
    | .save call => some call
    | .sync _ => none

section Histories

variable (registry : StrategyRegistry) (pydantic : Pydantic) (sessionOffset : Int → Int)

/-- A sync that raises is rolled back. -/
def Mirror.step (mirror : Mirror) : Event → Mirror
  | .save call =>
      { mirror with tree := (registry.save pydantic call.spec call.overwrite mirror.tree).2 }
  | .sync now =>
      match syncAll registry pydantic sessionOffset now mirror.tree mirror.rows with
      | (.ok _, rows) => { mirror with rows }
      | (.error _, _) => mirror

def Mirror.run (mirror : Mirror) (events : List Event) : Mirror :=
  events.foldl (Mirror.step registry pydantic sessionOffset) mirror

/-- For every saved pair there is a row that agrees with the spec in the file. -/
def Mirrored (mirror : Mirror) (saved : List SaveCall) : Prop :=
  ∀ call ∈ saved, ∃ spec row,
    registry.load pydantic mirror.tree call.spec.strategyId call.spec.version = .ok spec ∧
    getRow mirror.rows call.spec.strategyId call.spec.version = some row ∧
    Agrees pydantic row spec

/-- Every sync returns, and leaves rows that mirror the files. -/
def MirroredAfterEverySync (mirror : Mirror) (events : List Event) : Prop :=
  ∀ before now after, events = before ++ .sync now :: after →
    (∃ total, (syncAll registry pydantic sessionOffset now
      (mirror.run registry pydantic sessionOffset before).tree
      (mirror.run registry pydantic sessionOffset before).rows).1 = .ok total) ∧
    Mirrored registry pydantic
      (mirror.run registry pydantic sessionOffset (before ++ [.sync now])) (saves before)

end Histories

/-- No two syncs see a pair with different creation times. -/
def KeepsCreationTimes (events : List Event) : Prop :=
  ∀ before now between now' after,
    events = before ++ .sync now :: (between ++ .sync now' :: after) →
      ∀ strategyId version spec spec',
        Catalog.after (saves before) strategyId version = some spec →
          Catalog.after (saves (before ++ .sync now :: between)) strategyId version = some spec' →
            comparedAt spec.createdAt = comparedAt spec'.createdAt

variable {registry : StrategyRegistry} {pydantic : Pydantic} (sessionOffset : Int → Int)
  {mirror : Mirror}

theorem saves_append (before after : List Event) :
    saves (before ++ after) = saves before ++ saves after := List.filterMap_append

theorem Mirror.run_concat (before : List Event) (event : Event) :
    mirror.run registry pydantic sessionOffset (before ++ [event]) =
      (mirror.run registry pydantic sessionOffset before).step registry pydantic sessionOffset
        event := by
  rw [Mirror.run, List.foldl_append]
  rfl

theorem Mirror.tree_run (events : List Event) :
    (mirror.run registry pydantic sessionOffset events).tree =
      saveAll registry pydantic mirror.tree (saves events) := by
  induction events using List.reverseRecOn with
  | nil => rfl
  | append_singleton events event ih =>
    rw [Mirror.run_concat, saves_append, saveAll_append, ← ih]
    cases event with
    | save call => rfl
    | sync now =>
      rw [Mirror.step]
      split <;> rfl

/-- A sync leaves the files alone. -/
theorem Mirror.tree_run_sync (before : List Event) (now : Instant) :
    (mirror.run registry pydantic sessionOffset (before ++ [.sync now])).tree =
      (mirror.run registry pydantic sessionOffset before).tree := by
  rw [Mirror.tree_run, Mirror.tree_run, saves_append, saveAll_append]
  rfl

theorem timestamptz_of_aware {written : WrittenDatetime} (h : written.utcoffset.isSome) :
    timestamptz sessionOffset written = comparedAt written := by
  obtain ⟨offset, hoffset⟩ := Option.isSome_iff_exists.mp h
  rw [timestamptz, comparedAt, hoffset]
  rfl

/-- The row a sync leaves for a pair, by what was there before. -/
theorem find_syncAll {tree : FileSystem} {catalog : Catalog}
    (h : Represents registry pydantic tree catalog) (hfits : AllMirrorable pydantic catalog)
    (now : Instant) (rows : StrategyRows) :
    ∃ total rows', syncAll registry pydantic sessionOffset now tree rows = (.ok total, rows') ∧
      ∀ strategyId version, getRow rows' strategyId version =
        match catalog strategyId version with
        | some spec => some (Table.stored syncUpdate (getRow rows strategyId version)
            (specRow pydantic sessionOffset now spec))
        | none => getRow rows strategyId version := by
  obtain ⟨written, hkeys, hwritten, hrun⟩ := exists_syncAll_eq sessionOffset now h hfits
  obtain ⟨total, htotal⟩ := hrun rows
  refine ⟨total, _, htotal, fun strategyId version => ?_⟩
  have hnodup : ((written.map (specRow pydantic sessionOffset now)).map
      StrategyRegistryRow.naturalKey).Nodup := by
    rw [List.map_map]
    exact hkeys
  cases hspec : catalog strategyId version with
  | some spec =>
    obtain ⟨rfl, rfl, _⟩ := h.stored _ _ _ hspec
    have hmem : specRow pydantic sessionOffset now spec ∈
        written.map (specRow pydantic sessionOffset now) :=
      List.mem_map_of_mem ((hwritten spec).mpr ⟨_, _, hspec⟩)
    exact Table.find_insertAll_of_mem syncUpdate hnodup hmem rows
  | none =>
    refine Table.find_insertAll_of_not_mem syncUpdate (fun hmem => ?_) rows
    rw [List.map_map, List.mem_map] at hmem
    obtain ⟨spec, hspec', hkey⟩ := hmem
    obtain ⟨strategyId', version', hstored⟩ := (hwritten spec).mp hspec'
    obtain ⟨rfl, rfl, _⟩ := h.stored _ _ _ hstored
    obtain ⟨hid, hversion⟩ := Prod.mk.inj hkey
    rw [show spec.strategyId = strategyId from hid, show spec.version = version from hversion,
      hspec] at hstored
    cases hstored

/-- Every row's creation time is one that an earlier sync saw under its pair. -/
def RowsFromSyncs (sessionOffset : Int → Int) (rows : StrategyRows) (events : List Event) : Prop :=
  ∀ strategyId version row, getRow rows strategyId version = some row →
    ∃ before now after spec, events = before ++ .sync now :: after ∧
      Catalog.after (saves before) strategyId version = some spec ∧
      row.specCreatedAt = timestamptz sessionOffset spec.createdAt

theorem RowsFromSyncs.concat {sessionOffset : Int → Int} {rows : StrategyRows} {events : List Event}
    (h : RowsFromSyncs sessionOffset rows events) (event : Event) :
    RowsFromSyncs sessionOffset rows (events ++ [event]) := by
  intro strategyId version row hrow
  obtain ⟨before, now, after, spec, hevents, hspec, hcreated⟩ := h _ _ _ hrow
  exact ⟨before, now, after ++ [event], spec, by simp [hevents], hspec, hcreated⟩

/-- The saves of a history can be addressed and read back, and the columns take what its
syncs see. -/
structure Syncable (pydantic : Pydantic) (events : List Event) : Prop where
  addressable : ∀ call ∈ saves events, call.spec.Addressable
  readsBack : ∀ call ∈ saves events, pydantic.ReadsBack call.spec
  mirrorable : ∀ before now after, events = before ++ .sync now :: after →
    AllMirrorable pydantic (Catalog.after (saves before))

theorem Syncable.of_append {before after : List Event}
    (h : Syncable pydantic (before ++ after)) : Syncable pydantic before := by
  have hsub : ∀ call ∈ saves before, call ∈ saves (before ++ after) := by
    intro call hcall
    rw [saves_append]
    exact List.mem_append_left _ hcall
  refine ⟨fun call hcall => h.addressable call (hsub call hcall),
    fun call hcall => h.readsBack call (hsub call hcall), ?_⟩
  intro earlier now between hbefore
  exact h.mirrorable earlier now (between ++ after) (by simp [hbefore])

section Run

variable (hempty : EmptyDirectory mirror.tree registry.baseDir)
  (hrows : ∀ strategyId version, getRow mirror.rows strategyId version = none)

include hempty

theorem represents_run {events : List Event} (h : Syncable pydantic events) :
    Represents registry pydantic (mirror.run registry pydantic sessionOffset events).tree
      (Catalog.after (saves events)) := by
  rw [Mirror.tree_run]
  exact Represents.saveAll hempty h.addressable h.readsBack

section Sync

variable {before after : List Event} {now : Instant}
  (h : Syncable pydantic (before ++ .sync now :: after))

include h

/-- What a sync of a run does: it succeeds, inserts or updates the row of every pair that is
there, and leaves the others alone. -/
theorem exists_syncAll_run : ∃ total rows',
    syncAll registry pydantic sessionOffset now
        (mirror.run registry pydantic sessionOffset before).tree
        (mirror.run registry pydantic sessionOffset before).rows = (.ok total, rows') ∧
      (mirror.run registry pydantic sessionOffset (before ++ [.sync now])).rows = rows' ∧
      (∀ strategyId version spec, Catalog.after (saves before) strategyId version = some spec →
        getRow rows' strategyId version =
          some (Table.stored syncUpdate
            (getRow (mirror.run registry pydantic sessionOffset before).rows strategyId version)
            (specRow pydantic sessionOffset now spec))) ∧
      ∀ strategyId version, Catalog.after (saves before) strategyId version = none →
        getRow rows' strategyId version =
          getRow (mirror.run registry pydantic sessionOffset before).rows strategyId version := by
  obtain ⟨total, rows', hsync, hfind⟩ := find_syncAll sessionOffset
    (represents_run sessionOffset hempty h.of_append) (h.mirrorable before now after rfl) now
    (mirror.run registry pydantic sessionOffset before).rows
  refine ⟨total, rows', hsync, ?_, fun strategyId version spec hspec => ?_,
    fun strategyId version hspec => ?_⟩
  · rw [Mirror.run_concat]
    simp only [Mirror.step, hsync]
  · rw [hfind, hspec]
  · rw [hfind, hspec]

theorem syncAll_run_eq_ok : ∃ total,
    (syncAll registry pydantic sessionOffset now
      (mirror.run registry pydantic sessionOffset before).tree
      (mirror.run registry pydantic sessionOffset before).rows).1 = .ok total := by
  obtain ⟨total, rows', hsync, _⟩ := exists_syncAll_run sessionOffset hempty h
  exact ⟨total, by rw [hsync]⟩

/-- A sync inserts or updates the row of a pair that is there. -/
theorem getRow_run_sync_of_some {strategyId version : String} {spec : StrategySpec}
    (hspec : Catalog.after (saves before) strategyId version = some spec) :
    getRow (mirror.run registry pydantic sessionOffset (before ++ [.sync now])).rows strategyId
        version =
      some (Table.stored syncUpdate
        (getRow (mirror.run registry pydantic sessionOffset before).rows strategyId version)
        (specRow pydantic sessionOffset now spec)) := by
  obtain ⟨_, rows', _, hafter, hsome, _⟩ := exists_syncAll_run sessionOffset hempty h
  rw [hafter]
  exact hsome strategyId version spec hspec

/-- A sync leaves the row of a pair that is not there alone. -/
theorem getRow_run_sync_of_none {strategyId version : String}
    (hspec : Catalog.after (saves before) strategyId version = none) :
    getRow (mirror.run registry pydantic sessionOffset (before ++ [.sync now])).rows strategyId
        version =
      getRow (mirror.run registry pydantic sessionOffset before).rows strategyId version := by
  obtain ⟨_, rows', _, hafter, _, hnone⟩ := exists_syncAll_run sessionOffset hempty h
  rw [hafter]
  exact hnone strategyId version hspec

end Sync

include hrows in
theorem rowsFromSyncs_run {events : List Event} (h : Syncable pydantic events) :
    RowsFromSyncs sessionOffset (mirror.run registry pydantic sessionOffset events).rows
      events := by
  induction events using List.reverseRecOn with
  | nil =>
    intro strategyId version row hrow
    rw [show mirror.run registry pydantic sessionOffset [] = mirror from rfl, hrows] at hrow
    cases hrow
  | append_singleton events event ih =>
    have hbefore := ih h.of_append
    cases event with
    | save call =>
      rw [Mirror.run_concat]
      exact hbefore.concat _
    | sync now =>
      intro strategyId version row hrow
      cases hspec : Catalog.after (saves events) strategyId version with
      | none =>
        rw [getRow_run_sync_of_none sessionOffset hempty h hspec] at hrow
        exact hbefore.concat _ _ _ _ hrow
      | some spec =>
        rw [getRow_run_sync_of_some sessionOffset hempty h hspec] at hrow
        cases hold : getRow (mirror.run registry pydantic sessionOffset events).rows strategyId
            version with
        | none =>
          rw [hold] at hrow
          cases hrow
          exact ⟨events, now, [], spec, rfl, hspec, rfl⟩
        | some old =>
          rw [hold] at hrow
          cases hrow
          -- the update leaves the creation time as it was
          exact hbefore.concat _ _ _ old hold

include hrows in
/-- Where pairs keep their creation times, a row has the one in the file. -/
theorem specCreatedAt_of_keepsCreationTimes {before after : List Event} {now : Instant}
    (h : Syncable pydantic (before ++ .sync now :: after))
    (hkeeps : KeepsCreationTimes (before ++ .sync now :: after)) {strategyId version : String}
    {spec : StrategySpec} (hspec : Catalog.after (saves before) strategyId version = some spec)
    {old : StrategyRegistryRow}
    (hold : getRow (mirror.run registry pydantic sessionOffset before).rows strategyId version =
      some old) :
    old.specCreatedAt = comparedAt spec.createdAt := by
  obtain ⟨earlier, then', between, first, rfl, hfirst, hcreated⟩ :=
    rowsFromSyncs_run sessionOffset hempty hrows h.of_append _ _ _ hold
  have haware := (h.mirrorable earlier then' (between ++ .sync now :: after)
    (by simp) _ _ _ hfirst).aware
  have hsame := hkeeps earlier then' between now after (by simp) _ _ _ _ hfirst hspec
  rw [hcreated, timestamptz_of_aware sessionOffset haware, hsame]

include hrows in
theorem mirrored_of_keepsCreationTimes {events : List Event} (h : Syncable pydantic events)
    (hkeeps : KeepsCreationTimes events) :
    MirroredAfterEverySync registry pydantic sessionOffset mirror events := by
  intro before now after hevents
  subst hevents
  refine ⟨syncAll_run_eq_ok sessionOffset hempty h, fun call hcall => ?_⟩
  obtain ⟨spec, hspec⟩ := Option.ne_none_iff_exists'.mp
    ((Catalog.after_ne_none_iff (saves before) call.spec.strategyId call.spec.version).mpr
      ⟨call, hcall, rfl, rfl⟩)
  have hmirrorable := h.mirrorable before now after rfl _ _ _ hspec
  obtain ⟨offset, hoffset⟩ := Option.isSome_iff_exists.mp hmirrorable.aware
  have hrow := getRow_run_sync_of_some sessionOffset hempty h hspec
  have hload : registry.load pydantic
      (mirror.run registry pydantic sessionOffset (before ++ [.sync now])).tree
      call.spec.strategyId call.spec.version = .ok spec := by
    rw [Mirror.tree_run_sync]
    exact (represents_run sessionOffset hempty h.of_append).load_eq_ok hspec
      hmirrorable.encodable
  refine ⟨spec, _, hload, hrow, ?_⟩
  have hcompared : comparedAt spec.createdAt = spec.createdAt.wallTime - offset := by
    rw [comparedAt, hoffset]
    rfl
  cases hold : getRow (mirror.run registry pydantic sessionOffset before).rows
      call.spec.strategyId call.spec.version with
  | none =>
    exact ⟨rfl, rfl, rfl, ⟨offset, hoffset,
      (timestamptz_of_aware sessionOffset hmirrorable.aware).trans hcompared⟩, rfl⟩
  | some old =>
    -- the row was made by an earlier sync, which saw the same creation time
    exact ⟨rfl, rfl, rfl, ⟨offset, hoffset, (specCreatedAt_of_keepsCreationTimes sessionOffset
      hempty hrows h hkeeps hspec hold).trans hcompared⟩, rfl⟩

/-- A row keeps its creation time for good. -/
theorem specCreatedAt_run {before after : List Event} (h : Syncable pydantic (before ++ after))
    {strategyId version : String} {row : StrategyRegistryRow}
    (hrow : getRow (mirror.run registry pydantic sessionOffset before).rows strategyId version =
      some row) :
    ∃ row', getRow (mirror.run registry pydantic sessionOffset (before ++ after)).rows strategyId
      version = some row' ∧ row'.specCreatedAt = row.specCreatedAt := by
  induction after using List.reverseRecOn with
  | nil => exact ⟨row, by rw [List.append_nil, hrow], rfl⟩
  | append_singleton after event ih =>
    rw [← List.append_assoc] at h ⊢
    obtain ⟨row', hrow', hcreated⟩ := ih h.of_append
    cases event with
    | save call =>
      rw [Mirror.run_concat]
      exact ⟨row', hrow', hcreated⟩
    | sync now =>
      cases hspec : Catalog.after (saves (before ++ after)) strategyId version with
      | none =>
        exact ⟨row', (getRow_run_sync_of_none sessionOffset hempty h hspec).trans hrow', hcreated⟩
      | some spec =>
        refine ⟨_, getRow_run_sync_of_some sessionOffset hempty h hspec, ?_⟩
        rw [hrow']
        exact hcreated

/-- A sync that mirrors the files leaves a row that agrees with the spec in the catalog. -/
theorem agrees_of_mirrored {before after : List Event} {now : Instant}
    (h : Syncable pydantic (before ++ .sync now :: after))
    (hmirrored : MirroredAfterEverySync registry pydantic sessionOffset mirror
      (before ++ .sync now :: after)) {strategyId version : String}
    {spec : StrategySpec} (hspec : Catalog.after (saves before) strategyId version = some spec) :
    ∃ row, getRow (mirror.run registry pydantic sessionOffset (before ++ [.sync now])).rows
      strategyId version = some row ∧ Agrees pydantic row spec := by
  obtain ⟨call, hcall, rfl, rfl⟩ := (Catalog.after_ne_none_iff (saves before) strategyId
    version).mp (by simp [hspec])
  obtain ⟨spec', row, hload, hrow, hagrees⟩ := (hmirrored before now after rfl).2 call hcall
  have hencodable := (h.mirrorable before now after rfl _ _ _ hspec).encodable
  rw [Mirror.tree_run_sync] at hload
  have hstored := (represents_run sessionOffset hempty h.of_append).load_eq_ok hspec hencodable
  cases hstored.symm.trans hload
  exact ⟨row, hrow, hagrees⟩

theorem keepsCreationTimes_of_mirrored {events : List Event} (h : Syncable pydantic events)
    (hmirrored : MirroredAfterEverySync registry pydantic sessionOffset mirror events) :
    KeepsCreationTimes events := by
  intro before now between now' after hevents strategyId version spec spec' hspec hspec'
  subst hevents
  -- what the two syncs leave for the pair
  obtain ⟨first, hfirst, hagrees⟩ := agrees_of_mirrored sessionOffset hempty h hmirrored hspec
  have hsecondSync : before ++ .sync now :: (between ++ .sync now' :: after) =
      before ++ .sync now :: between ++ .sync now' :: after := by simp
  rw [hsecondSync] at h hmirrored
  obtain ⟨second, hsecond, hagrees'⟩ := agrees_of_mirrored sessionOffset hempty h hmirrored
    hspec'
  have hsplit : before ++ .sync now :: between ++ [.sync now'] =
      (before ++ [.sync now]) ++ (between ++ [.sync now']) := by simp
  have hwhole : before ++ .sync now :: between ++ .sync now' :: after =
      ((before ++ [.sync now]) ++ (between ++ [.sync now'])) ++ after := by simp
  rw [hwhole] at h
  obtain ⟨row, hrow, hcreated⟩ := specCreatedAt_run sessionOffset hempty h.of_append hfirst
  rw [← hsplit, hsecond] at hrow
  cases hrow
  obtain ⟨offset, hoffset, hat⟩ := hagrees.specCreatedAt
  obtain ⟨offset', hoffset', hat'⟩ := hagrees'.specCreatedAt
  rw [comparedAt, comparedAt, hoffset, hoffset']
  exact hat.symm.trans (hcreated.symm.trans hat')

include hrows in
/-- The rows mirror the files after every sync exactly when no pair changes its creation
time from one sync to another, in a history whose specs fit the columns. -/
theorem mirrored_after_every_sync_iff {events : List Event}
    (haddress : ∀ call ∈ saves events, call.spec.Addressable)
    (hreads : ∀ call ∈ saves events, pydantic.ReadsBack call.spec)
    (hfits : ∀ before now after, events = before ++ .sync now :: after →
      AllMirrorable pydantic (Catalog.after (saves before))) :
    MirroredAfterEverySync registry pydantic sessionOffset mirror events ↔
      KeepsCreationTimes events :=
  ⟨keepsCreationTimes_of_mirrored sessionOffset hempty ⟨haddress, hreads, hfits⟩,
    mirrored_of_keepsCreationTimes sessionOffset hempty hrows ⟨haddress, hreads, hfits⟩⟩

end Run

def exampleMirror : Mirror := { tree := exampleDisk, rows := Table.empty }

def resynced (spec : StrategySpec) : List Event :=
  [.save ⟨firstVersion, false⟩, .sync 0, .save ⟨spec, true⟩, .sync 1]

section Examples

variable {spec : StrategySpec} (hspec : spec = firstVersion ∨ spec = rewritten)

include hspec

theorem forall_saves_resynced {p : StrategySpec → Prop} (hfirst : p firstVersion)
    (hrewritten : p rewritten) : ∀ call ∈ saves (resynced spec), p call.spec := by
  intro call hcall
  simp only [resynced, saves, List.filterMap_cons, List.filterMap_nil, List.mem_cons,
    List.not_mem_nil, or_false] at hcall
  obtain rfl | rfl := hcall
  · exact hfirst
  · obtain rfl | rfl := hspec
    · exact hfirst
    · exact hrewritten

theorem addressable_resynced : ∀ call ∈ saves (resynced spec), call.spec.Addressable :=
  forall_saves_resynced hspec (addressable_example isName_v1Json _)
    (addressable_example isName_v1Json _)

theorem readsBack_resynced : ∀ call ∈ saves (resynced spec), exampleForms.ReadsBack call.spec :=
  forall_saves_resynced hspec (readsBack_exampleForms (.inl rfl) _)
    (readsBack_exampleForms (.inr rfl) _)

theorem mirrorable_resynced (before : List Event) (now : Instant) (after : List Event)
    (hevents : resynced spec = before ++ .sync now :: after) :
    AllMirrorable exampleForms (Catalog.after (saves before)) := by
  intro strategyId version stored hstored
  obtain ⟨call, hcall, rfl⟩ := Catalog.exists_of_after_eq_some hstored
  have hmem : call ∈ saves (resynced spec) := by
    rw [hevents, saves_append]
    exact List.mem_append_left _ hcall
  refine forall_saves_resynced hspec ?_ ?_ call hmem
  · exact ⟨encodable_example (.inl rfl) _, by decide, by decide, by decide +kernel, rfl⟩
  · exact ⟨encodable_example (.inr rfl) _, by decide, by decide, by decide +kernel, rfl⟩

end Examples

theorem saved_twice_mirrored_iff :
    MirroredAfterEverySync { baseDir := ["strategies"] } exampleForms (fun _ => 0) exampleMirror
        (resynced firstVersion) ↔
      KeepsCreationTimes (resynced firstVersion) :=
  mirrored_after_every_sync_iff _ emptyDirectory_exampleDisk (fun _ _ => rfl)
    (addressable_resynced (.inl rfl)) (readsBack_resynced (.inl rfl))
    (mirrorable_resynced (.inl rfl))

/-- The row keeps the creation time of the first morning. -/
theorem rewritten_not_mirrored :
    ¬ ∀ (registry : StrategyRegistry) (pydantic : Pydantic) (sessionOffset : Int → Int)
      (mirror : Mirror) (events : List Event), EmptyDirectory mirror.tree registry.baseDir →
        (∀ strategyId version, getRow mirror.rows strategyId version = none) →
          (∀ call ∈ saves events, pydantic.ReadsBack call.spec) →
            MirroredAfterEverySync registry pydantic sessionOffset mirror events := by
  intro h
  have hmirrored := h { baseDir := ["strategies"] } exampleForms (fun _ => 0) exampleMirror
    (resynced rewritten) emptyDirectory_exampleDisk (fun _ _ => rfl)
    (readsBack_resynced (.inr rfl))
  have hkeeps := keepsCreationTimes_of_mirrored _ emptyDirectory_exampleDisk
    ⟨addressable_resynced (.inr rfl), readsBack_resynced (.inr rfl),
      mirrorable_resynced (.inr rfl)⟩ hmirrored
  have hsame := hkeeps [.save ⟨firstVersion, false⟩] 0 [.save ⟨rewritten, true⟩] 1 [] rfl
    "momentum" "v1" firstVersion rewritten rfl rfl
  exact absurd hsame (by decide)

end Ingest
end QuantPlatform
