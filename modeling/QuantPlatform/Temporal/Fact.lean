/-
Dated facts and what a reader sees of them at a cutoff.

A fact says that from time `t` on the value of a subject is known to be `v`.
Facts arrive in any order, several may carry one date, and the first to arrive
under a date is the one that counts.  `SeenAt facts k cutoff t v` is the view of
subject `k` at `cutoff`: `t` is the latest date not after the cutoff, and `v` is
the value that arrived first under it.

The view does not depend on the order or the number of times facts arrive once
no two of them disagree (`seenAt_congr`).  When facts arrive in the order of
their dates, the latest date of a subject is that of its last fact, but what is
seen is the first value under that date (`seenAt_iff_last`).
-/
import Mathlib.Order.Bounds.Basic
import Mathlib.Data.Finset.Max

namespace Temporal

/-- The value of a subject as known from a date on. -/
structure Fact (K T V : Type*) where
  subject : K
  time : T
  value : V

variable {K T V : Type*}

/-- The dates under which a subject has a fact. -/
def times (facts : List (Fact K T V)) (k : K) : Set T :=
  {t | ∃ f ∈ facts, f.subject = k ∧ f.time = t}

section First

variable [DecidableEq K] [DecidableEq T]

/-- The value that arrived first for a subject under a date. -/
def first (facts : List (Fact K T V)) (k : K) (t : T) : Option V :=
  (facts.find? fun f => f.subject = k ∧ f.time = t).map Fact.value

theorem first_append (facts later : List (Fact K T V)) (k : K) (t : T) :
    first (facts ++ later) k t = (first facts k t).or (first later k t) := by
  simp only [first, List.find?_append]
  cases facts.find? fun f => f.subject = k ∧ f.time = t <;> rfl

theorem first_singleton (f : Fact K T V) (k : K) (t : T) :
    first [f] k t = if f.subject = k ∧ f.time = t then some f.value else none := by
  by_cases h : f.subject = k ∧ f.time = t
  · simp [first, h]
  · simp [first, h]

theorem exists_of_first {facts : List (Fact K T V)} {k : K} {t : T} {v : V}
    (h : first facts k t = some v) :
    ∃ f ∈ facts, f.subject = k ∧ f.time = t ∧ f.value = v := by
  obtain ⟨f, hf, hv⟩ := Option.map_eq_some_iff.mp h
  have hkt : f.subject = k ∧ f.time = t := by simpa using List.find?_some hf
  exact ⟨f, List.mem_of_find?_eq_some hf, hkt.1, hkt.2, hv⟩

theorem mem_times_iff (facts : List (Fact K T V)) (k : K) (t : T) :
    t ∈ times facts k ↔ ∃ v, first facts k t = some v := by
  constructor
  · intro h
    obtain ⟨f, hf, hk, ht⟩ := h
    cases h : first facts k t with
    | some v => exact ⟨v, rfl⟩
    | none =>
        have hnone := List.find?_eq_none.mp (Option.map_eq_none_iff.mp h) f hf
        simp [hk, ht] at hnone
  · intro h
    obtain ⟨v, hv⟩ := h
    obtain ⟨f, hf, hk, ht, _⟩ := exists_of_first hv
    exact ⟨f, hf, hk, ht⟩

/-- No two facts give a subject different values under one date. -/
def Coherent (facts : List (Fact K T V)) : Prop :=
  ∀ f ∈ facts, ∀ g ∈ facts, f.subject = g.subject → f.time = g.time → f.value = g.value

theorem first_eq_of_coherent {facts : List (Fact K T V)} (hc : Coherent facts)
    {f : Fact K T V} (hf : f ∈ facts) : first facts f.subject f.time = some f.value := by
  obtain ⟨v, hv⟩ := (mem_times_iff facts f.subject f.time).mp ⟨f, hf, rfl, rfl⟩
  obtain ⟨g, hg, hk, ht, hgv⟩ := exists_of_first hv
  rw [hv, ← hgv, hc g hg f hf hk ht]

/-- The dates of a subject, each where it arrived first. -/
def arrivals (facts : List (Fact K T V)) (k : K) : List T :=
  ((facts.filter fun f => f.subject = k).map Fact.time).eraseDups

omit [DecidableEq K] in
theorem eraseDups_snoc (ts : List T) (t : T) :
    (ts ++ [t]).eraseDups = if t ∈ ts.eraseDups then ts.eraseDups else ts.eraseDups ++ [t] := by
  have hmem : t ∈ ts.eraseDups ↔ t ∈ ts := List.mem_eraseDups
  rw [List.eraseDups_append]
  by_cases h : t ∈ ts
  · rw [if_pos (hmem.mpr h), List.cons_removeAll, if_neg (by simp [h]), List.nil_removeAll,
      List.eraseDups_nil, List.append_nil]
  · rw [if_neg (mt hmem.mp h), List.cons_removeAll, if_pos (by simp [h]), List.nil_removeAll]
    rfl

/-- One more fact adds its date when the date is new. -/
theorem arrivals_snoc (facts : List (Fact K T V)) (f : Fact K T V) :
    arrivals (facts ++ [f]) f.subject =
      if f.time ∈ arrivals facts f.subject then arrivals facts f.subject
      else arrivals facts f.subject ++ [f.time] := by
  unfold arrivals
  rw [List.filter_append, List.filter_cons_of_pos (by simp), List.map_append]
  exact eraseDups_snoc _ f.time

theorem arrivals_snoc_of_ne (facts : List (Fact K T V)) {f : Fact K T V} {k : K}
    (h : f.subject ≠ k) : arrivals (facts ++ [f]) k = arrivals facts k := by
  unfold arrivals
  rw [List.filter_append, List.filter_cons_of_neg (by simpa using h), List.filter_nil,
    List.append_nil]

end First

section SeenAt

variable [DecidableEq K] [LinearOrder T]

/-- A reader at `cutoff` sees `v`, dated `t`, as the value of `k`. -/
def SeenAt (facts : List (Fact K T V)) (k : K) (cutoff t : T) (v : V) : Prop :=
  IsGreatest {s ∈ times facts k | s ≤ cutoff} t ∧ first facts k t = some v

theorem SeenAt.unique {facts : List (Fact K T V)} {k : K} {cutoff t t' : T} {v v' : V}
    (h : SeenAt facts k cutoff t v) (h' : SeenAt facts k cutoff t' v') : t = t' ∧ v = v' := by
  have ht : t = t' := h.1.unique h'.1
  subst ht
  exact ⟨rfl, Option.some.inj (h.2.symm.trans h'.2)⟩

/-- Something is seen of a subject as soon as one fact of it is dated in time. -/
theorem exists_seenAt_iff (facts : List (Fact K T V)) (k : K) (cutoff : T) :
    (∃ t v, SeenAt facts k cutoff t v) ↔ ∃ f ∈ facts, f.subject = k ∧ f.time ≤ cutoff := by
  constructor
  · intro h
    obtain ⟨t, v, hgreatest, _⟩ := h
    obtain ⟨⟨f, hf, hk, ht⟩, hle⟩ := hgreatest.1
    exact ⟨f, hf, hk, ht ▸ hle⟩
  · intro h
    obtain ⟨f, hf, hk, hle⟩ := h
    -- The dates in time are those of finitely many facts, so one of them is latest.
    let dates := ((facts.filter fun g => g.subject = k ∧ g.time ≤ cutoff).map Fact.time).toFinset
    have hmem : ∀ s, s ∈ dates ↔ s ∈ times facts k ∧ s ≤ cutoff := by
      intro s
      simp only [dates, List.mem_toFinset, List.mem_map, List.mem_filter, decide_eq_true_eq,
        times, Set.mem_ofPred_eq]
      constructor
      · intro h
        obtain ⟨g, ⟨hg, hgk, hgle⟩, rfl⟩ := h
        exact ⟨⟨g, hg, hgk, rfl⟩, hgle⟩
      · intro h
        obtain ⟨⟨g, hg, hgk, rfl⟩, hgle⟩ := h
        exact ⟨g, ⟨hg, hgk, hgle⟩, rfl⟩
    obtain ⟨t, ht, hmax⟩ := dates.exists_max_image id ⟨f.time, (hmem _).mpr ⟨⟨f, hf, hk, rfl⟩, hle⟩⟩
    obtain ⟨v, hv⟩ := (mem_times_iff facts k t).mp ((hmem t).mp ht).1
    exact ⟨t, v, ⟨(hmem t).mp ht, fun s hs => hmax s ((hmem s).mpr hs)⟩, hv⟩

/-- Coherent histories with the same facts give every reader the same view. -/
theorem seenAt_congr {facts facts' : List (Fact K T V)} (hc : Coherent facts)
    (hsame : ∀ f, f ∈ facts ↔ f ∈ facts') (k : K) (cutoff t : T) (v : V) :
    SeenAt facts k cutoff t v ↔ SeenAt facts' k cutoff t v := by
  have hc' : Coherent facts' := fun f hf g hg =>
    hc f ((hsame f).mpr hf) g ((hsame g).mpr hg)
  have htimes : times facts k = times facts' k := by
    ext s
    simp only [times, Set.mem_ofPred_eq, hsame]
  have hfirst : ∀ w, first facts k t = some w ↔ first facts' k t = some w := by
    intro w
    constructor
    · intro h
      obtain ⟨f, hf, rfl, rfl, rfl⟩ := exists_of_first h
      exact first_eq_of_coherent hc' ((hsame f).mp hf)
    · intro h
      obtain ⟨f, hf, rfl, rfl, rfl⟩ := exists_of_first h
      exact first_eq_of_coherent hc ((hsame f).mpr hf)
  unfold SeenAt
  rw [htimes, hfirst]

/-- The fact of a subject that arrived last. -/
def last (facts : List (Fact K T V)) (k : K) : Option (Fact K T V) :=
  facts.reverse.find? fun f => f.subject = k

omit [LinearOrder T] in
theorem mem_of_last {facts : List (Fact K T V)} {k : K} {f : Fact K T V}
    (h : last facts k = some f) : f ∈ facts ∧ f.subject = k :=
  ⟨List.mem_reverse.mp (List.mem_of_find?_eq_some h), by simpa using List.find?_some h⟩

omit [LinearOrder T] in
theorem exists_last {facts : List (Fact K T V)} {f : Fact K T V} (h : f ∈ facts) :
    ∃ g, last facts f.subject = some g := by
  have hsome : (facts.reverse.find? fun g => g.subject = f.subject).isSome := by
    rw [List.find?_isSome]
    exact ⟨f, List.mem_reverse.mpr h, by simp⟩
  exact Option.isSome_iff_exists.mp hsome

/-- When facts arrive in the order of their dates, the last of a subject carries
its latest date. -/
theorem time_le_last {facts : List (Fact K T V)}
    (hordered : facts.Pairwise fun f g => f.time ≤ g.time) {k : K} {f : Fact K T V}
    (h : last facts k = some f) {g : Fact K T V} (hg : g ∈ facts) (hk : g.subject = k) :
    g.time ≤ f.time := by
  obtain ⟨_, after, before, hsplit, hafter⟩ := List.find?_eq_some_iff_append.mp h
  have hreverse := List.pairwise_reverse.mpr hordered
  rw [hsplit, List.pairwise_append, List.pairwise_cons] at hreverse
  have hmem := List.mem_reverse.mpr hg
  rw [hsplit, List.mem_append, List.mem_cons] at hmem
  rcases hmem with hmem | hmem | hmem
  · exact absurd hk (by simpa using hafter g hmem)
  · exact hmem ▸ le_rfl
  · exact hreverse.2.1.1 g hmem

/-- A reader who comes after all facts sees, of each subject, the value that
arrived first under the date of its last fact. -/
theorem seenAt_iff_last {facts : List (Fact K T V)}
    (hordered : facts.Pairwise fun f g => f.time ≤ g.time) {cutoff : T}
    (hcutoff : ∀ f ∈ facts, f.time ≤ cutoff) (k : K) (t : T) (v : V) :
    SeenAt facts k cutoff t v ↔
      ∃ f, last facts k = some f ∧ f.time = t ∧ first facts k t = some v := by
  constructor
  · intro h
    obtain ⟨⟨⟨⟨g, hg, hgk, hgt⟩, _⟩, hgreatest⟩, hfirst⟩ := h
    subst hgk
    obtain ⟨f, hf⟩ := exists_last hg
    obtain ⟨hmem, hk⟩ := mem_of_last hf
    refine ⟨f, hf, le_antisymm ?_ ?_, hfirst⟩
    · exact hgreatest ⟨⟨f, hmem, hk, rfl⟩, hcutoff f hmem⟩
    · exact hgt ▸ time_le_last hordered hf hg rfl
  · intro h
    obtain ⟨f, hf, ht, hfirst⟩ := h
    subst ht
    obtain ⟨hmem, hk⟩ := mem_of_last hf
    refine ⟨⟨⟨⟨f, hmem, hk, rfl⟩, hcutoff f hmem⟩, ?_⟩, hfirst⟩
    intro s hs
    obtain ⟨⟨g, hg, hgk, hgt⟩, _⟩ := hs
    exact hgt ▸ time_le_last hordered hf hg hgk

end SeenAt

end Temporal
