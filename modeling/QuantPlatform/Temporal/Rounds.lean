import QuantPlatform.Temporal.Fact
import Mathlib.Data.List.Induction

namespace Temporal

variable {K T V : Type*}

/-- What is said at one time. -/
structure Round (K T V : Type*) where
  time : T
  said : List (K × V)

def Round.facts (round : Round K T V) : List (Fact K T V) :=
  round.said.map fun kv => { subject := kv.1, time := round.time, value := kv.2 }

variable [DecidableEq K] [LinearOrder T]

/-- What the round says of a subject first. -/
def Round.value? (round : Round K T V) (k : K) : Option V :=
  (round.said.find? fun kv => kv.1 = k).map Prod.snd

/-- What the last round up to the cutoff says of the subject, among those that speak of it. -/
def lastSaid (rounds : List (Round K T V)) (k : K) (cutoff : T) : Option (T × V) :=
  (rounds.filter fun round => round.time ≤ cutoff).reverse.findSome? fun round =>
    (round.value? k).map fun v => (round.time, v)

theorem first_facts (round : Round K T V) (k : K) (t : T) :
    first round.facts k t = if round.time = t then round.value? k else none := by
  unfold first Round.facts Round.value?
  rw [List.find?_map, Option.map_map]
  by_cases ht : round.time = t
  · rw [if_pos ht]
    simp only [Function.comp_def, ht, and_true]
  · rw [if_neg ht]
    simp [Function.comp_def, ht]

theorem mem_times_facts_iff (round : Round K T V) (k : K) (t : T) :
    t ∈ times round.facts k ↔ round.time = t ∧ (round.value? k).isSome := by
  rw [mem_times_iff, first_facts]
  by_cases ht : round.time = t
  · simp only [ht, if_true, true_and, Option.isSome_iff_exists]
  · simp [ht]

omit [DecidableEq K] [LinearOrder T] in
theorem times_append (facts later : List (Fact K T V)) (k : K) :
    times (facts ++ later) k = times facts k ∪ times later k := by
  ext t
  simp only [times, List.mem_append, Set.mem_ofPred_eq, Set.mem_union]
  constructor
  · rintro ⟨f, hf | hf, hft⟩
    · exact Or.inl ⟨f, hf, hft⟩
    · exact Or.inr ⟨f, hf, hft⟩
  · rintro (⟨f, hf, hft⟩ | ⟨f, hf, hft⟩)
    · exact ⟨f, Or.inl hf, hft⟩
    · exact ⟨f, Or.inr hf, hft⟩

/-- Facts that say nothing of the subject up to the cutoff leave its view alone. -/
theorem seenAt_append_of_silent {facts later : List (Fact K T V)} {k : K} {cutoff : T}
    (hsilent : ∀ s ∈ times later k, cutoff < s) (t : T) (v : V) :
    SeenAt (facts ++ later) k cutoff t v ↔ SeenAt facts k cutoff t v := by
  have htimes : {s ∈ times (facts ++ later) k | s ≤ cutoff} =
      {s ∈ times facts k | s ≤ cutoff} := by
    ext s
    simp only [times_append, Set.mem_ofPred_eq, Set.mem_union]
    constructor
    · rintro ⟨hs | hs, hle⟩
      · exact ⟨hs, hle⟩
      · exact absurd hle (not_le.mpr (hsilent s hs))
    · exact fun h => ⟨Or.inl h.1, h.2⟩
  unfold SeenAt
  rw [htimes]
  refine and_congr_right fun hgreatest => ?_
  obtain ⟨w, hw⟩ := (mem_times_iff facts k t).mp hgreatest.1.1
  rw [first_append, hw]
  rfl

/-- A round that speaks of the subject in time is what is seen of it. -/
theorem seenAt_append_of_said {facts : List (Fact K T V)} {round : Round K T V} {k : K}
    {cutoff : T} {v : V} (hbefore : ∀ s ∈ times facts k, s < round.time)
    (htime : round.time ≤ cutoff) (hsaid : round.value? k = some v) :
    SeenAt (facts ++ round.facts) k cutoff round.time v := by
  have hmem : round.time ∈ times round.facts k :=
    (mem_times_facts_iff round k _).mpr ⟨rfl, by rw [hsaid]; rfl⟩
  refine ⟨⟨⟨?_, htime⟩, fun s hs => ?_⟩, ?_⟩
  · rw [times_append]
    exact Or.inr hmem
  · rw [times_append] at hs
    rcases hs.1 with hs | hs
    · exact (hbefore s hs).le
    · exact ((mem_times_facts_iff round k s).mp hs).1.ge
  · have hnew : first facts k round.time = none := by
      refine Option.eq_none_iff_forall_ne_some.mpr fun w hw => ?_
      exact lt_irrefl _ (hbefore _ ((mem_times_iff facts k _).mpr ⟨w, hw⟩))
    rw [first_append, hnew, first_facts, if_pos rfl, hsaid]
    rfl

theorem lastSaid_concat (rounds : List (Round K T V)) (round : Round K T V) (k : K)
    (cutoff : T) :
    lastSaid (rounds ++ [round]) k cutoff =
      (if round.time ≤ cutoff then (round.value? k).map fun v => (round.time, v) else none).or
        (lastSaid rounds k cutoff) := by
  unfold lastSaid
  rw [List.filter_append, List.reverse_append]
  by_cases ht : round.time ≤ cutoff
  · rw [List.filter_cons_of_pos (by simpa using ht), if_pos ht, List.filter_nil,
      List.reverse_singleton, List.singleton_append, List.findSome?_cons]
    cases (round.value? k).map fun v => (round.time, v) with
    | none => rfl
    | some tv => rfl
  · rw [List.filter_cons_of_neg (by simpa using ht), if_neg ht]
    rfl

theorem seenAt_rounds_iff {rounds : List (Round K T V)}
    (hordered : rounds.Pairwise fun a b => a.time < b.time) (k : K) (cutoff t : T) (v : V) :
    SeenAt (rounds.flatMap Round.facts) k cutoff t v ↔ lastSaid rounds k cutoff = some (t, v) := by
  induction rounds using List.reverseRecOn with
  | nil =>
    refine iff_of_false ?_ fun h => by cases h
    rintro ⟨⟨⟨⟨f, hf, _⟩, _⟩, _⟩, _⟩
    cases hf
  | append_singleton rounds round ih =>
    rw [List.pairwise_append] at hordered
    have hih := ih hordered.1
    have hbefore : ∀ s ∈ times (rounds.flatMap Round.facts) k, s < round.time := by
      rintro s ⟨f, hf, _, rfl⟩
      obtain ⟨earlier, hearlier, hf⟩ := List.mem_flatMap.mp hf
      obtain ⟨kv, _, rfl⟩ := List.mem_map.mp hf
      exact hordered.2.2 earlier hearlier round (List.mem_singleton_self round)
    rw [List.flatMap_append, List.flatMap_singleton, lastSaid_concat]
    by_cases htime : round.time ≤ cutoff
    · cases hsaid : round.value? k with
      | some w =>
        have hseen := seenAt_append_of_said hbefore htime hsaid
        rw [if_pos htime, Option.map_some, Option.some_or, Option.some.injEq, Prod.mk.injEq]
        constructor
        · exact fun h => hseen.unique h
        · rintro ⟨rfl, rfl⟩
          exact hseen
      | none =>
        rw [if_pos htime, Option.map_none, Option.none_or, ← hih]
        refine seenAt_append_of_silent (fun s hs => ?_) t v
        have hsome := ((mem_times_facts_iff round k s).mp hs).2
        rw [hsaid] at hsome
        cases hsome
    · rw [if_neg htime, Option.none_or, ← hih]
      refine seenAt_append_of_silent (fun s hs => ?_) t v
      exact ((mem_times_facts_iff round k s).mp hs).1 ▸ not_le.mp htime

end Temporal
