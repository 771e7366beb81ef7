/-
A dict that is changed while it is iterated.

The entries stand in the order of their insertion.  A removal leaves a hole, and an insertion
may first rebuild the table without its holes; when it does is left open.  An iterator keeps
a position in the table, the size it started with and the number of values it may still give:
it raises when the size is another one, and when there is a value left beyond that number.  A
loop whose body keeps every entry in its place visits them all: `forEach_run`.
-/
import QuantPlatform.Effects.Program

structure LiveDict (κ α : Type) where
  entries : List (Option (κ × α))
  /-- How many keys were inserted so far. -/
  insertions : Nat

namespace LiveDict

open Effects

variable {κ α : Type}

def empty : LiveDict κ α where
  entries := []
  insertions := 0

/-- `d.items()`. -/
def items (d : LiveDict κ α) : List (κ × α) := d.entries.filterMap id

/-- `len(d)`. -/
def size (d : LiveDict κ α) : Nat := d.items.length

section Keys

variable [DecidableEq κ]

/-- `k in d`. -/
def contains (d : LiveDict κ α) (k : κ) : Bool := d.items.any fun item => item.1 = k

/-- `d[k] = a` of a key that is not there. -/
def insertNew (rebuilds : Nat → Bool) (d : LiveDict κ α) (k : κ) (a : α) : LiveDict κ α where
  entries :=
    (if rebuilds d.insertions then d.entries.filter Option.isSome else d.entries) ++ [some (k, a)]
  insertions := d.insertions + 1

/-- `d.pop(k, None)`. -/
def pop (d : LiveDict κ α) (k : κ) : LiveDict κ α :=
  { d with entries := d.entries.map fun entry => entry.filter fun item => item.1 ≠ k }

end Keys

/-- Another value in the entry at a position. -/
def replace (d : LiveDict κ α) (position : Nat) (item : κ × α) : LiveDict κ α :=
  { d with entries := d.entries.set position (some item) }

theorem items_insertNew [DecidableEq κ] (rebuilds : Nat → Bool) (d : LiveDict κ α) (k : κ)
    (a : α) : (d.insertNew rebuilds k a).items = d.items ++ [(k, a)] := by
  have hrebuilt : (d.entries.filter Option.isSome).filterMap id = d.items := by
    rw [List.filterMap_filter, items]
    congr 1
    funext entry
    cases entry with
    | none => rfl
    | some item => rfl
  rw [items, insertNew, List.filterMap_append]
  cases rebuilds d.insertions with
  | true => rw [if_pos rfl, hrebuilt]; rfl
  | false => rw [if_neg Bool.false_ne_true]; rfl

theorem items_pop [DecidableEq κ] (d : LiveDict κ α) (k : κ) :
    (d.pop k).items = d.items.filter fun item => item.1 ≠ k := by
  rw [items, pop, List.filterMap_map, items, List.filter_filterMap]
  rfl

theorem contains_congr [DecidableEq κ] {d d' : LiveDict κ α}
    (h : d.items.map Prod.fst = d'.items.map Prod.fst) : d.contains = d'.contains := by
  have hkeys : ∀ (d : LiveDict κ α) (k : κ),
      d.contains k = (d.items.map Prod.fst).any fun key => key = k := by
    intro d k
    rw [List.any_map]
    rfl
  funext k
  rw [hkeys, hkeys, h]

theorem filter_items_of_not_contains [DecidableEq κ] {d : LiveDict κ α} {k : κ}
    (h : d.contains k = false) : d.items.filter (fun item => item.1 = k) = [] := by
  rw [List.filter_eq_nil_iff]
  intro item hitem hkey
  exact Bool.eq_false_iff.mp h (List.any_eq_true.mpr ⟨item, hitem, hkey⟩)

theorem pop_of_not_contains [DecidableEq κ] {d : LiveDict κ α} {k : κ}
    (h : d.contains k = false) : d.pop k = d := by
  have hkept : ∀ entry ∈ d.entries, (entry.filter fun item => item.1 ≠ k) = id entry := by
    intro entry hentry
    cases entry with
    | none => rfl
    | some item =>
      have hitem : item ∈ d.items := List.mem_filterMap.mpr ⟨some item, hentry, rfl⟩
      refine Option.filter_eq_some_iff.mpr ⟨rfl, decide_eq_true fun hkey => ?_⟩
      exact Bool.eq_false_iff.mp h (List.any_eq_true.mpr ⟨item, hitem, decide_eq_true hkey⟩)
  rw [pop, List.map_congr_left hkept, List.map_id]

theorem replace_entries (d : LiveDict κ α) (before rest : List (Option (κ × α)))
    (entry : Option (κ × α)) (item : κ × α) :
    ({ d with entries := before ++ entry :: rest } : LiveDict κ α).replace before.length item =
      { d with entries := before ++ some item :: rest } := by
  rw [replace, List.set_append_right _ _ (Nat.le_refl _), Nat.sub_self]
  rfl

/-- A function of the entries passes over the holes. -/
theorem filterMap_id_map {β : Type} (f : κ × α → β) (entries : List (Option (κ × α))) :
    (entries.map (Option.map f)).filterMap id = (entries.filterMap id).map f := by
  rw [List.filterMap_map, List.map_filterMap]
  rfl

/-- A value is replaced where it stands. -/
theorem items_replace {d : LiveDict κ α} {position : Nat} {item : κ × α}
    (h : d.entries[position]? = some (some item)) (item' : κ × α) :
    ∃ before after, d.items = before ++ item :: after ∧
      (d.replace position item').items = before ++ item' :: after := by
  obtain ⟨hposition, hitem⟩ := List.getElem?_eq_some_iff.mp h
  refine ⟨(d.entries.take position).filterMap id, (d.entries.drop (position + 1)).filterMap id,
    ?_, ?_⟩
  · have hentries := List.take_append_drop position d.entries
    rw [List.drop_eq_getElem_cons hposition, hitem] at hentries
    calc d.items
        = (d.entries.take position ++ some item :: d.entries.drop (position + 1)).filterMap id :=
          congrArg (List.filterMap id) hentries.symm
      _ = (d.entries.take position).filterMap id ++
            item :: (d.entries.drop (position + 1)).filterMap id := by
          rw [List.filterMap_append]
          rfl
  · rw [items, replace, List.set_eq_take_append_cons_drop, if_pos hposition,
      List.filterMap_append]
    rfl

/-- The first entry of a list that is not a hole, the list starting at a position. -/
def firstFrom : List (Option (κ × α)) → Nat → Option (Nat × (κ × α))
  | [], _ => none
  | none :: rest, position => firstFrom rest (position + 1)
  | some item :: _, position => some (position, item)

inductive Next (κ α : Type)
  | sizeChanged
  | done
  | value (position : Nat) (item : κ × α)

/-- What an iterator finds that started with a size and stands at a position. -/
def next (size position : Nat) (d : LiveDict κ α) : Next κ α :=
  if d.size ≠ size then .sizeChanged
  else
    match firstFrom (d.entries.drop position) position with
    | none => .done
    | some (found, item) => .value found item

section Loop

variable {σ ε β : Type} (table : σ → LiveDict κ α) (sizeChanged keysChanged : ε)
  (body : Nat → κ × α → β → Program σ ε β) (size : Nat)

/-- `for item in d.items(): body`, from a position, with a number of values to come. -/
def forEachFrom : (remaining position : Nat) → β → Program σ ε β
  | 0, position, acc => do
      match ← Program.read fun s => next size position (table s) with
      | .sizeChanged => Program.raise sizeChanged
      | .done => return acc
      | .value _ _ => Program.raise keysChanged
  | remaining + 1, position, acc => do
      match ← Program.read fun s => next size position (table s) with
      | .sizeChanged => Program.raise sizeChanged
      | .done => return acc
      | .value found item => do
          let acc ← body found item acc
          forEachFrom remaining (found + 1) acc

def forEach (acc : β) : Program σ ε β := do
  let size ← Program.read fun s => (table s).size
  forEachFrom table sizeChanged keysChanged body size size 0 acc

end Loop

theorem getElem_firstFrom {rest : List (Option (κ × α))} {position found : Nat} {item : κ × α}
    (h : firstFrom rest position = some (found, item)) :
    ∃ n, found = position + n ∧ rest[n]? = some (some item) := by
  induction rest generalizing position with
  | nil => cases h
  | cons entry rest ih =>
    cases entry with
    | none =>
      obtain ⟨n, hfound, hitem⟩ := ih h
      exact ⟨n + 1, by omega, hitem⟩
    | some first =>
      obtain ⟨rfl, rfl⟩ := Prod.mk.inj (Option.some.inj h)
      exact ⟨0, rfl, rfl⟩

theorem next_eq_value {size position found : Nat} {d : LiveDict κ α} {item : κ × α}
    (h : next size position d = .value found item) : d.entries[found]? = some (some item) := by
  unfold next at h
  by_cases hsize : d.size ≠ size
  · rw [if_pos hsize] at h
    cases h
  rw [if_neg hsize] at h
  cases hfirst : firstFrom (d.entries.drop position) position with
  | none =>
    rw [hfirst] at h
    cases h
  | some first =>
    rw [hfirst] at h
    cases h
    obtain ⟨n, hfound, hitem⟩ := getElem_firstFrom hfirst
    rw [List.getElem?_drop, ← hfound] at hitem
    exact hitem

section Entries

variable {d : LiveDict κ α} {size : Nat} {before rest : List (Option (κ × α))}

theorem next_nil (hsize : d.size = size) (h : d.entries = before) :
    next size before.length d = .done := by
  rw [next, if_neg (not_not.mpr hsize), h, List.drop_length]
  rfl

theorem next_hole (h : d.entries = before ++ none :: rest) :
    next size before.length d = next size (before.length + 1) d := by
  have hrest : d.entries.drop (before.length + 1) = rest := by
    rw [h, ← List.drop_drop, List.drop_left]
    rfl
  rw [next, next, hrest, h, List.drop_left, firstFrom]

theorem next_some {item : κ × α} (hsize : d.size = size)
    (h : d.entries = before ++ some item :: rest) :
    next size before.length d = .value before.length item := by
  rw [next, if_neg (not_not.mpr hsize), h, List.drop_left]
  rfl

end Entries

/-- A hole is passed over. -/
theorem forEachFrom_hole {σ ε β : Type} {table : σ → LiveDict κ α} {sizeChanged keysChanged : ε}
    {body : Nat → κ × α → β → Program σ ε β} {size : Nat} {before rest : List (Option (κ × α))}
    {s : σ} (h : (table s).entries = before ++ none :: rest) (remaining : Nat) (acc : β) :
    forEachFrom table sizeChanged keysChanged body size remaining before.length acc s =
      forEachFrom table sizeChanged keysChanged body size remaining (before.length + 1) acc s := by
  cases remaining with
  | zero =>
    rw [forEachFrom, forEachFrom, Program.bind_read, Program.bind_read, next_hole h]
  | succ remaining =>
    rw [forEachFrom, forEachFrom, Program.bind_read, Program.bind_read, next_hole h]

/-! ## Rules of the loop -/

section Rules

variable {σ ε β : Type} {table : σ → LiveDict κ α} {sizeChanged keysChanged : ε}
  {body : Nat → κ × α → β → Program σ ε β} {size : Nat}

/-- What the body keeps from entry to entry holds wherever the loop ends. -/
theorem triple_forEachFrom {I : σ → Prop}
    (hbody : ∀ found item acc,
      Program.Triple (fun s => I s ∧ (table s).entries[found]? = some (some item))
        (body found item acc) (fun _ => I) fun _ => I) (remaining position : Nat) (acc : β) :
    Program.Triple I (forEachFrom table sizeChanged keysChanged body size remaining position acc)
      (fun _ => I) fun _ => I := by
  have hraise : ∀ (position : Nat) (e : ε) (found : Next κ α),
      Program.Triple (fun s => I s ∧ next size position (table s) = found)
        (Program.raise e : Program σ ε β) (fun _ => I) fun _ => I :=
    fun position e found => Program.triple_raise fun s hs => hs.1
  induction remaining generalizing position acc with
  | zero =>
    refine Program.triple_bind (fun found s => I s ∧ next size position (table s) = found)
      (Program.triple_read fun s hs => ⟨hs, rfl⟩) fun found => ?_
    cases found with
    | sizeChanged => exact hraise position sizeChanged .sizeChanged
    | done => exact Program.triple_pure fun s hs => hs.1
    | value found item => exact hraise position keysChanged (.value found item)
  | succ remaining ih =>
    refine Program.triple_bind (fun found s => I s ∧ next size position (table s) = found)
      (Program.triple_read fun s hs => ⟨hs, rfl⟩) fun found => ?_
    cases found with
    | sizeChanged => exact hraise position sizeChanged .sizeChanged
    | done => exact Program.triple_pure fun s hs => hs.1
    | value found item =>
      have hitem : Program.Triple
          (fun s => I s ∧ next size position (table s) = .value found item)
          (body found item acc) (fun _ => I) fun _ => I :=
        (hbody found item acc).conseq (fun s hs => ⟨hs.1, next_eq_value hs.2⟩)
          (fun _ _ h => h) fun _ _ h => h
      refine Program.triple_bind (fun _ => I) hitem fun acc => ?_
      exact ih (found + 1) acc

theorem triple_forEach {I : σ → Prop}
    (hbody : ∀ found item acc,
      Program.Triple (fun s => I s ∧ (table s).entries[found]? = some (some item))
        (body found item acc) (fun _ => I) fun _ => I) (acc : β) :
    Program.Triple I (forEach table sizeChanged keysChanged body acc) (fun _ => I) fun _ => I :=
  Program.triple_bind (fun _ => I) (Program.triple_read fun _ hs => hs)
    fun size => triple_forEachFrom hbody size 0 acc

/-- What a loop may rely on at an entry: `Before before rest acc s` says what was done. -/
structure Visits (table : σ → LiveDict κ α) (body : Nat → κ × α → β → Program σ ε β) (size : Nat)
    (Before : List (Option (κ × α)) → List (Option (κ × α)) → β → σ → Prop) : Prop where
  entries : ∀ before rest acc s, Before before rest acc s →
    (table s).entries = before ++ rest ∧ (table s).size = size
  hole : ∀ before rest acc s, Before before (none :: rest) acc s →
    Before (before ++ [none]) rest acc s
  value : ∀ before item rest acc s, Before before (some item :: rest) acc s →
    ∃ acc' s' item', body before.length item acc s = (.ok acc', s') ∧
      Before (before ++ [some item']) rest acc' s'

variable {Before : List (Option (κ × α)) → List (Option (κ × α)) → β → σ → Prop}

/-- A loop whose body keeps every entry in its place visits them all. -/
theorem forEachFrom_run (hvisits : Visits table body size Before)
    {before rest : List (Option (κ × α))} {acc : β} {s : σ} (h : Before before rest acc s) :
    ∃ before' acc' s', forEachFrom table sizeChanged keysChanged body size
        (rest.filterMap id).length before.length acc s = (.ok acc', s') ∧
      Before before' [] acc' s' := by
  induction rest generalizing before acc s with
  | nil =>
    obtain ⟨hentries, hsize⟩ := hvisits.entries _ _ _ _ h
    rw [List.append_nil] at hentries
    refine ⟨before, acc, s, ?_, h⟩
    show (Program.read (fun s => next size before.length (table s)) >>= _) s = _
    rw [Program.bind_read, next_nil hsize hentries]
    rfl
  | cons entry rest ih =>
    obtain ⟨hentries, hsize⟩ := hvisits.entries _ _ _ _ h
    cases entry with
    | none =>
      obtain ⟨before', acc', s', hrun, hafter⟩ := ih (hvisits.hole _ _ _ _ h)
      refine ⟨before', acc', s', ?_, hafter⟩
      rw [← hrun, List.length_append]
      exact forEachFrom_hole hentries _ acc
    | some item =>
      obtain ⟨acc', s', item', hbody, hnext⟩ := hvisits.value _ _ _ _ _ h
      obtain ⟨before', acc'', s'', hrun, hafter⟩ := ih hnext
      refine ⟨before', acc'', s'', ?_, hafter⟩
      show (Program.read (fun s => next size before.length (table s)) >>= _) s = _
      rw [Program.bind_read, next_some hsize hentries]
      show (body before.length item acc >>= _) s = _
      rw [Program.bind_of_ok hbody, ← hrun, List.length_append]
      rfl

end Rules

end LiveDict
