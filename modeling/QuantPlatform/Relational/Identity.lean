/-
Rows that are found by a key, or else made under a new identity.

The key of a row may be `NULL`, and then no other row is found for it.  A row is drafted
before its identity is known; `create` gives back the row that has the draft's key when
there is one, and nothing of the draft is stored then.  A patch changes rows in place and
leaves identity and key alone.  So the row of a key is that of the first draft under it,
with the patches that came after.
-/
import Mathlib.Data.List.Induction
import Mathlib.Data.List.Lemmas
import Mathlib.Data.List.Nodup

namespace Relational

variable {ρ κ : Type*}

/-- A table whose keys are unique where they are not `NULL`, and its identity sequence. -/
structure IdentityTable (ρ : Type*) {κ : Type*} (id : ρ → ℕ) (key : ρ → Option κ) where
  rows : List ρ
  nextId : ℕ
  id_lt : ∀ r ∈ rows, id r < nextId
  ids : (rows.map id).Nodup
  keys : (rows.filterMap key).Nodup

/-- A row but for its identity. -/
structure Draft (ρ : Type*) {κ : Type*} (id : ρ → ℕ) (key : ρ → Option κ) where
  key? : Option κ
  toRow : ℕ → ρ
  id_toRow : ∀ n, id (toRow n) = n
  key_toRow : ∀ n, key (toRow n) = key?

/-- An `UPDATE` that sets neither identity nor key. -/
structure Patch (ρ : Type*) {κ : Type*} (id : ρ → ℕ) (key : ρ → Option κ) where
  apply : ρ → ρ
  id_apply : ∀ r, id (apply r) = id r
  key_apply : ∀ r, key (apply r) = key r

namespace IdentityTable

variable {id : ρ → ℕ} {key : ρ → Option κ}

def empty : IdentityTable ρ id key where
  rows := []
  nextId := 1
  id_lt r hr := by cases hr
  ids := List.nodup_nil
  keys := List.nodup_nil

theorem eq_of_id_eq (t : IdentityTable ρ id key) {r s : ρ} (hr : r ∈ t.rows) (hs : s ∈ t.rows)
    (h : id r = id s) : r = s :=
  List.inj_on_of_nodup_map t.ids hr hs h

theorem eq_of_key_eq (t : IdentityTable ρ id key) {r s : ρ} (hr : r ∈ t.rows) (hs : s ∈ t.rows)
    {k : κ} (hrkey : key r = some k) (hskey : key s = some k) : r = s := by
  have hdistinct := t.keys
  rw [List.Nodup, List.pairwise_filterMap] at hdistinct
  have hall : ∀ x ∈ t.rows, ∀ y ∈ t.rows, key x = some k → key y = some k → x = y := by
    refine List.Pairwise.forall_of_forall_of_flip (fun x _ _ _ => rfl) ?_ ?_
    · exact hdistinct.imp fun h hx hy => absurd rfl (h k hx k hy)
    · exact hdistinct.imp fun h hy hx => absurd rfl (h k hx k hy)
  exact hall r hr s hs hrkey hskey

/-- `INSERT … RETURNING id`, where no row has the key. -/
def insert (t : IdentityTable ρ id key) (draft : Draft ρ id key)
    (hfresh : ∀ k, draft.key? = some k → ∀ r ∈ t.rows, key r ≠ some k) :
    IdentityTable ρ id key where
  rows := t.rows ++ [draft.toRow t.nextId]
  nextId := t.nextId + 1
  id_lt r hr := by
    rcases List.mem_append.mp hr with hr | hr
    · exact Nat.lt_succ_of_lt (t.id_lt r hr)
    · rw [List.mem_singleton.mp hr, draft.id_toRow]
      exact Nat.lt_succ_self _
  ids := by
    rw [List.map_append, List.map_singleton, List.nodup_append]
    refine ⟨t.ids, List.nodup_singleton _, fun a ha b hb => ?_⟩
    obtain ⟨r, hr, hra⟩ := List.mem_map.mp ha
    rw [List.mem_singleton.mp hb, ← hra, draft.id_toRow]
    exact Nat.ne_of_lt (t.id_lt r hr)
  keys := by
    rw [List.filterMap_append, List.nodup_append]
    refine ⟨t.keys, ?_, fun a ha b hb => ?_⟩
    · rw [List.filterMap_cons, draft.key_toRow]
      cases draft.key? with
      | none => exact List.nodup_nil
      | some k => exact List.nodup_singleton k
    · obtain ⟨r, hr, hra⟩ := List.mem_filterMap.mp ha
      obtain ⟨s, hs, hsb⟩ := List.mem_filterMap.mp hb
      rw [List.mem_singleton.mp hs, draft.key_toRow] at hsb
      intro hab
      exact hfresh b hsb r hr (hab ▸ hra)

/-- `UPDATE`. -/
def update (t : IdentityTable ρ id key) (patch : Patch ρ id key) : IdentityTable ρ id key where
  rows := t.rows.map patch.apply
  nextId := t.nextId
  id_lt r hr := by
    obtain ⟨s, hs, rfl⟩ := List.mem_map.mp hr
    rw [patch.id_apply]
    exact t.id_lt s hs
  ids := by
    rw [List.map_map]
    have hsame : id ∘ patch.apply = id := funext patch.id_apply
    rw [hsame]
    exact t.ids
  keys := by
    rw [List.filterMap_map]
    have hsame : key ∘ patch.apply = key := funext patch.key_apply
    rw [hsame]
    exact t.keys

variable [DecidableEq κ]

def find (t : IdentityTable ρ id key) (k : κ) : Option ρ := t.rows.find? fun r => key r = some k

theorem find_eq_some_iff (t : IdentityTable ρ id key) (k : κ) (r : ρ) :
    t.find k = some r ↔ r ∈ t.rows ∧ key r = some k := by
  constructor
  · intro h
    exact ⟨List.mem_of_find?_eq_some h, by simpa using List.find?_some h⟩
  · intro h
    cases hfind : t.find k with
    | none =>
      have hnone := List.find?_eq_none.mp hfind r h.1
      simp [h.2] at hnone
    | some s =>
      have hs : key s = some k := by simpa using List.find?_some hfind
      rw [t.eq_of_key_eq (List.mem_of_find?_eq_some hfind) h.1 hs h.2]

theorem find_eq_none_iff (t : IdentityTable ρ id key) (k : κ) :
    t.find k = none ↔ ∀ r ∈ t.rows, key r ≠ some k := by
  simp [find, List.find?_eq_none]

/-- `get_or_insert` by a key that is not `NULL`, else a plain insert: the table, the row's
identity, and whether the row is new. -/
def create (t : IdentityTable ρ id key) (draft : Draft ρ id key) :
    IdentityTable ρ id key × ℕ × Bool :=
  match hkey : draft.key? with
  | none => (t.insert draft (by simp [hkey]), t.nextId, true)
  | some k =>
      match hfind : t.find k with
      | some existing => (t, id existing, false)
      | none =>
          (t.insert draft (by
            intro l hl
            rw [hkey, Option.some.injEq] at hl
            exact hl ▸ (t.find_eq_none_iff k).mp hfind), t.nextId, true)

/-! ## What they come to -/

theorem create_of_found {t : IdentityTable ρ id key} {draft : Draft ρ id key} {k : κ} {r : ρ}
    (hkey : draft.key? = some k) (hfind : t.find k = some r) :
    t.create draft = (t, id r, false) := by
  unfold create
  split
  · next hnone =>
      rw [hkey] at hnone
      cases hnone
  · next l hl =>
      rw [hkey] at hl
      cases hl
      split
      · next s hs =>
          rw [hfind] at hs
          cases hs
          rfl
      · next hs =>
          rw [hfind] at hs
          cases hs

/-- A draft without a key, or with one that no row has. -/
def IsNew (t : IdentityTable ρ id key) (draft : Draft ρ id key) : Prop :=
  ∀ k, draft.key? = some k → t.find k = none

theorem rows_create_of_isNew {t : IdentityTable ρ id key} {draft : Draft ρ id key}
    (h : t.IsNew draft) :
    (t.create draft).1.rows = t.rows ++ [draft.toRow t.nextId] ∧
      (t.create draft).1.nextId = t.nextId + 1 ∧ (t.create draft).2 = (t.nextId, true) := by
  unfold create
  split
  · exact ⟨rfl, rfl, rfl⟩
  · next k hk =>
      split
      · next r hr =>
          rw [h k hk] at hr
          cases hr
      · exact ⟨rfl, rfl, rfl⟩

theorem create_of_not_isNew {t : IdentityTable ρ id key} {draft : Draft ρ id key}
    (h : ¬ t.IsNew draft) : ∃ k r, draft.key? = some k ∧ t.find k = some r ∧
      t.create draft = (t, id r, false) := by
  obtain ⟨k, hk⟩ := not_forall.mp h
  obtain ⟨hkey, hfound⟩ := Classical.not_imp.mp hk
  obtain ⟨r, hr⟩ := Option.ne_none_iff_exists'.mp hfound
  exact ⟨k, r, hkey, hr, create_of_found hkey hr⟩

/-- The first draft under a key stays. -/
theorem find_create (t : IdentityTable ρ id key) (draft : Draft ρ id key) (k : κ) :
    (t.create draft).1.find k =
      (t.find k).or (if draft.key? = some k then some (draft.toRow t.nextId) else none) := by
  by_cases hnew : t.IsNew draft
  · rw [find, (rows_create_of_isNew hnew).1, List.find?_append, ← find]
    congr 1
    by_cases hk : draft.key? = some k
    · rw [if_pos hk, List.find?_cons_of_pos (by simp [draft.key_toRow, hk])]
    · rw [if_neg hk, List.find?_cons_of_neg (by simp [draft.key_toRow, hk]), List.find?_nil]
  · obtain ⟨l, r, hkey, hr, hsame⟩ := create_of_not_isNew hnew
    rw [hsame]
    by_cases hk : draft.key? = some k
    · rw [hkey] at hk
      cases hk
      rw [hr]
      rfl
    · rw [if_neg hk, Option.or_none]

/-- What `create` answers: the identity the row of its key has, and whether it is new. -/
theorem create_answer {t : IdentityTable ρ id key} {draft : Draft ρ id key} {k : κ}
    (hkey : draft.key? = some k) :
    (t.create draft).2.2 = (t.find k).isNone ∧
      ((t.create draft).1.find k).map id = some (t.create draft).2.1 := by
  cases hfind : t.find k with
  | some r =>
    rw [create_of_found hkey hfind]
    exact ⟨rfl, congrArg (Option.map id) hfind⟩
  | none =>
    have hnew : t.IsNew draft := by
      intro l hl
      rw [hkey] at hl
      cases hl
      exact hfind
    rw [find_create, hfind, if_pos hkey, (rows_create_of_isNew hnew).2.2]
    exact ⟨rfl, congrArg some (draft.id_toRow t.nextId)⟩

theorem find_update (t : IdentityTable ρ id key) (patch : Patch ρ id key) (k : κ) :
    (t.update patch).find k = (t.find k).map patch.apply := by
  show (t.rows.map patch.apply).find? _ = _
  rw [List.find?_map]
  have hsame : (fun r => decide (key r = some k)) ∘ patch.apply =
      fun r => decide (key r = some k) := by
    funext r
    simp only [Function.comp_apply, patch.key_apply]
  rw [hsame]
  rfl

/-- Found under one identity, two keys are one. -/
theorem key_eq_of_id_eq (t : IdentityTable ρ id key) {k l : κ} {n : ℕ}
    (hk : (t.find k).map id = some n) (hl : (t.find l).map id = some n) : k = l := by
  obtain ⟨r, hr, hrn⟩ := Option.map_eq_some_iff.mp hk
  obtain ⟨s, hs, hsn⟩ := Option.map_eq_some_iff.mp hl
  obtain ⟨hrmem, hrkey⟩ := (t.find_eq_some_iff k r).mp hr
  obtain ⟨hsmem, hskey⟩ := (t.find_eq_some_iff l s).mp hs
  have hsame : r = s := t.eq_of_id_eq hrmem hsmem (hrn.trans hsn.symm)
  rw [hsame, hskey] at hrkey
  exact (Option.some.inj hrkey).symm

/-- A `create` or an `UPDATE`. -/
inductive Write (id : ρ → ℕ) (key : ρ → Option κ)
  | create (draft : Draft ρ id key)
  | update (patch : Patch ρ id key)

/-- What a `create` answers. -/
def answer (t : IdentityTable ρ id key) : Write id key → Option (ℕ × Bool)
  | .create draft => some (t.create draft).2
  | .update _ => none

def write (t : IdentityTable ρ id key) : Write id key → IdentityTable ρ id key
  | .create draft => (t.create draft).1
  | .update patch => t.update patch

def after (t : IdentityTable ρ id key) (writes : List (Write id key)) :
    IdentityTable ρ id key := writes.foldl write t

/-- The answers of a run, write by write. -/
def answers (t : IdentityTable ρ id key) : List (Write id key) → List (Option (ℕ × Bool))
  | [] => []
  | w :: rest => t.answer w :: (t.write w).answers rest

/-- A draft under `k`. -/
def Write.Drafts (k : κ) : Write id key → Prop
  | .create draft => draft.key? = some k
  | .update _ => False

instance (k : κ) (w : Write id key) : Decidable (w.Drafts k) :=
  match w with
  | .create draft => inferInstanceAs (Decidable (draft.key? = some k))
  | .update _ => inferInstanceAs (Decidable False)

theorem after_append (t : IdentityTable ρ id key) (before later : List (Write id key)) :
    t.after (before ++ later) = (t.after before).after later := List.foldl_append

theorem after_concat (t : IdentityTable ρ id key) (before : List (Write id key))
    (w : Write id key) : t.after (before ++ [w]) = (t.after before).write w := by
  rw [after_append]
  rfl

theorem answers_split (t : IdentityTable ρ id key) (before : List (Write id key))
    (w : Write id key) (later : List (Write id key)) :
    (t.answers (before ++ w :: later))[before.length]? = some ((t.after before).answer w) := by
  induction before generalizing t with
  | nil => rfl
  | cons v before ih => exact ih (t.write v)

theorem find_write_of_not_drafts {t : IdentityTable ρ id key} {w : Write id key} {k : κ}
    (h : ¬ w.Drafts k) (hfind : t.find k = none) : (t.write w).find k = none := by
  cases w with
  | create draft =>
    have hkey : ¬ draft.key? = some k := h
    show (t.create draft).1.find k = none
    rw [find_create, hfind, if_neg hkey]
    rfl
  | update patch =>
    show (t.update patch).find k = none
    rw [find_update, hfind]
    rfl

/-- A row keeps its identity whatever is written. -/
theorem identity_write {t : IdentityTable ρ id key} {k : κ} {n : ℕ} (w : Write id key)
    (h : (t.find k).map id = some n) : ((t.write w).find k).map id = some n := by
  obtain ⟨r, hr, hrn⟩ := Option.map_eq_some_iff.mp h
  cases w with
  | create draft =>
    show ((t.create draft).1.find k).map id = some n
    rw [find_create, hr]
    exact congrArg some hrn
  | update patch =>
    show ((t.update patch).find k).map id = some n
    rw [find_update, hr]
    exact congrArg some ((patch.id_apply r).trans hrn)

theorem identity_after {t : IdentityTable ρ id key} {k : κ} {n : ℕ}
    (writes : List (Write id key)) (h : (t.find k).map id = some n) :
    ((t.after writes).find k).map id = some n := by
  induction writes generalizing t with
  | nil => exact h
  | cons w rest ih => exact ih (identity_write w h)

theorem find_write_of_drafts {t : IdentityTable ρ id key} {w : Write id key} {k : κ}
    (h : w.Drafts k) : (t.write w).find k ≠ none := by
  cases w with
  | create draft =>
    have hkey : draft.key? = some k := h
    show (t.create draft).1.find k ≠ none
    rw [find_create, if_pos hkey]
    cases t.find k with
    | none => exact Option.some_ne_none _
    | some r => exact Option.some_ne_none r
  | update patch => cases h

/-- A key has a row once a draft was written under it. -/
theorem find_after_empty_eq_none_iff (writes : List (Write id key)) (k : κ) :
    ((empty : IdentityTable ρ id key).after writes).find k = none ↔
      ∀ w ∈ writes, ¬ w.Drafts k := by
  induction writes using List.reverseRecOn with
  | nil => exact iff_of_true rfl fun w hw => absurd hw List.not_mem_nil
  | append_singleton before w ih =>
    rw [after_concat]
    constructor
    · intro h v hv hdrafts
      rcases List.mem_append.mp hv with hv | hv
      · -- A row found before is still there.
        have hsome : ((empty : IdentityTable ρ id key).after before).find k ≠ none :=
          fun hnone => ih.mp hnone v hv hdrafts
        obtain ⟨r, hr⟩ := Option.ne_none_iff_exists'.mp hsome
        have hkept := identity_write w (congrArg (Option.map id) hr)
        rw [h] at hkept
        cases hkept
      · rw [List.mem_singleton.mp hv] at hdrafts
        exact find_write_of_drafts hdrafts h
    · intro h
      refine find_write_of_not_drafts (h w (by simp)) (ih.mpr fun v hv => h v ?_)
      exact List.mem_append_left _ hv

/-- In a run from the empty table a `create` answers with the identity that the row of its
key has at the end, and says that the row is new exactly when no draft before had the key. -/
theorem answers_create (before later : List (Write id key)) {draft : Draft ρ id key} {k : κ}
    (hkey : draft.key? = some k) :
    ∃ n, ((empty : IdentityTable ρ id key).answers (before ++ .create draft :: later))[
        before.length]? = some (some (n, decide (∀ w ∈ before, ¬ w.Drafts k))) ∧
      (((empty : IdentityTable ρ id key).after (before ++ .create draft :: later)).find k).map id =
        some n := by
  obtain ⟨hnew, hid⟩ := create_answer (t := (empty : IdentityTable ρ id key).after before) hkey
  refine ⟨(((empty : IdentityTable ρ id key).after before).create draft).2.1, ?_, ?_⟩
  · rw [answers_split]
    refine congrArg (fun a => some (some a)) (Prod.ext rfl (hnew.trans ?_))
    have hiff := find_after_empty_eq_none_iff before k
    rw [← Option.isNone_iff_eq_none] at hiff
    cases hnone : (((empty : IdentityTable ρ id key).after before).find k).isNone with
    | true => exact (decide_eq_true (hiff.mp hnone)).symm
    | false => exact (decide_eq_false fun hall => by simp [hiff.mpr hall] at hnone).symm
  · rw [after_append]
    exact identity_after later hid

/-! ## Runs of creates -/

/-- The items that no earlier one shares its key with. -/
def firstUnder {α : Type*} (keyOf : α → Option κ) : List α → List α
  | [] => []
  | x :: rest =>
      x :: (firstUnder keyOf rest).filter fun y => keyOf x = none ∨ keyOf y ≠ keyOf x

theorem firstUnder_concat {α : Type*} (keyOf : α → Option κ) (xs : List α) (x : α) :
    firstUnder keyOf (xs ++ [x]) =
      firstUnder keyOf xs ++
        if keyOf x = none ∨ ∀ y ∈ xs, keyOf y ≠ keyOf x then [x] else [] := by
  induction xs with
  | nil => simp [firstUnder]
  | cons y ys ih =>
    rw [List.cons_append, firstUnder, ih, List.filter_append, firstUnder, List.cons_append]
    congr 2
    by_cases hx : keyOf x = none
    · have hkept : keyOf y = none ∨ ¬ none = keyOf y := by
        rw [eq_comm (a := none)]
        exact em _
      simp [hx, hkept]
    · by_cases hy : keyOf y = keyOf x
      · simp [hx, hy]
      · simp [hx, hy, Ne.symm hy]

/-- What does not read the identities of numbered rows. -/
theorem filterMap_mapIdx {α β γ : Type*} {f : ℕ → α → β} {g : β → Option γ} {h : α → Option γ}
    (hg : ∀ i x, g (f i x) = h x) (xs : List α) :
    (xs.mapIdx f).filterMap g = xs.filterMap h := by
  induction xs generalizing f with
  | nil => rfl
  | cons x xs ih =>
    rw [List.mapIdx_cons, List.filterMap_cons, List.filterMap_cons, hg,
      ih fun i => hg (i + 1)]

/-- Creates alone leave the first item of each key, numbered in order. -/
theorem rows_after_creates {α : Type*} {keyOf : α → Option κ} {draft : α → Draft ρ id key}
    (hkey : ∀ x, (draft x).key? = keyOf x) (xs : List α) :
    ((empty : IdentityTable ρ id key).after (xs.map fun x => .create (draft x))).rows =
        (firstUnder keyOf xs).mapIdx (fun i x => (draft x).toRow (i + 1)) ∧
      ((empty : IdentityTable ρ id key).after (xs.map fun x => .create (draft x))).nextId =
        (firstUnder keyOf xs).length + 1 := by
  induction xs using List.reverseRecOn with
  | nil => exact ⟨rfl, rfl⟩
  | append_singleton xs x ih =>
    obtain ⟨hrows, hnext⟩ := ih
    have hnew : ((empty : IdentityTable ρ id key).after
        (xs.map fun x => .create (draft x))).IsNew (draft x) ↔
        keyOf x = none ∨ ∀ y ∈ xs, keyOf y ≠ keyOf x := by
      unfold IsNew
      rw [hkey]
      cases hx : keyOf x with
      | none => simp
      | some k =>
        have hdrafts := find_after_empty_eq_none_iff (xs.map fun x => .create (draft x)) k
        rw [List.forall_mem_map] at hdrafts
        have heach : ∀ y, ¬ (Write.create (draft y)).Drafts k ↔ keyOf y ≠ some k :=
          fun y => not_congr (by rw [← hkey y]; exact Iff.rfl)
        simp [hdrafts, heach]
    rw [List.map_append, List.map_singleton, after_concat, firstUnder_concat]
    by_cases hx : keyOf x = none ∨ ∀ y ∈ xs, keyOf y ≠ keyOf x
    · obtain ⟨hcreated, hnextId, _⟩ := rows_create_of_isNew (hnew.mpr hx)
      rw [if_pos hx, List.mapIdx_concat, List.length_append, ← hrows]
      refine ⟨?_, hnextId.trans (congrArg (· + 1) hnext)⟩
      rw [← hnext]
      exact hcreated
    · obtain ⟨_, _, _, _, hsame⟩ := create_of_not_isNew fun h => hx (hnew.mp h)
      rw [if_neg hx, List.append_nil, write, hsame]
      exact ⟨hrows, hnext⟩

end IdentityTable

end Relational
