import QuantPlatform.Python.Data
import Mathlib.Data.List.Basic

namespace QuantPlatform

namespace Dict

variable {k k' : String} {x : PyValue} {pre post extra : List (String × PyValue)}

/-- `d[k] = x`: a known key keeps its place. -/
def set : List (String × PyValue) → String → PyValue → List (String × PyValue)
  | [], k, x => [(k, x)]
  | (k', y) :: rest, k, x => if k' = k then (k', x) :: rest else (k', y) :: set rest k x

/-- `d.update(extra)`. -/
def update (entries extra : List (String × PyValue)) : List (String × PyValue) :=
  extra.foldl (fun d entry => set d entry.1 entry.2) entries

theorem set_self (hpre : k ∉ pre.map Prod.fst) (v : PyValue) :
    set (pre ++ (k, v) :: post) k x = pre ++ (k, x) :: post := by
  induction pre with
  | nil => exact if_pos rfl
  | cons entry pre ih =>
    rw [List.map_cons, List.mem_cons, not_or] at hpre
    rw [List.cons_append, set, if_neg (Ne.symm hpre.1), ih hpre.2]
    rfl

/-- Setting another key leaves an entry between the same others, whatever its value. -/
theorem set_of_ne (hne : k' ≠ k) (x : PyValue) (pre post : List (String × PyValue)) :
    ∃ pre' post', pre'.map Prod.fst = pre.map Prod.fst ∧
      ∀ v, set (pre ++ (k, v) :: post) k' x = pre' ++ (k, v) :: post' := by
  induction pre with
  | nil => exact ⟨[], set post k' x, rfl, fun v => if_neg (Ne.symm hne)⟩
  | cons entry pre ih =>
    by_cases hfound : entry.1 = k'
    · refine ⟨(entry.1, x) :: pre, post, rfl, fun v => ?_⟩
      rw [List.cons_append, set, if_pos hfound]
      rfl
    · obtain ⟨pre', post', hkeys, hset⟩ := ih
      refine ⟨entry :: pre', post', by rw [List.map_cons, List.map_cons, hkeys], fun v => ?_⟩
      rw [List.cons_append, set, if_neg hfound, hset v]
      rfl

theorem update_of_not_mem (hk : k ∉ extra.map Prod.fst) (pre post : List (String × PyValue)) :
    ∃ pre' post', ∀ v, update (pre ++ (k, v) :: post) extra = pre' ++ (k, v) :: post' := by
  induction extra generalizing pre post with
  | nil => exact ⟨pre, post, fun v => rfl⟩
  | cons entry extra ih =>
    rw [List.map_cons, List.mem_cons, not_or] at hk
    obtain ⟨pre₁, post₁, _, hset⟩ := set_of_ne (Ne.symm hk.1) entry.2 pre post
    obtain ⟨pre₂, post₂, hrest⟩ := ih hk.2 pre₁ post₁
    refine ⟨pre₂, post₂, fun v => ?_⟩
    rw [update, List.foldl_cons, hset v]
    exact hrest v

/-- A key that is updated loses the value it had. -/
theorem update_of_mem (hk : k ∈ extra.map Prod.fst) (pre post : List (String × PyValue))
    (hpre : k ∉ pre.map Prod.fst) (v w : PyValue) :
    update (pre ++ (k, v) :: post) extra = update (pre ++ (k, w) :: post) extra := by
  induction extra generalizing pre post with
  | nil => cases hk
  | cons entry extra ih =>
    rw [update, update, List.foldl_cons, List.foldl_cons]
    by_cases hsame : entry.1 = k
    · rw [hsame, set_self hpre v, set_self hpre w]
    · obtain ⟨pre', post', hkeys, hset⟩ := set_of_ne hsame entry.2 pre post
      rw [List.map_cons, List.mem_cons] at hk
      rw [hset v, hset w]
      exact ih (hk.resolve_left (Ne.symm hsame)) pre' post' (hkeys ▸ hpre)

end Dict

namespace Json

/-- One character inside a string. -/
def escape (c : Char) : List Char :=
  let backslash := Char.ofNat 92
  if c.toNat = 34 ∨ c.toNat = 92 then [backslash, c]
  else if c.toNat = 8 then [backslash, Char.ofNat 98]
  else if c.toNat = 9 then [backslash, Char.ofNat 116]
  else if c.toNat = 10 then [backslash, Char.ofNat 110]
  else if c.toNat = 12 then [backslash, Char.ofNat 102]
  else if c.toNat = 13 then [backslash, Char.ofNat 114]
  else if c.toNat < 32 then
    [backslash, Char.ofNat 117, Char.ofNat 48, Char.ofNat 48, Nat.digitChar (c.toNat / 16),
      Nat.digitChar (c.toNat % 16)]
  else [c]

def quote (s : String) : List Char :=
  [Char.ofNat 34] ++ s.toList.flatMap escape ++ [Char.ofNat 34]

/-- The value of a digit written by `Nat.digitChar`. -/
def hexValue (c : Char) : Nat := if c.toNat < 58 then c.toNat - 48 else c.toNat - 87

/-- The character that the mark after a backslash stands for. -/
def unmark (mark : Char) : Char :=
  if mark.toNat = 98 then Char.ofNat 8
  else if mark.toNat = 116 then Char.ofNat 9
  else if mark.toNat = 110 then Char.ofNat 10
  else if mark.toNat = 102 then Char.ofNat 12
  else if mark.toNat = 114 then Char.ofNat 13
  else mark

/-- Reads the first character of what is inside a string. -/
def readChar : List Char → Option (Char × List Char)
  | [] => none
  | c :: rest =>
      if c.toNat ≠ 92 then some (c, rest)
      else
        match rest with
        | [] => none
        | mark :: rest =>
            if mark.toNat ≠ 117 then some (unmark mark, rest)
            else
              match rest with
              | _ :: _ :: high :: low :: rest =>
                  some (Char.ofNat (16 * hexValue high + hexValue low), rest)
              | _ => none

theorem hexValue_digits : ∀ n < 32,
    16 * hexValue (Nat.digitChar (n / 16)) + hexValue (Nat.digitChar (n % 16)) = n := by
  decide

/-- What is written for a character is read as that character. -/
theorem readChar_escape (c : Char) (rest : List Char) :
    readChar (escape c ++ rest) = some (c, rest) := by
  have hback : Char.ofNat c.toNat = c := Char.ofNat_toNat c
  unfold escape
  dsimp only
  split_ifs with hself h8 h9 h10 h12 h13 hcontrol
  · rcases hself with h34 | h92
    · rw [← hback, h34]; rfl
    · rw [← hback, h92]; rfl
  · rw [← hback, h8]; rfl
  · rw [← hback, h9]; rfl
  · rw [← hback, h10]; rfl
  · rw [← hback, h12]; rfl
  · rw [← hback, h13]; rfl
  · show some (Char.ofNat (16 * hexValue (Nat.digitChar (c.toNat / 16)) +
      hexValue (Nat.digitChar (c.toNat % 16))), rest) = some (c, rest)
    rw [hexValue_digits c.toNat hcontrol, hback]
  · exact if_pos fun h92 => hself (Or.inr h92)

theorem escape_ne_nil (c : Char) : escape c ≠ [] := by
  intro hnil
  have hread := readChar_escape c []
  rw [hnil] at hread
  cases hread

theorem flatMap_escape_injective {xs ys : List Char}
    (h : xs.flatMap escape = ys.flatMap escape) : xs = ys := by
  induction xs generalizing ys with
  | nil =>
    cases ys with
    | nil => rfl
    | cons y ys =>
      rw [List.flatMap_nil, List.flatMap_cons] at h
      exact absurd (List.append_eq_nil_iff.mp h.symm).1 (escape_ne_nil y)
  | cons x xs ih =>
    cases ys with
    | nil =>
      rw [List.flatMap_nil, List.flatMap_cons] at h
      exact absurd (List.append_eq_nil_iff.mp h).1 (escape_ne_nil x)
    | cons y ys =>
      rw [List.flatMap_cons, List.flatMap_cons] at h
      have hread := readChar_escape x (xs.flatMap escape)
      rw [h, readChar_escape y] at hread
      obtain ⟨hxy, hrest⟩ := Prod.mk.inj (Option.some.inj hread)
      rw [hxy, ih hrest.symm]

theorem quote_inj {s t : String} : quote s = quote t ↔ s = t := by
  constructor
  · intro h
    have hinside := List.append_cancel_left (List.append_cancel_right h)
    exact String.toList_injective (flatMap_escape_injective hinside)
  · intro h
    rw [h]

/-- A `float` by its `repr`, whose infinities and NaN have names of their own. -/
def floatText (repr : String) : String :=
  if repr = "inf" then "Infinity"
  else if repr = "-inf" then "-Infinity"
  else if repr = "nan" then "NaN"
  else repr

/-- `str(t)` of a datetime. -/
def datetimeText (t : Instant) : String :=
  String.ofList (t.isoformat.toList.map fun c => if c = Char.ofNat 84 then Char.ofNat 32 else c)

mutual

def encode : PyValue → List Char
  | .none => "null".toList
  | .bool b => (if b then "true" else "false").toList
  | .int n => (toString n).toList
  | .float repr => (floatText repr).toList
  | .decimal d => quote d.str
  | .datetime t => quote (datetimeText t)
  | .str s => quote s
  | .list items => "[".toList ++ (", ".toList).intercalate (encodeItems items) ++ "]".toList
  | .tuple items => "[".toList ++ (", ".toList).intercalate (encodeItems items) ++ "]".toList
  | .dict entries =>
      "\x7b".toList ++ (", ".toList).intercalate (encodeEntries entries) ++ "\x7d".toList

def encodeItems : List PyValue → List (List Char)
  | [] => []
  | item :: rest => encode item :: encodeItems rest

def encodeEntries : List (String × PyValue) → List (List Char)
  | [] => []
  | (k, v) :: rest => (quote k ++ ": ".toList ++ encode v) :: encodeEntries rest

end

def dumps (value : PyValue) : String := String.ofList (encode value)

theorem encodeEntries_append (xs ys : List (String × PyValue)) :
    encodeEntries (xs ++ ys) = encodeEntries xs ++ encodeEntries ys := by
  induction xs with
  | nil => rfl
  | cons entry xs ih =>
    rw [List.cons_append, encodeEntries, ih]
    rfl

/-- One of several parts stands between two texts that the others make up. -/
theorem intercalate_append_cons {α : Type} (sep : List α) (pre post : List (List α)) :
    ∃ before after, ∀ x, sep.intercalate (pre ++ x :: post) = before ++ x ++ after := by
  induction pre with
  | nil =>
    cases post with
    | nil => exact ⟨[], [], fun x => by simp⟩
    | cons y post =>
      refine ⟨[], sep ++ sep.intercalate (y :: post), fun x => ?_⟩
      rw [List.nil_append, List.intercalate_cons_cons, List.nil_append, List.append_assoc]
  | cons y pre ih =>
    obtain ⟨before, after, hrest⟩ := ih
    refine ⟨y ++ sep ++ before, after, fun x => ?_⟩
    rw [List.cons_append, List.intercalate_cons_of_ne_nil (by simp), hrest x]
    simp only [List.append_assoc]

theorem encode_dict_append_cons (k : String) (pre post : List (String × PyValue)) :
    ∃ before after, ∀ s,
      encode (.dict (pre ++ (k, .str s) :: post)) = before ++ quote s ++ after := by
  obtain ⟨before, after, hparts⟩ :=
    intercalate_append_cons (", ".toList) (encodeEntries pre) (encodeEntries post)
  refine ⟨"\x7b".toList ++ before ++ (quote k ++ ": ".toList), after ++ "\x7d".toList, fun s => ?_⟩
  rw [encode, encodeEntries_append, encodeEntries, hparts, encode]
  simp

/-- Dicts that differ in the text of one entry are written differently. -/
theorem dumps_dict_inj (k : String) (pre post : List (String × PyValue)) {s t : String} :
    dumps (.dict (pre ++ (k, .str s) :: post)) = dumps (.dict (pre ++ (k, .str t) :: post)) ↔
      s = t := by
  obtain ⟨before, after, hencode⟩ := encode_dict_append_cons k pre post
  unfold dumps
  rw [String.ofList_inj, hencode s, hencode t, List.append_left_inj, List.append_right_inj,
    quote_inj]

example : dumps (.dict [("a", .str "\u001fé\"/"), ("b", .list [.int 1, .none])]) =
    "\x7b\"a\": \"\\u001fé\\\"/\", \"b\": [1, null]\x7d" := by decide +kernel

end Json

end QuantPlatform
