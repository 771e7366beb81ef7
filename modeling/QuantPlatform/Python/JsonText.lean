/-
JSON text and what it says.

A document is written as `json.dumps` writes it, with `, ` and `: ` between the parts, and read
by descent, one character of fuel at a time.  What is written is read back, and has no control
character in it, so documents can be kept one a line.
-/
import QuantPlatform.Python.Json
import Mathlib.Data.List.TakeWhile

namespace QuantPlatform
namespace Json

inductive Doc
  | null
  | bool (b : Bool)
  /-- A number is known by how it is written. -/
  | number (digits : String)
  | text (s : String)
  | array (items : List Doc)
  | object (entries : List (String × Doc))

namespace Doc

mutual

def render : Doc → List Char
  | .null => "null".toList
  | .bool b => (if b then "true" else "false").toList
  | .number digits => digits.toList
  | .text s => quote s
  | .array items => "[".toList ++ (", ".toList).intercalate (renderItems items) ++ "]".toList
  | .object entries =>
      "\x7b".toList ++ (", ".toList).intercalate (renderEntries entries) ++ "\x7d".toList

def renderItems : List Doc → List (List Char)
  | [] => []
  | item :: rest => render item :: renderItems rest

def renderEntries : List (String × Doc) → List (List Char)
  | [] => []
  | (k, v) :: rest => (quote k ++ ": ".toList ++ render v) :: renderEntries rest

end

/-- The characters of numbers and of the words of the language. -/
def isWordChar (c : Char) : Bool := c.isAlphanum || c.toNat = 43 || c.toNat = 45 || c.toNat = 46

def isNumeric (c : Char) : Bool :=
  c.isDigit || c.toNat = 43 || c.toNat = 45 || c.toNat = 46 || c.toNat = 69 || c.toNat = 101

def isNumber (word : List Char) : Bool :=
  word = "NaN".toList || word = "Infinity".toList || word = "-Infinity".toList ||
    (!word.isEmpty && word.all isNumeric)

def readWord (word : List Char) : Option Doc :=
  if word = "null".toList then some .null
  else if word = "true".toList then some (.bool true)
  else if word = "false".toList then some (.bool false)
  else if isNumber word then some (.number (String.ofList word))
  else none

/-- What is inside a string, up to its closing quote. -/
def readString : Nat → List Char → Option (List Char × List Char)
  | 0, _ => none
  | _ + 1, [] => none
  | fuel + 1, c :: rest =>
      if c.toNat = 34 then some ([], rest)
      else if c.toNat < 32 then none
      else (readChar (c :: rest)).bind fun first =>
        (readString fuel first.2).map fun more => (first.1 :: more.1, more.2)

def skip (mark : List Char) (cs : List Char) : Option (List Char) :=
  if mark.isPrefixOf cs then some (cs.drop mark.length) else none

/-- The key of an entry, up to its value. -/
def readKey (fuel : Nat) (cs : List Char) : Option (String × List Char) :=
  (skip [Char.ofNat 34] cs).bind fun inside =>
    (readString fuel inside).bind fun key =>
      (skip ": ".toList key.2).map fun rest => (String.ofList key.1, rest)

mutual

def readDoc : Nat → List Char → Option (Doc × List Char)
  | 0, _ => none
  | _ + 1, [] => none
  | fuel + 1, c :: rest =>
      if c.toNat = 34 then
        (readString fuel rest).map fun s => (.text (String.ofList s.1), s.2)
      else if c.toNat = 91 then
        if rest.head? = some (Char.ofNat 93) then some (.array [], rest.tail)
        else (readItems fuel rest).map fun items => (.array items.1, items.2)
      else if c.toNat = 123 then
        if rest.head? = some (Char.ofNat 125) then some (.object [], rest.tail)
        else (readEntries fuel rest).map fun entries => (.object entries.1, entries.2)
      else
        (readWord ((c :: rest).takeWhile isWordChar)).map fun doc =>
          (doc, (c :: rest).dropWhile isWordChar)

/-- The items of an array, up to its closing bracket. -/
def readItems : Nat → List Char → Option (List Doc × List Char)
  | 0, _ => none
  | fuel + 1, cs =>
      (readDoc fuel cs).bind fun item =>
        if item.2.head? = some (Char.ofNat 93) then some ([item.1], item.2.tail)
        else (skip ", ".toList item.2).bind fun rest =>
          (readItems fuel rest).map fun items => (item.1 :: items.1, items.2)

/-- The entries of an object, up to its closing brace. -/
def readEntries : Nat → List Char → Option (List (String × Doc) × List Char)
  | 0, _ => none
  | fuel + 1, cs =>
      (readKey fuel cs).bind fun key =>
        (readDoc fuel key.2).bind fun value =>
          if value.2.head? = some (Char.ofNat 125) then some ([(key.1, value.1)], value.2.tail)
          else (skip ", ".toList value.2).bind fun rest =>
            (readEntries fuel rest).map fun entries => ((key.1, value.1) :: entries.1, entries.2)

end

/-- The one document that a text says. -/
def read (text : String) : Option Doc :=
  (readDoc text.toList.length text.toList).bind fun doc =>
    if doc.2.isEmpty then some doc.1 else none

theorem escape_head (c : Char) : ∃ first more, escape c = first :: more ∧ first.toNat ≠ 34 ∧
    32 ≤ first.toNat := by
  have h92 : (Char.ofNat 92).toNat = 92 := rfl
  unfold escape
  dsimp only
  split_ifs with hself h8 h9 h10 h12 h13 hcontrol
  all_goals first
    | exact ⟨_, _, rfl, by rw [h92]; omega, by rw [h92]; omega⟩
    | exact ⟨c, [], rfl, fun h => hself (Or.inl h), by omega⟩

theorem readString_escape {s : List Char} {fuel : Nat} (hfuel : s.length < fuel)
    (rest : List Char) :
    readString fuel (s.flatMap escape ++ Char.ofNat 34 :: rest) = some (s, rest) := by
  induction s generalizing fuel with
  | nil =>
    cases fuel with
    | zero => exact absurd hfuel (Nat.not_lt_zero _)
    | succ fuel => rfl
  | cons c s ih =>
    cases fuel with
    | zero => exact absurd hfuel (Nat.not_lt_zero _)
    | succ fuel =>
      obtain ⟨first, more, hescape, hquote, hcontrol⟩ := escape_head c
      have hchar := readChar_escape c (s.flatMap escape ++ Char.ofNat 34 :: rest)
      rw [List.flatMap_cons, List.append_assoc]
      rw [hescape, List.cons_append] at hchar ⊢
      rw [readString, if_neg hquote, if_neg (Nat.not_lt.mpr hcontrol), hchar]
      simp only [Option.bind_some]
      rw [ih (Nat.lt_of_succ_lt_succ hfuel)]
      rfl

theorem length_le_flatMap_escape (s : List Char) : s.length ≤ (s.flatMap escape).length := by
  induction s with
  | nil => exact Nat.le_refl 0
  | cons c s ih =>
    have hpos := List.length_pos_of_ne_nil (escape_ne_nil c)
    rw [List.flatMap_cons, List.length_append, List.length_cons]
    omega

theorem length_lt_quote (s : String) : s.toList.length + 1 < (quote s).length := by
  have hle := length_le_flatMap_escape s.toList
  simp only [quote, List.length_append, List.length_cons, List.length_nil]
  omega

theorem quote_append (s : String) (rest : List Char) :
    quote s ++ rest = Char.ofNat 34 :: (s.toList.flatMap escape ++ Char.ofNat 34 :: rest) := by
  unfold quote
  rw [List.append_assoc, List.append_assoc]
  rfl

theorem skip_append (mark rest : List Char) : skip mark (mark ++ rest) = some rest := by
  unfold skip
  rw [if_pos (List.isPrefixOf_iff_prefix.mpr (List.prefix_append mark rest)),
    List.drop_left]

theorem readKey_quote {k : String} {fuel : Nat} (hfuel : k.toList.length < fuel)
    (rest : List Char) : readKey fuel (quote k ++ ": ".toList ++ rest) = some (k, rest) := by
  have hskip := skip_append [Char.ofNat 34]
    (k.toList.flatMap escape ++ Char.ofNat 34 :: (": ".toList ++ rest))
  rw [List.singleton_append] at hskip
  rw [List.append_assoc, quote_append]
  unfold readKey
  rw [hskip, Option.bind_some, readString_escape hfuel, Option.bind_some, skip_append,
    Option.map_some, String.ofList_toList]

theorem readDoc_text (fuel : Nat) (rest : List Char) :
    readDoc (fuel + 1) (Char.ofNat 34 :: rest) =
      (readString fuel rest).map fun s => (.text (String.ofList s.1), s.2) := rfl

theorem readDoc_array {rest : List Char} (h : rest.head? ≠ some (Char.ofNat 93)) (fuel : Nat) :
    readDoc (fuel + 1) (Char.ofNat 91 :: rest) =
      (readItems fuel rest).map fun items => (.array items.1, items.2) := by
  rw [readDoc, if_neg (by decide), if_pos (by decide), if_neg h]

theorem readDoc_object {rest : List Char} (h : rest.head? ≠ some (Char.ofNat 125)) (fuel : Nat) :
    readDoc (fuel + 1) (Char.ofNat 123 :: rest) =
      (readEntries fuel rest).map fun entries => (.object entries.1, entries.2) := by
  rw [readDoc, if_neg (by decide), if_neg (by decide), if_pos (by decide), if_neg h]

/-- A word ends where the text goes on. -/
def Ends (rest : List Char) : Prop := ∀ c ∈ rest.head?, isWordChar c = false

theorem ends_cons {c : Char} (hc : isWordChar c = false) (rest : List Char) :
    Ends (c :: rest) := by
  intro d hd
  rw [List.head?_cons, Option.mem_some_iff] at hd
  exact hd ▸ hc

theorem ends_comma (rest : List Char) : Ends (", ".toList ++ rest) :=
  ends_cons (by decide) (Char.ofNat 32 :: rest)

theorem head?_comma {c : Char} (hc : c ≠ Char.ofNat 44) (rest : List Char) :
    (", ".toList ++ rest).head? ≠ some c :=
  fun h => hc (Option.some.inj h).symm

theorem readDoc_word {word rest : List Char} {doc : Doc} (hread : readWord word = some doc)
    (hword : word.all isWordChar = true) (hne : word ≠ []) (hends : Ends rest)
    {fuel : Nat} (hfuel : 0 < fuel) : readDoc fuel (word ++ rest) = some (doc, rest) := by
  rw [List.all_eq_true] at hword
  have htake : (word ++ rest).takeWhile isWordChar = word := by
    cases rest with
    | nil => rw [List.append_nil, List.takeWhile_eq_self_iff.mpr hword]
    | cons c rest =>
      rw [List.takeWhile_append_of_pos hword, List.takeWhile_cons_of_neg, List.append_nil]
      rw [hends c rfl]
      exact Bool.false_ne_true
  have hdrop : (word ++ rest).dropWhile isWordChar = rest := by
    have hboth := List.takeWhile_append_dropWhile (p := isWordChar) (l := word ++ rest)
    rw [htake] at hboth
    exact List.append_cancel_left hboth
  cases fuel with
  | zero => exact absurd hfuel (Nat.lt_irrefl 0)
  | succ fuel =>
    cases word with
    | nil => exact absurd rfl hne
    | cons c word =>
      have hc := hword c List.mem_cons_self
      rw [List.cons_append] at htake hdrop ⊢
      have hnot : ∀ n, isWordChar (Char.ofNat n) = false → c.toNat ≠ n := by
        intro n hn heq
        rw [← heq, Char.ofNat_toNat, hc] at hn
        cases hn
      rw [readDoc, if_neg (hnot 34 rfl), if_neg (hnot 91 rfl), if_neg (hnot 123 rfl), htake, hdrop,
        hread]
      rfl

/-! ## Numbers -/

theorem isWordChar_of_isNumeric {c : Char} (h : isNumeric c = true) : isWordChar c = true := by
  unfold isNumeric at h
  unfold isWordChar Char.isAlphanum Char.isAlpha
  simp only [Bool.or_eq_true, decide_eq_true_eq] at h ⊢
  rcases h with ((((hdigit | h43) | h45) | h46) | h69) | h101
  · exact Or.inl (Or.inl (Or.inl (Or.inr hdigit)))
  · exact Or.inl (Or.inl (Or.inr h43))
  · exact Or.inl (Or.inr h45)
  · exact Or.inr h46
  · rw [← Char.ofNat_toNat c, h69]
    decide
  · rw [← Char.ofNat_toNat c, h101]
    decide

theorem isNumber_cases {word : List Char} (h : isNumber word = true) :
    word ∈ ["NaN".toList, "Infinity".toList, "-Infinity".toList] ∨
      (word ≠ [] ∧ ∀ c ∈ word, isNumeric c = true) := by
  unfold isNumber at h
  simp only [Bool.or_eq_true, Bool.and_eq_true, decide_eq_true_eq, Bool.not_eq_true',
    List.isEmpty_eq_false_iff, List.all_eq_true] at h
  rcases h with ((hnan | hinf) | hneg) | hnumeric
  · exact Or.inl (by simp [hnan])
  · exact Or.inl (by simp [hinf])
  · exact Or.inl (by simp [hneg])
  · exact Or.inr hnumeric

theorem isNumber_ne_nil {word : List Char} (h : isNumber word = true) : word ≠ [] := by
  rintro rfl
  exact absurd h (by decide)

theorem isWordChar_of_isNumber {word : List Char} (h : isNumber word = true) :
    word.all isWordChar = true := by
  rcases isNumber_cases h with hnamed | ⟨_, hnumeric⟩
  · have hall : ∀ w ∈ ["NaN".toList, "Infinity".toList, "-Infinity".toList],
        w.all isWordChar = true := by decide
    exact hall word hnamed
  · exact List.all_eq_true.mpr fun c hc => isWordChar_of_isNumeric (hnumeric c hc)

/-- The other words of the language are no numbers. -/
theorem readWord_of_isNumber {word : List Char} (h : isNumber word = true) :
    readWord word = some (.number (String.ofList word)) := by
  have hother : ∀ w ∈ ["null".toList, "true".toList, "false".toList], word ≠ w := by
    rintro w hw rfl
    have hnone : ∀ w ∈ ["null".toList, "true".toList, "false".toList], isNumber w = false := by
      decide
    rw [hnone word hw] at h
    cases h
  unfold readWord
  rw [if_neg (hother _ (by simp)), if_neg (hother _ (by simp)), if_neg (hother _ (by simp)),
    if_pos h]

/-! ## Documents -/

mutual

/-- What stands for a number is one. -/
def Proper : Doc → Prop
  | .number digits => isNumber digits.toList = true
  | .array items => ProperItems items
  | .object entries => ProperEntries entries
  | .null | .bool _ | .text _ => True

def ProperItems : List Doc → Prop
  | [] => True
  | item :: rest => Proper item ∧ ProperItems rest

def ProperEntries : List (String × Doc) → Prop
  | [] => True
  | (_, value) :: rest => Proper value ∧ ProperEntries rest

end

theorem Proper.render_head {doc : Doc} (h : doc.Proper) :
    ∃ first more, render doc = first :: more ∧ first ≠ Char.ofNat 93 := by
  cases doc with
  | number digits =>
    rw [Proper] at h
    rw [render]
    cases hword : digits.toList with
    | nil => exact absurd hword (isNumber_ne_nil h)
    | cons first more =>
      refine ⟨first, more, rfl, ?_⟩
      rintro rfl
      have hchar := List.all_eq_true.mp (isWordChar_of_isNumber h) _ (hword ▸ List.mem_cons_self)
      cases hchar
  | null => exact ⟨_, _, rfl, by decide⟩
  | bool b =>
    cases b with
    | true => exact ⟨_, _, rfl, by decide⟩
    | false => exact ⟨_, _, rfl, by decide⟩
  | text s => exact ⟨_, _, rfl, by decide⟩
  | array items => exact ⟨_, _, rfl, by decide⟩
  | object entries => exact ⟨_, _, rfl, by decide⟩

theorem Proper.length_pos {doc : Doc} (h : doc.Proper) : 0 < (render doc).length := by
  obtain ⟨first, more, hrender, _⟩ := h.render_head
  rw [hrender]
  exact Nat.succ_pos _

theorem length_intercalate_cons_cons (sep x y : List Char) (rest : List (List Char)) :
    (sep.intercalate (x :: y :: rest)).length =
      x.length + sep.length + (sep.intercalate (y :: rest)).length := by
  rw [List.intercalate_cons_cons, List.length_append, List.length_append]

theorem render_array_append (items : List Doc) (rest : List Char) :
    render (.array items) ++ rest =
      Char.ofNat 91 :: ((", ".toList).intercalate (renderItems items) ++ Char.ofNat 93 :: rest) := by
  rw [render, List.append_assoc, List.append_assoc]
  rfl

theorem render_object_append (entries : List (String × Doc)) (rest : List Char) :
    render (.object entries) ++ rest = Char.ofNat 123 ::
      ((", ".toList).intercalate (renderEntries entries) ++ Char.ofNat 125 :: rest) := by
  rw [render, List.append_assoc, List.append_assoc]
  rfl

/-- The first of the parts starts the whole. -/
theorem head?_intercalate_cons {sep x : List Char} (hx : x ≠ []) (rest : List (List Char))
    (after : List Char) : (sep.intercalate (x :: rest) ++ after).head? = x.head? := by
  cases rest with
  | nil => rw [List.intercalate_singleton, List.head?_append_of_ne_nil x hx]
  | cons y rest =>
    rw [List.intercalate_cons_cons, List.append_assoc, List.append_assoc,
      List.head?_append_of_ne_nil x hx]

mutual

theorem readDoc_render : ∀ (doc : Doc), doc.Proper → ∀ (fuel : Nat) (rest : List Char),
    (render doc).length ≤ fuel → Ends rest → readDoc fuel (render doc ++ rest) = some (doc, rest)
  | .null, _, _, _, hfuel, hends | .bool true, _, _, _, hfuel, hends
  | .bool false, _, _, _, hfuel, hends =>
    readDoc_word rfl (by decide) (by decide) hends (Nat.lt_of_lt_of_le (by decide) hfuel)
  | .number digits, hproper, _, _, hfuel, hends => by
    have hpos := hproper.length_pos
    rw [Proper] at hproper
    have hread := readWord_of_isNumber hproper
    rw [String.ofList_toList] at hread
    exact readDoc_word hread (isWordChar_of_isNumber hproper) (isNumber_ne_nil hproper) hends
      (Nat.lt_of_lt_of_le hpos hfuel)
  | .text s, _, fuel, rest, hfuel, _ => by
    rw [render] at hfuel ⊢
    have hlength := length_lt_quote s
    cases fuel with
    | zero => omega
    | succ fuel =>
      rw [quote_append, readDoc_text, readString_escape (by omega), Option.map_some,
        String.ofList_toList]
  | .array [], _, fuel, _, hfuel, _ | .object [], _, fuel, _, hfuel, _ => by
    cases fuel with
    | zero => exact absurd hfuel (by decide)
    | succ fuel => rfl
  | .array (item :: items), hproper, fuel, rest, hfuel, _ => by
    rw [Proper] at hproper
    rw [render, List.length_append, List.length_append] at hfuel
    have hone : "[".toList.length = 1 := rfl
    have hone' : "]".toList.length = 1 := rfl
    cases fuel with
    | zero => omega
    | succ fuel =>
      have hitems := readItems_render (item :: items) (List.cons_ne_nil item items) hproper
        fuel rest (by omega)
      rw [ProperItems] at hproper
      obtain ⟨first, more, hrender, hfirst⟩ := hproper.1.render_head
      rw [render_array_append]
      refine (readDoc_array ?_ fuel).trans (congrArg (Option.map _) hitems)
      rw [renderItems, head?_intercalate_cons (hrender ▸ List.cons_ne_nil first more), hrender]
      exact fun hclose => hfirst (Option.some.inj hclose)
  | .object ((k, value) :: entries), hproper, fuel, rest, hfuel, _ => by
    rw [Proper] at hproper
    rw [render, List.length_append, List.length_append] at hfuel
    have hone : "\x7b".toList.length = 1 := rfl
    have hone' : "\x7d".toList.length = 1 := rfl
    cases fuel with
    | zero => omega
    | succ fuel =>
      have hentries := readEntries_render ((k, value) :: entries) (List.cons_ne_nil _ entries)
        hproper fuel rest (by omega)
      rw [render_object_append]
      refine (readDoc_object ?_ fuel).trans (congrArg (Option.map _) hentries)
      rw [renderEntries, head?_intercalate_cons (by simp [quote])]
      exact fun hclose => absurd (Option.some.inj hclose) (by decide)

theorem readItems_render : ∀ (items : List Doc), items ≠ [] → ProperItems items →
    ∀ (fuel : Nat) (rest : List Char),
    ((", ".toList).intercalate (renderItems items)).length < fuel →
    readItems fuel ((", ".toList).intercalate (renderItems items) ++ Char.ofNat 93 :: rest) =
      some (items, rest)
  | [], hne, _, _, _, _ => absurd rfl hne
  | [item], _, hproper, fuel, rest, hfuel => by
    rw [ProperItems] at hproper
    rw [renderItems, renderItems, List.intercalate_singleton] at hfuel ⊢
    cases fuel with
    | zero => exact absurd hfuel (Nat.not_lt_zero _)
    | succ fuel =>
      rw [readItems, readDoc_render item hproper.1 _ _ (Nat.le_of_lt_succ hfuel)
        (ends_cons (by decide) rest)]
      rfl
  | item :: next :: items, _, hproper, fuel, rest, hfuel => by
    rw [ProperItems] at hproper
    rw [renderItems, renderItems, length_intercalate_cons_cons] at hfuel
    have hmark : ", ".toList.length = 2 := rfl
    cases fuel with
    | zero => exact absurd hfuel (Nat.not_lt_zero _)
    | succ fuel =>
      have hrest := readItems_render (next :: items) (List.cons_ne_nil next items) hproper.2
        fuel rest (by rw [renderItems]; omega)
      rw [renderItems, renderItems, List.intercalate_cons_cons, List.append_assoc,
        List.append_assoc, readItems,
        readDoc_render item hproper.1 _ _ (by omega) (ends_comma _), Option.bind_some,
        if_neg (head?_comma (by decide) _), skip_append, Option.bind_some]
      rw [renderItems] at hrest
      rw [hrest, Option.map_some]

theorem readEntries_render : ∀ (entries : List (String × Doc)), entries ≠ [] →
    ProperEntries entries → ∀ (fuel : Nat) (rest : List Char),
    ((", ".toList).intercalate (renderEntries entries)).length < fuel →
    readEntries fuel ((", ".toList).intercalate (renderEntries entries) ++
      Char.ofNat 125 :: rest) = some (entries, rest)
  | [], hne, _, _, _, _ => absurd rfl hne
  | [(k, value)], _, hproper, fuel, rest, hfuel => by
    rw [ProperEntries] at hproper
    rw [renderEntries, renderEntries, List.intercalate_singleton] at hfuel ⊢
    rw [List.length_append, List.length_append] at hfuel
    have hlength := length_lt_quote k
    cases fuel with
    | zero => exact absurd hfuel (Nat.not_lt_zero _)
    | succ fuel =>
      rw [List.append_assoc, readEntries, readKey_quote (by omega), Option.bind_some,
        readDoc_render value hproper.1 _ _ (by omega) (ends_cons (by decide) rest)]
      rfl
  | (k, value) :: (k', next) :: entries, _, hproper, fuel, rest, hfuel => by
    rw [ProperEntries] at hproper
    rw [renderEntries, renderEntries, length_intercalate_cons_cons, List.length_append,
      List.length_append] at hfuel
    have hlength := length_lt_quote k
    have hmark : ", ".toList.length = 2 := rfl
    cases fuel with
    | zero => exact absurd hfuel (Nat.not_lt_zero _)
    | succ fuel =>
      have hrest := readEntries_render ((k', next) :: entries) (List.cons_ne_nil _ entries)
        hproper.2 fuel rest (by rw [renderEntries]; omega)
      rw [renderEntries, renderEntries, List.intercalate_cons_cons, List.append_assoc,
        List.append_assoc, List.append_assoc (quote k ++ ": ".toList), readEntries,
        readKey_quote (by omega), Option.bind_some,
        readDoc_render value hproper.1 _ _ (by omega) (ends_comma _), Option.bind_some,
        if_neg (head?_comma (by decide) _), skip_append, Option.bind_some]
      rw [renderEntries] at hrest
      rw [hrest, Option.map_some]

end

/-- What is written is read back. -/
theorem Proper.read_render {doc : Doc} (h : doc.Proper) :
    read (String.ofList (render doc)) = some doc := by
  have hends : Ends [] := fun c hc => absurd hc (by simp)
  have hread := readDoc_render doc h _ _ (Nat.le_refl _) hends
  rw [List.append_nil] at hread
  unfold read
  rw [String.toList_ofList, hread]
  rfl

/-- None of the characters is a control character. -/
def Printable (cs : List Char) : Prop := ∀ c ∈ cs, 32 ≤ c.toNat

theorem printable_of_all {cs : List Char} (h : cs.all (fun c => 32 ≤ c.toNat) = true) :
    Printable cs :=
  fun c hc => of_decide_eq_true (List.all_eq_true.mp h c hc)

theorem Printable.append {xs ys : List Char} (hx : Printable xs) (hy : Printable ys) :
    Printable (xs ++ ys) := by
  intro c hc
  rcases List.mem_append.mp hc with hc | hc
  · exact hx c hc
  · exact hy c hc

theorem printable_intercalate {sep : List Char} {parts : List (List Char)} (hsep : Printable sep)
    (hparts : ∀ part ∈ parts, Printable part) : Printable (sep.intercalate parts) := by
  induction parts with
  | nil => exact fun c hc => absurd hc (by simp)
  | cons x rest ih =>
    rw [List.forall_mem_cons] at hparts
    cases rest with
    | nil =>
      rw [List.intercalate_singleton]
      exact hparts.1
    | cons y rest =>
      rw [List.intercalate_cons_cons]
      exact (hparts.1.append hsep).append (ih hparts.2)

theorem printable_escape (c : Char) : Printable (escape c) := by
  unfold escape
  dsimp only
  split_ifs with hself h8 h9 h10 h12 h13 hcontrol
  · intro d hd
    rcases List.mem_cons.mp hd with rfl | hd
    · decide
    · rw [List.mem_singleton.mp hd]
      omega
  · exact printable_of_all rfl
  · exact printable_of_all rfl
  · exact printable_of_all rfl
  · exact printable_of_all rfl
  · exact printable_of_all rfl
  · have hdigits : ∀ n < 32, [Char.ofNat 92, Char.ofNat 117, Char.ofNat 48, Char.ofNat 48,
        Nat.digitChar (n / 16), Nat.digitChar (n % 16)].all (fun d => 32 ≤ d.toNat) = true := by
      decide
    exact printable_of_all (hdigits c.toNat hcontrol)
  · intro d hd
    rw [List.mem_singleton.mp hd]
    omega

theorem printable_quote (s : String) : Printable (quote s) := by
  have hmark : Printable [Char.ofNat 34] := printable_of_all rfl
  have hinside : Printable (s.toList.flatMap escape) := by
    intro d hd
    obtain ⟨c, _, hc⟩ := List.mem_flatMap.mp hd
    exact printable_escape c d hc
  exact (hmark.append hinside).append hmark

theorem printable_of_isNumber {word : List Char} (h : isNumber word = true) : Printable word := by
  intro c hc
  by_contra hcontrol
  have hnone : ∀ n < 32, isWordChar (Char.ofNat n) = false := by decide
  have hfalse := hnone c.toNat (Nat.not_le.mp hcontrol)
  rw [Char.ofNat_toNat, List.all_eq_true.mp (isWordChar_of_isNumber h) c hc] at hfalse
  cases hfalse

mutual

theorem Proper.printable : ∀ {doc : Doc}, doc.Proper → Printable (render doc)
  | .null, _ => printable_of_all rfl
  | .bool true, _ => printable_of_all rfl
  | .bool false, _ => printable_of_all rfl
  | .number digits, h => by
    rw [Proper] at h
    exact printable_of_isNumber h
  | .text s, _ => printable_quote s
  | .array items, h => by
    rw [Proper] at h
    have hitems := @printable_intercalate ", ".toList _ (printable_of_all rfl)
      (printable_renderItems h)
    rw [render]
    exact (Printable.append (printable_of_all rfl) hitems).append
      (printable_of_all rfl)
  | .object entries, h => by
    rw [Proper] at h
    have hentries := @printable_intercalate ", ".toList _ (printable_of_all rfl)
      (printable_renderEntries h)
    rw [render]
    exact (Printable.append (printable_of_all rfl) hentries).append
      (printable_of_all rfl)

theorem printable_renderItems : ∀ {items : List Doc}, ProperItems items →
    ∀ part ∈ renderItems items, Printable part
  | [], _, _, hpart => absurd hpart List.not_mem_nil
  | item :: rest, h, part, hpart => by
    rw [ProperItems] at h
    rw [renderItems, List.mem_cons] at hpart
    rcases hpart with hpart | hpart
    · exact hpart ▸ h.1.printable
    · exact printable_renderItems h.2 part hpart

theorem printable_renderEntries : ∀ {entries : List (String × Doc)}, ProperEntries entries →
    ∀ part ∈ renderEntries entries, Printable part
  | [], _, _, hpart => absurd hpart List.not_mem_nil
  | (k, value) :: rest, h, part, hpart => by
    rw [ProperEntries] at h
    rw [renderEntries, List.mem_cons] at hpart
    rcases hpart with hpart | hpart
    · rw [hpart]
      exact ((printable_quote k).append (printable_of_all rfl)).append h.1.printable
    · exact printable_renderEntries h.2 part hpart

end

end Doc

/-! ## Python values -/

mutual

/-- The document that `json.dumps` writes of a value. -/
def view : PyValue → Doc
  | .none => .null
  | .bool b => .bool b
  | .int n => .number (toString n)
  | .float repr => .number (floatText repr)
  | .decimal d => .text d.str
  | .datetime t => .text (datetimeText t)
  | .str s => .text s
  | .list items => .array (viewItems items)
  | .tuple items => .array (viewItems items)
  | .dict entries => .object (viewEntries entries)

def viewItems : List PyValue → List Doc
  | [] => []
  | item :: rest => view item :: viewItems rest

def viewEntries : List (String × PyValue) → List (String × Doc)
  | [] => []
  | (k, v) :: rest => (k, view v) :: viewEntries rest

end

mutual

theorem encode_eq_render : ∀ value : PyValue, encode value = (view value).render
  | .none | .bool _ | .int _ | .float _ | .decimal _ | .datetime _ | .str _ => rfl
  | .list items | .tuple items => by
    rw [encode, view, Doc.render, encodeItems_eq_render items]
  | .dict entries => by
    rw [encode, view, Doc.render, encodeEntries_eq_render entries]

theorem encodeItems_eq_render : ∀ items : List PyValue,
    encodeItems items = Doc.renderItems (viewItems items)
  | [] => rfl
  | item :: rest => by
    rw [encodeItems, viewItems, Doc.renderItems, encode_eq_render item, encodeItems_eq_render rest]

theorem encodeEntries_eq_render : ∀ entries : List (String × PyValue),
    encodeEntries entries = Doc.renderEntries (viewEntries entries)
  | [] => rfl
  | (k, v) :: rest => by
    rw [encodeEntries, viewEntries, Doc.renderEntries, encode_eq_render v,
      encodeEntries_eq_render rest]

end

/-- An `int` is written as a number. -/
theorem isNumber_intToString (n : Int) : Doc.isNumber (toString n).toList = true := by
  have hdigits : ∀ m : Nat, (toString m).toList ≠ [] ∧
      ∀ c ∈ (toString m).toList, Doc.isNumeric c = true := by
    intro m
    rw [Nat.toString_eq_repr, Nat.toList_repr]
    refine ⟨List.ne_nil_of_length_pos Nat.length_toDigits_pos, fun c hc => ?_⟩
    unfold Doc.isNumeric
    rw [Nat.isDigit_of_mem_toDigits (by decide) (by decide) hc]
    rfl
  have hnumber : ∀ word : List Char, word ≠ [] → (∀ c ∈ word, Doc.isNumeric c = true) →
      Doc.isNumber word = true := by
    intro word hne hall
    unfold Doc.isNumber
    rw [List.all_eq_true.mpr hall, List.isEmpty_eq_false_iff.mpr hne]
    simp
  cases n with
  | ofNat m => exact hnumber _ (hdigits m).1 (hdigits m).2
  | negSucc m =>
    show Doc.isNumber ("-" ++ toString (m + 1)).toList = true
    rw [String.toList_append]
    refine hnumber _ (by simp) fun c hc => ?_
    rcases List.mem_append.mp hc with hc | hc
    · rw [List.mem_singleton.mp hc]
      decide
    · exact (hdigits (m + 1)).2 c hc

mutual

/-- Every `float` in the value is printed as a number. -/
def FloatsPrinted : PyValue → Prop
  | .float repr => Doc.isNumber (floatText repr).toList = true
  | .list items => FloatsPrintedItems items
  | .tuple items => FloatsPrintedItems items
  | .dict entries => FloatsPrintedEntries entries
  | .none | .bool _ | .int _ | .decimal _ | .datetime _ | .str _ => True

def FloatsPrintedItems : List PyValue → Prop
  | [] => True
  | item :: rest => FloatsPrinted item ∧ FloatsPrintedItems rest

def FloatsPrintedEntries : List (String × PyValue) → Prop
  | [] => True
  | (_, v) :: rest => FloatsPrinted v ∧ FloatsPrintedEntries rest

end

theorem floatsPrintedEntries_iff {entries : List (String × PyValue)} :
    FloatsPrintedEntries entries ↔ ∀ entry ∈ entries, FloatsPrinted entry.2 := by
  induction entries with
  | nil => exact iff_of_true trivial nofun
  | cons entry rest ih =>
    rw [FloatsPrintedEntries, ih, List.forall_mem_cons]

mutual

theorem proper_view : ∀ {value : PyValue}, FloatsPrinted value → (view value).Proper
  | .none, _ | .bool _, _ | .decimal _, _ | .datetime _, _ | .str _, _ => trivial
  | .int n, _ => isNumber_intToString n
  | .float _, h => h
  | .list items, h | .tuple items, h => by
    rw [FloatsPrinted] at h
    rw [view, Doc.Proper]
    exact properItems_view h
  | .dict entries, h => by
    rw [FloatsPrinted] at h
    rw [view, Doc.Proper]
    exact properEntries_view h

theorem properItems_view : ∀ {items : List PyValue}, FloatsPrintedItems items →
    Doc.ProperItems (viewItems items)
  | [], _ => trivial
  | item :: rest, h => by
    rw [FloatsPrintedItems] at h
    exact ⟨proper_view h.1, properItems_view h.2⟩

theorem properEntries_view : ∀ {entries : List (String × PyValue)},
    FloatsPrintedEntries entries → Doc.ProperEntries (viewEntries entries)
  | [], _ => trivial
  | (k, v) :: rest, h => by
    rw [FloatsPrintedEntries] at h
    exact ⟨proper_view h.1, properEntries_view h.2⟩

end

/-- What is dumped says what the value was. -/
theorem read_dumps {value : PyValue} (h : FloatsPrinted value) :
    Doc.read (dumps value) = some (view value) := by
  unfold dumps
  rw [encode_eq_render]
  exact (proper_view h).read_render

theorem printable_dumps {value : PyValue} (h : FloatsPrinted value) :
    Doc.Printable (dumps value).toList := by
  unfold dumps
  rw [String.toList_ofList, encode_eq_render]
  exact (proper_view h).printable

end Json
end QuantPlatform
