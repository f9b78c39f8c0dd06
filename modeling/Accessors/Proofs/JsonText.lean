import Accessors.Json
import Accessors.Proofs.Lexing
/-!
# Reading JSON

`Json.ofText?` reads a JSON text whose numbers are natural.  It knows nothing of layouts: blanks may stand between any
two parts.  What is written in a layout that puts blanks only there is read back (`readsBack`), so a text has no two
values (`ofText?_pretty`).
-/
namespace Accessors
namespace Json

/-! ## Reading -/

/-- What may stand between the parts of a text. -/
def isBlank (c : Char) : Bool := c = ' ' || c = '\t' || c = '\n' || c = '\r'

def skip (cs : List Char) : List Char := cs.dropWhile isBlank

def hexValue? (c : Char) : Option Nat :=
  if c.isDigit then some (c.toNat - '0'.toNat)
  else if 'a' ≤ c && c ≤ 'f' then some (c.toNat - 'a'.toNat + 10)
  else if 'A' ≤ c && c ≤ 'F' then some (c.toNat - 'A'.toNat + 10)
  else none

/-- The character of four hexadecimal digits; half of a pair is none. -/
def ofHex? (a b c d : Char) : Option Char := do
  let n := 16 * (16 * (16 * (← hexValue? a) + (← hexValue? b)) + (← hexValue? c)) + (← hexValue? d)
  if n.isValidChar then some (Char.ofNat n) else none

/-- The character that one behind a backslash stands for. -/
def ofEscape? (c : Char) : Option Char :=
  if c = '"' || c = '\\' || c = '/' then some c
  else if c = 'b' then some '\x08'
  else if c = 'f' then some '\x0c'
  else if c = 'n' then some '\n'
  else if c = 'r' then some '\r'
  else if c = 't' then some '\t'
  else none

/-- The characters up to a closing quote, and what stands behind it. -/
def readQuoted : List Char → Option (List Char × List Char)
  | [] => none
  | '"' :: rest => some ([], rest)
  | '\\' :: 'u' :: a :: b :: c :: d :: rest =>
    (ofHex? a b c d).bind fun x => (readQuoted rest).map fun p => (x :: p.1, p.2)
  | '\\' :: c :: rest => (ofEscape? c).bind fun x => (readQuoted rest).map fun p => (x :: p.1, p.2)
  | c :: rest => if c.toNat < 32 then none else (readQuoted rest).map fun p => (c :: p.1, p.2)

/-- Parts with commas between them, at least one, up to the closing bracket. -/
def readParts {α : Type} (part : List Char → Option (α × List Char)) (close : Char) :
    Nat → List Char → Option (List α × List Char)
  | 0, _ => none
  | room + 1, cs =>
    (part cs).bind fun p =>
      match skip p.2 with
      | [] => none
      | c :: rest =>
        if c = ',' then (readParts part close room rest).map fun q => (p.1 :: q.1, q.2)
        else if c = close then some ([p.1], rest)
        else none

/-- What stands behind an opening bracket. -/
def readSequence {α : Type} (part : List Char → Option (α × List Char)) (close : Char) (room : Nat) (cs : List Char) :
    Option (List α × List Char) :=
  if (skip cs).head? = some close then some ([], (skip cs).tail) else readParts part close room cs

def readField (value : List Char → Option (Json × List Char)) (cs : List Char) :
    Option ((String × Json) × List Char) :=
  match skip cs with
  | '"' :: rest =>
    (readQuoted rest).bind fun name =>
      match skip name.2 with
      | ':' :: rest => (value rest).map fun p => ((String.ofList name.1, p.1), p.2)
      | _ => none
  | _ => none

def readWord : List Char → Option (Json × List Char)
  | 'n' :: 'u' :: 'l' :: 'l' :: rest => some (null, rest)
  | 't' :: 'r' :: 'u' :: 'e' :: rest => some (bool true, rest)
  | 'f' :: 'a' :: 'l' :: 's' :: 'e' :: rest => some (bool false, rest)
  | _ => none

/-- The value at the front of a text, and what stands behind it.  A value takes more room than each of its parts. -/
def readValue : Nat → List Char → Option (Json × List Char)
  | 0, _ => none
  | room + 1, cs =>
    match skip cs with
    | [] => none
    | c :: rest =>
      if c = '"' then (readQuoted rest).map fun p => (text (String.ofList p.1), p.2)
      else if c = '[' then (readSequence (readValue room) ']' room rest).map fun p => (array p.1, p.2)
      else if c = '{' then (readSequence (readField (readValue room)) '}' room rest).map fun p => (object p.1, p.2)
      else if c.isDigit then
        some (number (Nat.ofDigitChars 10 ((c :: rest).takeWhile Char.isDigit) 0), (c :: rest).dropWhile Char.isDigit)
      else readWord (c :: rest)

/-- The value of a text that holds nothing else. -/
def ofText? (s : String) : Option Json :=
  (readValue (s.toList.length + 1) s.toList).bind fun p => if (skip p.2).isEmpty then some p.1 else none

/-! ## Blanks -/

theorem skip_append {gap : List Char} (h : ∀ c ∈ gap, isBlank c = true) (cs : List Char) :
    skip (gap ++ cs) = skip cs := by
  unfold skip
  rw [List.dropWhile_append_of_pos h]

theorem skip_cons {c : Char} (h : isBlank c = false) (cs : List Char) : skip (c :: cs) = c :: cs :=
  List.dropWhile_cons_of_neg (by simp [h])

theorem readValue_append {gap : List Char} (h : ∀ c ∈ gap, isBlank c = true) (room : Nat) (cs : List Char) :
    readValue room (gap ++ cs) = readValue room cs := by
  cases room with
  | zero => rfl
  | succ room => rw [readValue, readValue, skip_append h]

/-- A layout that puts nothing but blanks between the parts of a value. -/
structure Layout.IsBlank (l : Layout) : Prop where
  lineBreak : ∀ depth, ∀ c ∈ l.lineBreak depth, isBlank c = true
  colon : ∃ before after, l.colon = before ++ ':' :: after ∧ (∀ c ∈ before, isBlank c = true) ∧
    ∀ c ∈ after, isBlank c = true

theorem isBlank_spread : Layout.spread.IsBlank where
  lineBreak depth c hc := by
    rcases List.mem_cons.1 hc with rfl | hc
    · decide
    · rw [List.eq_of_mem_replicate hc]
      decide
  colon := ⟨[], [' '], rfl, by simp, by simp [isBlank]⟩

/-! ## Texts -/

theorem ofHex?_of_lt {n : Nat} (h : n < 32) :
    ofHex? '0' '0' (Nat.digitChar (n / 16)) (Nat.digitChar (n % 16)) = some (Char.ofNat n) := by
  have hall : ∀ n < 32, ofHex? '0' '0' (Nat.digitChar (n / 16)) (Nat.digitChar (n % 16)) = some (Char.ofNat n) := by
    decide
  exact hall n h

theorem readQuoted_cons {c : Char} (hquote : c ≠ '"') (hback : c ≠ '\\') (hlow : ¬ c.toNat < 32) (cs : List Char) :
    readQuoted (c :: cs) = (readQuoted cs).map fun p => (c :: p.1, p.2) := by
  rw [readQuoted.eq_def]
  split
  case h_1 h => cases h
  case h_2 h => exact absurd (List.cons.inj h).1 hquote
  case h_3 h => exact absurd (List.cons.inj h).1 hback
  case h_4 h => exact absurd (List.cons.inj h).1 hback
  case h_5 h =>
    obtain ⟨rfl, rfl⟩ := List.cons.inj h
    exact if_neg hlow

/-- **A character is read back as it was written**, escaped or not. -/
theorem readQuoted_character (c : Char) (cs : List Char) :
    readQuoted (character c ++ cs) = (readQuoted cs).map fun p => (c :: p.1, p.2) := by
  unfold character
  split_ifs with hquote hback hb hf hn hr ht hlow
  · subst hquote; simp [readQuoted, ofEscape?]
  · subst hback; simp [readQuoted, ofEscape?]
  · subst hb; simp [readQuoted, ofEscape?]
  · subst hf; simp [readQuoted, ofEscape?]
  · subst hn; simp [readQuoted, ofEscape?]
  · subst hr; simp [readQuoted, ofEscape?]
  · subst ht; simp [readQuoted, ofEscape?]
  · simp only [List.cons_append, List.nil_append]
    rw [readQuoted, ofHex?_of_lt hlow, Char.ofNat_toNat]
    rfl
  · simp only [List.cons_append, List.nil_append]
    exact readQuoted_cons hquote hback hlow cs

theorem readQuoted_flatMap (s rest : List Char) :
    readQuoted (s.flatMap character ++ '"' :: rest) = some (s, rest) := by
  induction s with
  | nil => simp [readQuoted]
  | cons c s ih =>
    rw [List.flatMap_cons, List.append_assoc, readQuoted_character, ih]
    rfl

/-! ## Parts -/

/-- What may stand behind a value: no digit that would make a number longer. -/
def Ends (after : List Char) : Prop := ∀ c ∈ after.head?, c.isDigit = false

theorem ends_cons {c : Char} (h : c.isDigit = false) (after : List Char) : Ends (c :: after) := by
  intro d hd
  rwa [← Option.some.inj hd]

theorem not_isDigit_of_isBlank {c : Char} (h : isBlank c = true) : c.isDigit = false := by
  simp only [isBlank, Bool.or_eq_true, decide_eq_true_eq] at h
  rcases h with ((rfl | rfl) | rfl) | rfl <;> decide

theorem not_isBlank_of_isDigit {c : Char} (h : c.isDigit = true) : isBlank c = false := by
  by_contra hb
  rw [not_isDigit_of_isBlank (by simpa using hb)] at h
  cases h

theorem ends_append {gap after : List Char} (hgap : ∀ c ∈ gap, isBlank c = true) (h : Ends after) :
    Ends (gap ++ after) := by
  cases gap with
  | nil => exact h
  | cons c gap => exact ends_cons (not_isDigit_of_isBlank (hgap c List.mem_cons_self)) _

theorem length_le_intercalate {word : List Char} : ∀ {words : List (List Char)}, word ∈ words →
    word.length ≤ ([','].intercalate words).length
  | [w], h => by simp [List.mem_singleton.1 h]
  | w :: v :: words, h => by
    rw [List.intercalate_cons_cons, List.length_append, List.length_append]
    rcases List.mem_cons.1 h with rfl | h
    · omega
    · have := length_le_intercalate h
      omega

theorem length_le_length_intercalate : ∀ words : List (List Char),
    words.length ≤ ([','].intercalate words).length + 1
  | [] => by simp
  | [w] => by simp
  | w :: v :: words => by
    have := length_le_length_intercalate (v :: words)
    rw [List.intercalate_cons_cons, List.length_append, List.length_append]
    simp only [List.length_cons, List.length_nil] at this ⊢
    omega

theorem intercalate_map_cons {α : Type} (write : α → List Char) (a b : α) (parts : List α) :
    [','].intercalate ((a :: b :: parts).map write) =
      write a ++ ',' :: [','].intercalate ((b :: parts).map write) := by
  simp [List.intercalate_cons_cons]

section Parts

variable {α : Type} {part : List Char → Option (α × List Char)} {close : Char} {write : α → List Char} {gap : List Char}

/-- **Parts with commas between them are read back** if each of them is. -/
theorem readParts_intercalate (hgap : ∀ c ∈ gap, isBlank c = true) (hblank : isBlank close = false)
    (hdigit : close.isDigit = false) (hcomma : close ≠ ',') (rest : List Char) :
    ∀ (parts : List α) (room : Nat), parts ≠ [] → parts.length ≤ room →
      (∀ a ∈ parts, ∀ after, Ends after → part (write a ++ after) = some (a, after)) →
      readParts part close room ([','].intercalate (parts.map write) ++ (gap ++ close :: rest)) = some (parts, rest)
  | [], _, hne, _, _ => absurd rfl hne
  | _ :: _, 0, _, hroom, _ => by simp at hroom
  | [a], room + 1, _, _, hpart => by
    have hends := ends_append hgap (ends_cons hdigit rest)
    rw [List.map_singleton, List.intercalate_singleton, readParts, hpart a List.mem_cons_self _ hends,
      Option.bind_some, skip_append hgap, skip_cons hblank]
    simp [hcomma]
  | a :: b :: parts, room + 1, _, hroom, hpart => by
    have hrest := readParts_intercalate hgap hblank hdigit hcomma rest (b :: parts) room (by simp)
      (by simpa using hroom) (fun c hc => hpart c (List.mem_cons_of_mem _ hc))
    have hends := ends_cons (c := ',') (by decide)
      ([','].intercalate ((b :: parts).map write) ++ (gap ++ close :: rest))
    rw [intercalate_map_cons, List.append_assoc, List.cons_append, readParts, hpart a List.mem_cons_self _ hends,
      Option.bind_some, skip_cons (by decide)]
    simp only [if_true, hrest, Option.map_some]

/-- What stands between brackets is read back in the room that it takes. -/
theorem readSequence_intercalate (hgap : ∀ c ∈ gap, isBlank c = true) (hblank : isBlank close = false)
    (hdigit : close.isDigit = false) (hcomma : close ≠ ',') (rest : List Char) {parts : List α} {room : Nat}
    (hne : parts ≠ []) (hroom : ([','].intercalate (parts.map write)).length < room)
    (hpart : ∀ a ∈ parts, (write a).length < room → ∀ after, Ends after → part (write a ++ after) = some (a, after))
    (hfront : ∀ a after, (skip (write a ++ after)).head? ≠ some close) :
    readSequence part close room ([','].intercalate (parts.map write) ++ (gap ++ close :: rest)) =
      some (parts, rest) := by
  -- the closing bracket does not come first, so this is not read as an empty sequence
  have hopen : (skip ([','].intercalate (parts.map write) ++ (gap ++ close :: rest))).head? ≠ some close := by
    match parts, hne with
    | [a], _ =>
      rw [List.map_singleton, List.intercalate_singleton]
      exact hfront a _
    | a :: b :: parts, _ =>
      rw [intercalate_map_cons, List.append_assoc]
      exact hfront a _
  have hcount := length_le_length_intercalate (parts.map write)
  rw [List.length_map] at hcount
  unfold readSequence
  rw [if_neg hopen]
  refine readParts_intercalate hgap hblank hdigit hcomma rest parts room hne (by omega) (fun a ha => hpart a ha ?_)
  have := length_le_intercalate (List.mem_map_of_mem (f := write) ha)
  omega

end Parts

theorem writeItems_eq (l : Layout) (depth : Nat) : ∀ items : List Json,
    writeItems l depth items = [','].intercalate (items.map fun item => l.lineBreak depth ++ write l depth item)
  | [] => rfl
  | [item] => by simp [writeItems]
  | item :: next :: items => by
    rw [writeItems, writeItems_eq l depth (next :: items), intercalate_map_cons]
    simp

theorem writeFields_eq (l : Layout) (depth : Nat) : ∀ fields : List (String × Json),
    writeFields l depth fields = [','].intercalate (fields.map fun f =>
      l.lineBreak depth ++ quote f.1 ++ l.colon ++ write l depth f.2)
  | [] => rfl
  | [(name, value)] => by simp [writeFields]
  | (name, value) :: next :: fields => by
    rw [writeFields, writeFields_eq l depth (next :: fields), intercalate_map_cons]
    simp

theorem write_array_append (l : Layout) (depth : Nat) (item : Json) (items : List Json) (rest : List Char) :
    write l depth (array (item :: items)) ++ rest =
      '[' :: ([','].intercalate ((item :: items).map fun i => l.lineBreak (depth + 1) ++ write l (depth + 1) i) ++
        (l.lineBreak depth ++ ']' :: rest)) := by
  rw [write, writeItems_eq]
  simp

theorem write_object_append (l : Layout) (depth : Nat) (field : String × Json) (fields : List (String × Json))
    (rest : List Char) : write l depth (object (field :: fields)) ++ rest =
      '{' :: ([','].intercalate ((field :: fields).map fun f =>
        l.lineBreak (depth + 1) ++ quote f.1 ++ l.colon ++ write l (depth + 1) f.2) ++
          (l.lineBreak depth ++ '}' :: rest)) := by
  rw [write, writeFields_eq]
  simp

/-! ## Values -/

/-- A property of all values follows from that of the parts of a value. -/
@[elab_as_elim]
theorem induction {P : Json → Prop} (null : P null) (bool : ∀ b, P (bool b)) (number : ∀ n, P (number n))
    (text : ∀ s, P (text s)) (array : ∀ items, (∀ item ∈ items, P item) → P (array items))
    (object : ∀ fields, (∀ f ∈ fields, P f.2) → P (object fields)) : ∀ j, P j
  | .null => null
  | .bool b => bool b
  | .number n => number n
  | .text s => text s
  | .array items => array items (fun item _ => induction null bool number text array object item)
  | .object fields => object fields (fun f _ => induction null bool number text array object f.2)
termination_by j => sizeOf j
decreasing_by
  · have := List.sizeOf_lt_of_mem ‹item ∈ items›
    simp only [Json.array.sizeOf_spec]
    omega
  · have := List.sizeOf_lt_of_mem ‹f ∈ fields›
    have hpair : sizeOf f = 1 + sizeOf f.1 + sizeOf f.2 := by cases f; rfl
    simp only [Json.object.sizeOf_spec]
    omega

theorem write_number (l : Layout) (depth n : Nat) : write l depth (number n) = Nat.toDigits 10 n := by
  rw [write]
  exact String.toList_ofList

/-- The first character of a value is neither a blank nor a closing bracket. -/
theorem exists_write_eq (l : Layout) (depth : Nat) (j : Json) :
    ∃ c cs, write l depth j = c :: cs ∧ isBlank c = false ∧ c ≠ ']' := by
  cases j with
  | null => exact ⟨'n', _, rfl, by decide, by decide⟩
  | bool b => cases b <;> exact ⟨_, _, rfl, by decide, by decide⟩
  | number n =>
    obtain ⟨d, more, hd⟩ := List.exists_cons_of_length_pos (Nat.length_toDigits_pos (b := 10) (n := n))
    have hdigit := Nat.isDigit_of_mem_toDigits (b := 10) (n := n) (by omega) (by omega) (hd ▸ List.mem_cons_self)
    refine ⟨d, more, (write_number l depth n).trans hd, not_isBlank_of_isDigit hdigit, ?_⟩
    rintro rfl
    cases hdigit
  | text s => exact ⟨'"', _, rfl, by decide, by decide⟩
  | array items => cases items <;> exact ⟨'[', _, rfl, by decide, by decide⟩
  | object fields => cases fields <;> exact ⟨'{', _, rfl, by decide, by decide⟩

theorem quote_append (s : String) (rest : List Char) :
    quote s ++ rest = '"' :: (s.toList.flatMap character ++ '"' :: rest) := by
  unfold quote
  simp

variable {l : Layout}

/-- A field is read back if its value is. -/
theorem readField_write (hl : l.IsBlank) {value : List Char → Option (Json × List Char)} {depth : Nat}
    {f : String × Json} {after : List Char}
    (hvalue : ∀ gap, (∀ c ∈ gap, isBlank c = true) →
      value (gap ++ (write l depth f.2 ++ after)) = some (f.2, after)) :
    readField value (l.lineBreak depth ++ quote f.1 ++ l.colon ++ write l depth f.2 ++ after) = some (f, after) := by
  obtain ⟨before, behind, hcolon, hbefore, hbehind⟩ := hl.colon
  rw [hcolon]
  simp only [List.append_assoc, List.cons_append]
  unfold readField
  rw [skip_append (hl.lineBreak depth), quote_append, skip_cons (by decide)]
  simp only [readQuoted_flatMap, Option.bind_some]
  rw [skip_append hbefore, skip_cons (by decide)]
  simp only [hvalue behind hbehind, Option.map_some, String.ofList_toList]

/-- **A number is read up to the end of its digits.** -/
theorem readValue_toDigits {room n : Nat} {rest : List Char} (hrest : Ends rest) :
    readValue (room + 1) (Nat.toDigits 10 n ++ rest) = some (number n, rest) := by
  have hdigits : ∀ c ∈ Nat.toDigits 10 n, c.isDigit = true := fun c hc =>
    Nat.isDigit_of_mem_toDigits (by omega) (by omega) hc
  have htake : (Nat.toDigits 10 n ++ rest).takeWhile Char.isDigit = Nat.toDigits 10 n :=
    Token.takeWhile_append_eq_left hdigits hrest
  have hdrop := List.takeWhile_append_dropWhile (p := Char.isDigit) (l := Nat.toDigits 10 n ++ rest)
  rw [htake, List.append_cancel_left_eq] at hdrop
  obtain ⟨d, more, hd⟩ := List.exists_cons_of_length_pos (Nat.length_toDigits_pos (b := 10) (n := n))
  have hdigit := hdigits d (hd ▸ List.mem_cons_self)
  have hother : ∀ c : Char, c.isDigit = false → d ≠ c := by
    rintro c hc rfl
    rw [hc] at hdigit
    cases hdigit
  rw [readValue, hd, List.cons_append, skip_cons (not_isBlank_of_isDigit hdigit)]
  simp only [hother '"' (by decide), hother '[' (by decide), hother '{' (by decide), if_false, hdigit, if_true]
  rw [← List.cons_append, ← hd, htake, hdrop, Nat.ofDigitChars_ten_toDigits]

theorem exists_room {depth room : Nat} {j : Json} (h : (write l depth j).length ≤ room) : ∃ r, room = r + 1 := by
  obtain ⟨c, cs, hw, -⟩ := exists_write_eq l depth j
  rw [hw, List.length_cons] at h
  exact ⟨room - 1, by omega⟩

/-- What is written for the value is read back, whatever stands behind it. -/
def ReadsBack (l : Layout) (j : Json) : Prop :=
  ∀ (depth room : Nat) (rest : List Char), (write l depth j).length ≤ room → Ends rest →
    readValue room (write l depth j ++ rest) = some (j, rest)

theorem ReadsBack.array (hl : l.IsBlank) {items : List Json} (h : ∀ item ∈ items, ReadsBack l item) :
    ReadsBack l (array items) := by
  intro depth room rest hroom hrest
  obtain ⟨room, rfl⟩ := exists_room hroom
  cases items with
  | nil => rfl
  | cons item items =>
    rw [write, writeItems_eq] at hroom
    simp only [List.length_append, List.length_cons, List.length_nil] at hroom
    rw [write_array_append, readValue, skip_cons (by decide)]
    simp only [Char.reduceEq, if_false, if_true]
    rw [readSequence_intercalate (hl.lineBreak depth) (by decide) (by decide) (by decide) rest (List.cons_ne_nil _ _)
      (by omega) ?_ ?_]
    · rfl
    · -- the brackets take the room by which an item has less of it than the array
      intro i hi hlength after hafter
      rw [List.append_assoc, readValue_append (hl.lineBreak _)]
      rw [List.length_append] at hlength
      exact h i hi _ _ _ (by omega) hafter
    · intro i after
      obtain ⟨c, cs, hw, hblank, hc⟩ := exists_write_eq l (depth + 1) i
      rw [List.append_assoc, skip_append (hl.lineBreak _), hw, List.cons_append, skip_cons hblank]
      simpa using hc

theorem ReadsBack.object (hl : l.IsBlank) {fields : List (String × Json)} (h : ∀ f ∈ fields, ReadsBack l f.2) :
    ReadsBack l (object fields) := by
  intro depth room rest hroom hrest
  obtain ⟨room, rfl⟩ := exists_room hroom
  cases fields with
  | nil => rfl
  | cons f fields =>
    rw [write, writeFields_eq] at hroom
    simp only [List.length_append, List.length_cons, List.length_nil] at hroom
    rw [write_object_append, readValue, skip_cons (by decide)]
    simp only [Char.reduceEq, if_false, if_true]
    rw [readSequence_intercalate (hl.lineBreak depth) (by decide) (by decide) (by decide) rest (List.cons_ne_nil _ _)
      (by omega) ?_ ?_]
    · rfl
    · intro f hf hlength after hafter
      simp only [List.length_append] at hlength
      refine readField_write hl (fun gap hgap => ?_)
      rw [readValue_append hgap]
      exact h f hf _ _ _ (by omega) hafter
    · intro f after
      simp only [List.append_assoc]
      rw [skip_append (hl.lineBreak _), quote_append, skip_cons (by decide)]
      simp

/-- **What is written is read back**, whatever value it is. -/
theorem readsBack (hl : l.IsBlank) (j : Json) : ReadsBack l j := by
  induction j using Json.induction with
  | array items ih => exact .array hl ih
  | object fields ih => exact .object hl ih
  | null =>
    intro depth room rest hroom hrest
    obtain ⟨room, rfl⟩ := exists_room hroom
    rfl
  | bool b =>
    intro depth room rest hroom hrest
    obtain ⟨room, rfl⟩ := exists_room hroom
    cases b <;> rfl
  | number n =>
    intro depth room rest hroom hrest
    obtain ⟨room, rfl⟩ := exists_room hroom
    rw [write_number]
    exact readValue_toDigits hrest
  | text s =>
    intro depth room rest hroom hrest
    obtain ⟨room, rfl⟩ := exists_room hroom
    rw [write, quote_append, readValue, skip_cons (by decide)]
    simp only [if_true, readQuoted_flatMap, Option.map_some, String.ofList_toList]

/-- **A text that was written has the value it was written for.** -/
theorem ofText?_pretty (j : Json) : ofText? j.pretty = some j := by
  have hread := readsBack isBlank_spread j 0 ((write .spread 0 j).length + 1) [] (Nat.le_succ _)
    (fun c hc => by cases hc)
  rw [List.append_nil] at hread
  unfold ofText? pretty
  rw [String.toList_ofList, hread]
  rfl

end Json
end Accessors
