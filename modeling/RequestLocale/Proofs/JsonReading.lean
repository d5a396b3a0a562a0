import RequestLocale.Json.Reader
import RequestLocale.Proofs.TableHistory
import RequestLocale.Service.Response

/-! # What is read of a body

The service writes a body as JSON, and a client reads it with a reader of its own. A character that
would end a text, or that no text may hold, is written as an escape, and the reader undoes one
escape at a time (`textBody_jsonChar`); names of a record are kept apart on both sides. So whatever
is made of texts and of records with distinct names is read as it was (`Value.IsLegible.read_json`).
The reader takes a step for each nested value, and there are never more of them than characters. -/
namespace RequestLocale

namespace Json

open Text

/-! ## Texts -/

theorem hexValue?_hexDigit (n : Nat) : hexValue? (hexDigit n) = some (n % 16) := by
  have all : ∀ d < 16, hexValue? (Nat.digitChar d) = some d := by decide
  exact all (n % 16) (Nat.mod_lt n (by decide))

theorem unit?_hexPadded {n : Nat} (h : n < 0x10000) (rest : List Char) :
    unit? (hexPadded 4 n ++ rest) = some n := by
  simp only [hexPadded, List.nil_append, List.cons_append, unit?, hexValue?_hexDigit,
    Option.bind_eq_bind, Option.bind_some, Option.pure_def, Option.some.injEq]
  omega

/-- A control character is no half of a pair, so what follows its escape does not matter. -/
theorem unicodeEscape_of_lt {n : Nat} (h : n < 0x20) {rest : List Char} (hr : rest ≠ []) :
    unicodeEscape ('u' :: hexPadded 4 n ++ rest) = .ok (.whole (Char.ofNat n), 5) := by
  have hh : isHighHalf n = false := by simp [isHighHalf]; omega
  have long : ¬ (hexPadded 4 n ++ rest).length ≤ 4 := by
    have := List.length_pos_iff.mpr hr
    rw [List.length_append, length_hexPadded]
    omega
  have plain : Letter.ofUnit n = .whole (Char.ofNat n) := dif_neg (by omega)
  simp only [unicodeEscape, List.cons_append, List.drop_succ_cons, List.drop_zero, if_neg long,
    unit?_hexPadded (by omega : n < 0x10000), hh, Bool.false_and, Bool.false_eq_true, if_false,
    plain]
  split <;> rfl

/-- A written character is read first, before what follows it. -/
theorem textBody_jsonChar (start : List Char) (c : Char) {rest : List Char} (hr : rest ≠ []) :
    textBody start (jsonChar false c ++ rest) =
      (textBody start rest).map fun (body, rest) => (.whole c :: body, rest) := by
  have escaped (cs : List Char) (he : escape start (cs ++ rest) = .ok (.whole c, cs.length)) :
      textBody start ('\\' :: (cs ++ rest)) =
        (textBody start rest).map fun (body, rest) => (.whole c :: body, rest) := by
    rw [textBody, if_neg (by decide), if_pos rfl, he]
    simp only [List.drop_left]
    cases textBody start rest <;> rfl
  -- Eight ways to write a character, all but the last of them escapes.
  unfold jsonChar
  split
  · rename_i h
    obtain rfl | rfl := h <;> exact escaped [_] rfl
  split
  · subst c; exact escaped ['n'] rfl
  split
  · subst c; exact escaped ['r'] rfl
  split
  · subst c; exact escaped ['t'] rfl
  split
  · subst c; exact escaped ['b'] rfl
  split
  · subst c; exact escaped ['f'] rfl
  split
  · rename_i h
    have small : c.toNat < 0x20 := by simpa using h
    rw [jsonUnits, if_pos (by omega), jsonUnit]
    refine escaped ('u' :: hexPadded 4 c.toNat) ?_
    rw [List.length_cons, length_hexPadded]
    exact (unicodeEscape_of_lt small hr).trans (by rw [Char.ofNat_toNat])
  · rename_i hq _ _ _ _ _ h
    simp only [not_or, Bool.false_eq_true, false_and, or_false] at hq h
    rw [List.singleton_append, textBody, if_neg hq.1, if_neg hq.2, if_neg h]
    cases textBody start rest <;> rfl

/-- A text ends at the quote after it and nowhere before. -/
theorem textBody_jsonQuoted (start cs rest : List Char) :
    textBody start (cs.flatMap (jsonChar false) ++ '"' :: rest) = .ok (cs.map .whole, rest) := by
  induction cs with
  | nil => simp [textBody]
  | cons c cs ih =>
    rw [List.flatMap_cons, List.append_assoc, textBody_jsonChar start c (by simp), ih]
    rfl

/-! ## Values -/

/-- A text is read as a value, whatever follows it. Its first character is no blank, so that it is
not passed over. -/
structure Reads (cs : List Char) (v : Value) : Prop where
  begins : ∃ c more, cs = c :: more ∧ (c = '"' ∨ c = '{')
  value : ∀ {fuel : Nat} (rest : List Char), cs.length ≤ fuel →
    value fuel (cs ++ rest) = .ok (v, rest)

theorem skipSpace_cons {c : Char} (h : isSpace c = false) (cs : List Char) :
    skipSpace (c :: cs) = c :: cs := by
  simp [skipSpace, h]

theorem Reads.skipSpace_append {cs : List Char} {v : Value} (h : Reads cs v) (rest : List Char) :
    skipSpace (cs ++ rest) = cs ++ rest := by
  obtain ⟨c, more, rfl, rfl | rfl⟩ := h.begins <;> exact skipSpace_cons (by decide) _

theorem jsonQuoted_append (cs rest : List Char) :
    jsonQuoted false cs ++ rest = '"' :: (cs.flatMap (jsonChar false) ++ '"' :: rest) := by
  simp [jsonQuoted]

theorem value_quote (fuel : Nat) (cs : List Char) :
    value (fuel + 1) ('"' :: cs) =
      (textBody ('"' :: cs) cs).map fun (text, rest) => (Letter.value text, rest) := by
  have none_fits : (words.find? fun word => word.1.isPrefixOf ('"' :: cs)) = none := by
    simp [words]
  change atom ('"' :: cs) = _
  rw [atom, none_fits]
  change (textBody ('"' :: cs) cs).bind _ = _
  cases textBody ('"' :: cs) cs <;> rfl

theorem reads_jsonQuoted (s : String) : Reads (jsonQuoted false s.toList) (.text s) where
  begins := ⟨'"', _, rfl, .inl rfl⟩
  value {fuel} rest hf := by
    obtain ⟨fuel, rfl⟩ : ∃ n, fuel = n + 1 := by
      simp only [jsonQuoted, List.length_append, List.length_cons] at hf
      exact ⟨fuel - 1, by omega⟩
    rw [jsonQuoted_append, value_quote, textBody_jsonQuoted]
    simp [Except.map, Letter.value_whole]

/-- An entry as it is written. -/
def entryText (name : String) (cs : List Char) : List Char :=
  jsonQuoted false name.toList ++ ':' :: cs

/-- An entry with its name as a value. -/
def named (entry : String × Value) : Value × Value := (.text entry.1, entry.2)

/-- The texts of entries, each with a value that is read. -/
inductive Writes : List (String × Value) → List (List Char) → Prop
  | nil : Writes [] []
  | cons {name : String} {v : Value} {cs : List Char} {es : List (String × Value)}
      {parts : List (List Char)} (head : Reads cs v) (tail : Writes es parts) :
      Writes ((name, v) :: es) (entryText name cs :: parts)

theorem Writes.begins {es : List (String × Value)} {parts : List (List Char)}
    (h : Writes es parts) (hne : es ≠ []) (rest : List Char) :
    ∃ cs, Value.commaJson parts ++ rest = '"' :: cs := by
  cases h with
  | nil => exact absurd rfl hne
  | cons head tail =>
    cases tail <;> simp [Value.commaJson, entryText, jsonQuoted]

/-- An entry is read first, before the mark after it. -/
theorem entries_entryText {name : String} {cs : List Char} {v : Value} (h : Reads cs v)
    {fuel : Nat} (hf : (entryText name cs).length ≤ fuel) (rest : List Char) :
    entries (fuel + 1) (entryText name cs ++ '}' :: rest) = .ok ([named (name, v)], rest) ∧
    entries (fuel + 1) (entryText name cs ++ ',' :: rest) =
      (entries fuel (skipSpace rest)).map fun (more, rest) => (named (name, v) :: more, rest) := by
  have hf : cs.length ≤ fuel := by
    simp only [entryText, List.length_append, List.length_cons] at hf
    omega
  have colon (cs : List Char) : skipSpace (':' :: cs) = ':' :: cs := skipSpace_cons (by decide) cs
  have brace (cs : List Char) : skipSpace ('}' :: cs) = '}' :: cs := skipSpace_cons (by decide) cs
  have comma (cs : List Char) : skipSpace (',' :: cs) = ',' :: cs := skipSpace_cons (by decide) cs
  simp only [entryText, List.append_assoc, jsonQuoted_append, entries, textBody_jsonQuoted,
    List.cons_append, Letter.value_whole, String.ofList_toList, colon, bind, Except.bind,
    h.skipSpace_append, h.value _ hf, brace, comma, named]
  refine ⟨rfl, ?_⟩
  cases entries fuel (skipSpace rest) <;> rfl

theorem entries_commaJson {es : List (String × Value)} {parts : List (List Char)}
    (h : Writes es parts) (hne : es ≠ []) (rest : List Char) :
    ∀ {fuel : Nat}, (Value.commaJson parts).length < fuel →
      entries fuel (Value.commaJson parts ++ '}' :: rest) = .ok (es.map named, rest) := by
  induction h with
  | nil => exact absurd rfl hne
  | @cons name v cs es parts head tail ih =>
    intro fuel hf
    obtain ⟨fuel, rfl⟩ : ∃ n, fuel = n + 1 := ⟨fuel - 1, by omega⟩
    cases tail with
    | nil => exact (entries_entryText head (Nat.le_of_lt_succ hf) rest).1
    | @cons name' v' cs' es' parts' head' tail' =>
      have more : Writes ((name', v') :: es') (entryText name' cs' :: parts') := .cons head' tail'
      obtain ⟨begun, hb⟩ := more.begins (by simp) ('}' :: rest)
      have idle : skipSpace ('"' :: begun) = '"' :: begun := skipSpace_cons (by decide) begun
      simp only [Value.commaJson, List.length_append, List.length_cons] at hf ⊢
      rw [List.append_assoc, List.cons_append, (entries_entryText head (by omega) _).2, hb, idle,
        ← hb, ih (by simp) (by omega)]
      rfl

/-! ## Records -/

theorem put_named (name : String) (v : Value) (es : List (String × Value)) :
    Entries.put (.text name) v (es.map named) = (Table.put name v es).map named := by
  induction es with
  | nil => rfl
  | cons entry es ih =>
    by_cases h : entry.1 = name
    · simp [Entries.put, Table.put, named, Value.sameKey, h]
    · simp [Entries.put, Table.put, named, Value.sameKey, h, ← ih]

/-- A record whose keys are texts is written as a table is. -/
theorem ofList_named (es : List (String × Value)) :
    Entries.ofList (es.map named) = (Table.ofList es).entries.map named := by
  induction es using List.reverseRecOn with
  | nil => rfl
  | append_singleton es entry ih =>
    rw [Table.ofList_concat, Table.insert, ← put_named, ← ih, Entries.ofList, List.map_append,
      List.foldl_append]
    rfl

/-- Under distinct names no entry takes the place of another. -/
theorem ofList_named_of_nodup {es : List (String × Value)} (h : (es.map (·.1)).Nodup) :
    Entries.ofList (es.map named) = es.map named := by
  rw [ofList_named, Table.ofList_entries ⟨es, h⟩]

theorem value_brace (fuel : Nat) (cs : List Char) :
    value (fuel + 1) ('{' :: '"' :: cs) =
      (entries fuel ('"' :: cs)).map fun (es, rest) => (.record (Entries.ofList es), rest) := by
  have idle : skipSpace ('"' :: cs) = '"' :: cs := skipSpace_cons (by decide) cs
  rw [Json.value, idle]
  change (entries fuel ('"' :: cs)).bind _ = _
  cases entries fuel ('"' :: cs) <;> rfl

theorem reads_record {es : List (String × Value)} {parts : List (List Char)}
    (h : Writes es parts) (distinct : (es.map (·.1)).Nodup) :
    Reads ('{' :: Value.commaJson parts ++ ['}']) (.record (es.map named)) where
  begins := ⟨'{', _, rfl, .inr rfl⟩
  value {fuel} rest hf := by
    simp only [List.length_append, List.length_cons] at hf
    obtain ⟨fuel, rfl⟩ : ∃ n, fuel = n + 1 := ⟨fuel - 1, by omega⟩
    have body : '{' :: Value.commaJson parts ++ ['}'] ++ rest =
        '{' :: (Value.commaJson parts ++ '}' :: rest) := by simp
    rw [body]
    by_cases hne : es = []
    · subst hne
      cases h
      rfl
    · obtain ⟨begun, hb⟩ := h.begins hne ('}' :: rest)
      rw [hb, value_brace, ← hb, entries_commaJson h hne rest (by omega)]
      simp only [Except.map, ofList_named_of_nodup distinct]

end Json

namespace Value

open Json

/-- Values that keep their form in JSON: texts, and records with one entry under each name. -/
inductive IsLegible : Value → Prop
  | text (s : String) : IsLegible (.text s)
  | record (es : List (String × Value)) (distinct : (es.map (·.1)).Nodup)
      (values : ∀ entry ∈ es, IsLegible entry.2) : IsLegible (.record (es.map named))

theorem writes_jsonEntries {es : List (String × Value)}
    (h : ∀ entry ∈ es, ∃ cs, entry.2.json Response.style = .ok cs ∧ Reads cs entry.2) :
    ∃ parts, jsonEntries Response.style (es.map named) = .ok parts ∧ Writes es parts := by
  induction es with
  | nil => exact ⟨[], rfl, .nil⟩
  | cons entry es ih =>
    obtain ⟨cs, hj, hr⟩ := h entry (by simp)
    obtain ⟨parts, hp, hw⟩ := ih fun e he => h e (by simp [he])
    refine ⟨entryText entry.1 cs :: parts, ?_, .cons hr hw⟩
    simp only [List.map_cons, named, jsonEntries, jsonKey, hj, hp, bind, Except.bind]
    rfl

/-- A legible value is written, and what is written is read wherever it stands. -/
theorem IsLegible.reads {v : Value} (h : v.IsLegible) :
    ∃ cs, v.json Response.style = .ok cs ∧ Reads cs v := by
  induction h with
  | text s => exact ⟨_, rfl, reads_jsonQuoted s⟩
  | record es distinct values ih =>
    obtain ⟨parts, hp, hw⟩ := writes_jsonEntries ih
    refine ⟨_, ?_, reads_record hw distinct⟩
    rw [json, hp]
    rfl

/-- **A client reads what the service has written.** -/
theorem IsLegible.read_json {v : Value} (h : v.IsLegible) :
    ∃ cs, v.json Response.style = .ok cs ∧ Json.read cs = .ok v := by
  obtain ⟨cs, hj, hr⟩ := h.reads
  refine ⟨cs, hj, ?_⟩
  have idle : skipSpace cs = cs := by simpa using hr.skipSpace_append []
  have enough : cs.length ≤ 2 * cs.length + 1 := by omega
  have read : Json.value (2 * cs.length + 1) cs = .ok (v, []) := by simpa using hr.value [] enough
  have unmarked : cs.head? ≠ some '\uFEFF' := by
    obtain ⟨c, more, rfl, rfl | rfl⟩ := hr.begins <;> simp
  rw [Json.read, document, if_neg unmarked, idle]
  simp only [bind, Except.bind, read]
  rfl

end Value

end RequestLocale
