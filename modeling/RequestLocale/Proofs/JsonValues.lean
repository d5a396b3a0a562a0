import RequestLocale.Proofs.JsonReading
import RequestLocale.Proofs.PercentCoding
import RequestLocale.Proofs.Results
import RequestLocale.Text.Blank

/-! # What a reader of JSON can give

A value that is read is a word, a text, a number, a list or a record, and the keys of a record are
texts. Half of a pair makes a text into bytes, and these bytes encode no text. The quotes of a text
and the brackets of a list are not part of it, so that a value made of texts has fewer characters
than what it is read from, blanks and commas not counted (`mass_of_value`, `mass_of_items`). -/
namespace RequestLocale.Json

open Text

/-! ## The forms of values -/

/-- Bytes that encode no text. -/
def IsBroken (bs : List UInt8) : Prop := ∃ e, Utf8.decode bs = .error e

theorem Letter.decodeFrom_bytes_half (position : Nat) (place : Fin 0x800) (rest : List UInt8) :
    ∃ e, Utf8.decodeFrom position ((Letter.half place).bytes ++ rest) = .error e := by
  obtain ⟨n, hn⟩ := place
  have high : ¬ (0xA0 + n / 64).toUInt8 ≤ 0x9F := by
    rw [UInt8.le_iff_toNat_le, Utf8.toNat_toUInt8 (by omega), Nat.not_le]
    exact Nat.lt_of_lt_of_le (by decide : (0x9F : UInt8).toNat < 0xA0) (Nat.le_add_right _ _)
  have refused : Utf8.head 0xED ((0xA0 + n / 64).toUInt8 :: (0x80 + n % 64).toUInt8 :: rest) =
      .error (.continuationByte, 0) := by
    have lead : Utf8.lead? 0xED = some ⟨13, 2, 0x80, 0x9F⟩ := rfl
    rw [Utf8.head, if_neg (by decide), lead]
    simp only [Utf8.continued, high, and_false, if_false]
    rfl
  refine ⟨⟨.continuationByte, position, [0xED]⟩, ?_⟩
  rw [bytes, List.cons_append, List.cons_append, List.cons_append, List.nil_append,
    Utf8.decodeFrom, refused]
  rfl

theorem Letter.isBroken_bytes {letters : List Letter} (h : letters.all isWhole = false) :
    IsBroken (letters.flatMap bytes) := by
  have fails (position : Nat) :
      ∃ e, Utf8.decodeFrom position (letters.flatMap bytes) = .error e := by
    induction letters generalizing position with
    | nil => cases h
    | cons letter letters ih =>
      rw [List.flatMap_cons]
      cases letter with
      | half place => exact decodeFrom_bytes_half position place _
      | whole c =>
        obtain ⟨b, more, encoded, read⟩ := Utf8.head_encodeChar c
        obtain ⟨e, fault⟩ := ih (by simpa [isWhole, char?] using h) (position + 1 + more.length)
        refine ⟨e, ?_⟩
        rw [bytes, encoded, List.cons_append, Utf8.decodeFrom, read]
        simp only [List.drop_left, fault]
        rfl
  exact fails 0

/-- A text, or bytes in its place that encode none. -/
def IsName (v : Value) : Prop := (∃ s, v = .text s) ∨ ∃ bs, v = .bytes false bs ∧ IsBroken bs

theorem isName_value (letters : List Letter) : IsName (Letter.value letters) := by
  cases h : letters.all Letter.isWhole with
  | true => exact .inl ⟨_, if_pos h⟩
  | false => exact .inr ⟨_, if_neg (Bool.eq_false_iff.mp h), Letter.isBroken_bytes h⟩

theorem number_cases {negative : Bool} {start cs rest : List Char} {v : Value}
    (h : number negative start cs = .ok (v, rest)) : (∃ n, v = .int n) ∨ ∃ x, v = .float x := by
  unfold number at h
  -- Digits, places and exponent are read first, and only the last step gives a value.
  split at h
  rename_i digits left hd
  clear hd
  split at h
  · cases h
  split at h
  rename_i places left hp
  clear hp
  split at h
  rename_i exponent left he
  clear he
  split at h
  · split at h
    · cases h
    · cases h
      exact .inl ⟨_, rfl⟩
  · cases h
    exact .inr ⟨_, rfl⟩

/-- A value that holds no others: a word, a text or a number. -/
theorem atom_cases {cs rest : List Char} {v : Value} (h : atom cs = .ok (v, rest)) :
    (∃ word, (word, v) ∈ words ∧ cs = word ++ rest) ∨
      (∃ body s, cs = '"' :: body ∧ textBody cs body = .ok (s.toList.map .whole, rest) ∧
        v = .text s) ∨
      (∃ bs, v = .bytes false bs ∧ IsBroken bs) ∨
      (∃ n, v = .int n) ∨ ∃ x, v = .float x := by
  unfold atom at h
  split at h
  · rename_i word value found
    cases h
    have fits := List.find?_some found
    exact .inl ⟨word, List.mem_of_find?_eq_some found,
      (List.prefix_iff_eq_append.mp (List.isPrefixOf_iff_prefix.mp fits)).symm⟩
  · split at h
    · obtain ⟨⟨letters, left⟩, ht, h⟩ := ok_of_bind h
      cases h
      rcases isName_value letters with ⟨s, hs⟩ | broken
      · rw [Letter.eq_whole_of_value hs] at ht
        exact .inr (.inl ⟨_, s, rfl, ht, hs⟩)
      · exact .inr (.inr (.inl broken))
    · exact .inr (.inr (.inr (number_cases h)))
    · exact .inr (.inr (.inr (number_cases h)))

theorem value_cases {fuel : Nat} {cs rest : List Char} {v : Value}
    (h : value fuel cs = .ok (v, rest)) :
    atom cs = .ok (v, rest) ∨
      (∃ body es, cs = '[' :: body ∧ v = .list es ∧
        (es = [] ∨ ∃ fuel, items fuel (skipSpace body) = .ok (es, rest))) ∨
      ∃ es, v = .record (Entries.ofList es) ∧
        (es = [] ∨ ∃ fuel body, entries fuel body = .ok (es, rest)) := by
  cases fuel with
  | zero => cases h
  | succ fuel =>
    unfold value at h
    split at h
    · rename_i body
      split at h
      · cases h
        exact .inr (.inl ⟨body, [], rfl, rfl, .inl rfl⟩)
      · obtain ⟨⟨es, left⟩, he, h⟩ := ok_of_bind h
        cases h
        exact .inr (.inl ⟨body, es, rfl, rfl, .inr ⟨fuel, he⟩⟩)
    · split at h
      · cases h
        exact .inr (.inr ⟨[], rfl, .inl rfl⟩)
      · obtain ⟨⟨es, left⟩, he, h⟩ := ok_of_bind h
        cases h
        exact .inr (.inr ⟨es, rfl, .inr ⟨fuel, _, he⟩⟩)
    · exact .inl h

theorem value_of_read {cs : List Char} {v : Value} (h : read cs = .ok v) :
    ∃ fuel rest, value fuel (skipSpace cs) = .ok (v, rest) ∧ skipSpace rest = [] := by
  rw [read] at h
  cases hd : document cs with
  | error e => rw [hd] at h; cases h
  | ok w =>
    rw [hd] at h
    cases h
    rw [document] at hd
    split at hd
    · cases hd
    · obtain ⟨⟨w, rest⟩, hv, hd⟩ := ok_of_bind hd
      dsimp only at hd
      split at hd
      · rename_i nothing
        cases hd
        exact ⟨_, rest, hv, nothing⟩
      · cases hd

/-- The only word for nothing is that for nothing. -/
theorem eq_null_of_value {fuel : Nat} {cs rest : List Char} (h : value fuel cs = .ok (.none, rest)) :
    cs = "null".toList ++ rest := by
  rcases value_cases h with h | ⟨_, _, -, h, -⟩ | ⟨_, h, -⟩
  · rcases atom_cases h with ⟨word, hm, hcs⟩ | ⟨_, _, -, -, h⟩ | ⟨_, h, -⟩ | ⟨_, h⟩ | ⟨_, h⟩
    · simp only [words, List.mem_cons, Prod.mk.injEq, reduceCtorEq, and_false, List.not_mem_nil,
        or_false, and_true] at hm
      rw [hcs, hm]
    all_goals cases h
  all_goals cases h

/-- What is read as a text begins with a quote. -/
theorem textBody_of_value {fuel : Nat} {cs rest : List Char} {s : String}
    (h : value fuel cs = .ok (.text s, rest)) :
    ∃ body, cs = '"' :: body ∧ textBody cs body = .ok (s.toList.map .whole, rest) := by
  rcases value_cases h with h | ⟨_, _, -, h, -⟩ | ⟨_, h, -⟩
  · rcases atom_cases h with ⟨word, hm, -⟩ | ⟨body, text, hcs, ht, h⟩ | ⟨_, h, -⟩ | ⟨_, h⟩ | ⟨_, h⟩
    · simp [words] at hm
    · cases h
      exact ⟨body, hcs, ht⟩
    all_goals cases h
  all_goals cases h

theorem items_of_value {fuel : Nat} {cs rest : List Char} {es : List Value}
    (h : value fuel cs = .ok (.list es, rest)) :
    ∃ body, cs = '[' :: body ∧
      (es = [] ∨ ∃ fuel, items fuel (skipSpace body) = .ok (es, rest)) := by
  rcases value_cases h with h | ⟨body, es, hcs, h, hi⟩ | ⟨_, h, -⟩
  · rcases atom_cases h with ⟨word, hm, -⟩ | ⟨_, _, -, -, h⟩ | ⟨_, h, -⟩ | ⟨_, h⟩ | ⟨_, h⟩
    · simp [words] at hm
    all_goals cases h
  · cases h
    exact ⟨body, hcs, hi⟩
  · cases h

/-- JSON has no bytes but those of texts that are none. -/
theorem isBroken_of_value {fuel : Nat} {cs rest : List Char} {mutable : Bool} {bs : List UInt8}
    (h : value fuel cs = .ok (.bytes mutable bs, rest)) : IsBroken bs := by
  rcases value_cases h with h | ⟨_, _, -, h, -⟩ | ⟨_, h, -⟩
  · rcases atom_cases h with ⟨word, hm, -⟩ | ⟨_, _, -, -, h⟩ | ⟨_, h, broken⟩ | ⟨_, h⟩ | ⟨_, h⟩
    · simp [words] at hm
    · cases h
    · cases h
      exact broken
    all_goals cases h
  all_goals cases h

/-! ## Lists and records -/

theorem items_cases {fuel : Nat} {cs rest : List Char} {es : List Value}
    (h : items fuel cs = .ok (es, rest)) :
    ∃ less item left, value less cs = .ok (item, left) ∧
      (es = [item] ∧ skipSpace left = ']' :: rest ∨
        ∃ next more, es = item :: more ∧ skipSpace left = ',' :: next ∧
          items less (skipSpace next) = .ok (more, rest)) := by
  cases fuel with
  | zero => cases h
  | succ fuel =>
    unfold items at h
    obtain ⟨⟨item, left⟩, hv, h⟩ := ok_of_bind h
    refine ⟨fuel, item, left, hv, ?_⟩
    dsimp only at h
    split at h
    · rename_i closed
      cases h
      exact .inl ⟨rfl, closed⟩
    · rename_i next comma
      obtain ⟨⟨more, end'⟩, hm, h⟩ := ok_of_bind h
      cases h
      exact .inr ⟨next, more, rfl, comma, hm⟩
    · cases h

theorem isBroken_of_items {fuel : Nat} {cs rest : List Char} {es : List Value}
    (h : items fuel cs = .ok (es, rest)) :
    ∀ e ∈ es, ∀ mutable bs, e = .bytes mutable bs → IsBroken bs := by
  induction es generalizing fuel cs with
  | nil => simp
  | cons e es ih =>
    obtain ⟨less, item, left, hv, ⟨h, -⟩ | ⟨next, more, h, -, hm⟩⟩ := items_cases h
    all_goals
      cases h
      refine List.forall_mem_cons.mpr ⟨fun mutable bs he => isBroken_of_value (he ▸ hv), ?_⟩
    · simp
    · exact ih hm

/-- The keys of a record are names. -/
theorem isName_of_entries {fuel : Nat} {cs rest : List Char} {es : List (Value × Value)}
    (h : entries fuel cs = .ok (es, rest)) : ∀ e ∈ es, IsName e.1 := by
  induction fuel generalizing cs rest es with
  | zero => cases h
  | succ fuel ih =>
    unfold entries at h
    split at h
    · obtain ⟨⟨name, afterName⟩, -, h⟩ := ok_of_bind h
      dsimp only at h
      split at h
      · obtain ⟨⟨v, afterValue⟩, -, h⟩ := ok_of_bind h
        dsimp only at h
        split at h
        · cases h
          exact List.forall_mem_singleton.mpr (isName_value name)
        · obtain ⟨⟨more, left⟩, hm, h⟩ := ok_of_bind h
          cases h
          exact List.forall_mem_cons.mpr ⟨isName_value name, ih hm⟩
        · cases h
      · cases h
    · cases h

theorem isName_of_read {cs : List Char} {es : Entries} (h : read cs = .ok (.record es)) :
    ∃ pairs : List (Value × Value), es = Entries.ofList pairs ∧ ∀ pair ∈ pairs, IsName pair.1 := by
  obtain ⟨fuel, rest, h, -⟩ := value_of_read h
  rcases value_cases h with h | ⟨_, _, -, h, -⟩ | ⟨es, h, he⟩
  · rcases atom_cases h with ⟨word, hm, -⟩ | ⟨_, _, -, -, h⟩ | ⟨_, h, -⟩ | ⟨_, h⟩ | ⟨_, h⟩
    · simp [words] at hm
    all_goals cases h
  · cases h
  · cases h
    rcases he with rfl | ⟨fuel, body, he⟩
    · exact ⟨[], rfl, by simp⟩
    · exact ⟨es, rfl, isName_of_entries he⟩

/-! ## What reading loses -/

/-- The number of characters other than blanks and commas. -/
def mass (cs : List Char) : Nat := cs.countP fun c => !isBlank c && c != ','

theorem mass_cons_of_counts {c : Char} (h : (!isBlank c && c != ',') = true) (cs : List Char) :
    mass (c :: cs) = mass cs + 1 :=
  List.countP_cons_of_pos h

theorem mass_cons_le (c : Char) (cs : List Char) : mass (c :: cs) ≤ mass cs + 1 := by
  unfold mass
  rw [List.countP_cons]
  split <;> omega

theorem mass_le_of_sublist {cs ds : List Char} (h : cs.Sublist ds) : mass cs ≤ mass ds :=
  h.countP_le

theorem mass_skipSpace (cs : List Char) : mass (skipSpace cs) = mass cs := by
  induction cs with
  | nil => rfl
  | cons c cs ih =>
    rw [skipSpace, List.dropWhile_cons]
    split
    · rename_i space
      have blank : isBlank c = true := by
        simp only [isSpace, Bool.or_eq_true, beq_iff_eq] at space
        rcases space with ((h | h) | h) | h <;> subst h <;> decide
      rw [← skipSpace, ih, mass, mass, List.countP_cons_of_neg (by simp [blank])]
    · rfl

theorem mass_append (cs ds : List Char) : mass (cs ++ ds) = mass cs + mass ds :=
  List.countP_append

theorem mass_cons (c : Char) (cs : List Char) : mass (c :: cs) = mass [c] + mass cs :=
  mass_append [c] cs

/-- The quote at the end of a text is lost, and an escape counts at least as much as its character. -/
theorem mass_of_textBody {start cs rest : List Char} {body : List Letter}
    (h : textBody start cs = .ok (body, rest)) :
    mass (body.filterMap Letter.char?) + mass rest < mass cs := by
  fun_induction textBody start cs generalizing body rest with
  | case1 => cases h
  | case2 cs =>
    cases h
    rw [mass_cons_of_counts (by decide)]
    exact Nat.lt_succ_of_le (Nat.le_of_eq (Nat.zero_add _))
  | case3 => cases h
  | case4 cs letter width _ _ ih =>
    obtain ⟨⟨more, left⟩, hm, h⟩ := ok_of_bind h
    cases h
    have tail := ih hm
    have dropped := mass_le_of_sublist (List.drop_sublist width cs)
    have first : mass ((letter :: more).filterMap Letter.char?) ≤
        mass (more.filterMap Letter.char?) + 1 := by
      cases letter with
      | half place => exact Nat.le_succ _
      | whole c => exact mass_cons_le c _
    rw [mass_cons_of_counts (c := '\\') (by decide)]
    omega
  | case5 => cases h
  | case6 c cs _ _ _ ih =>
    obtain ⟨⟨more, left⟩, hm, h⟩ := ok_of_bind h
    cases h
    have tail := ih hm
    rw [List.filterMap_cons_some (by rfl : Letter.char? (.whole c) = some c),
      mass_cons c (more.filterMap Letter.char?), mass_cons c cs]
    omega

theorem mass_of_value {fuel : Nat} {cs rest : List Char} {s : String}
    (h : value fuel cs = .ok (.text s, rest)) : mass s.toList + mass rest < mass cs := by
  obtain ⟨body, rfl, ht⟩ := textBody_of_value h
  have lost := mass_of_textBody ht
  rw [Letter.filterMap_whole] at lost
  rw [mass_cons_of_counts (by decide)]
  exact Nat.lt_succ_of_lt lost

theorem mass_of_items {fuel : Nat} {cs rest : List Char} {texts : List String}
    (h : items fuel cs = .ok (texts.map .text, rest)) :
    mass (texts.flatMap String.toList) + mass rest < mass cs := by
  induction texts generalizing fuel cs with
  | nil =>
    obtain ⟨less, item, left, -, ⟨h, -⟩ | ⟨next, more, h, -⟩⟩ := items_cases h <;> cases h
  | cons s texts ih =>
    obtain ⟨less, item, left, hv, ⟨h, closed⟩ | ⟨next, more, h, comma, hm⟩⟩ := items_cases h
    · simp only [List.map_cons, List.cons.injEq, List.map_eq_nil_iff] at h
      obtain ⟨rfl, rfl⟩ := h
      have first := mass_of_value hv
      have left := mass_skipSpace left
      rw [closed, mass_cons_of_counts (by decide)] at left
      rw [List.flatMap_singleton]
      omega
    · simp only [List.map_cons, List.cons.injEq] at h
      obtain ⟨rfl, rfl⟩ := h
      have first := mass_of_value hv
      have tail := ih hm
      have left := mass_skipSpace left
      rw [comma] at left
      have next' := mass_skipSpace next
      have passed := mass_le_of_sublist (List.sublist_cons_self ',' next)
      rw [List.flatMap_cons, mass_append]
      omega

end RequestLocale.Json
