import RequestLocale.Proofs.NamedPlaceholders

/-! # What may stand before a placeholder

A placeholder behind a text in which every opening brace is closed should be filled, whatever the
text. It is, but for one thing: a name may begin with a closing brace, so an empty pair of braces
that is met by the scan takes everything up to the next closing brace of its line for its name. If
no such brace comes in the text itself, the next one is that of the placeholder behind it
(`Named.fillsAfter_iff`). -/
namespace RequestLocale.Template.Named

/-- Every opening brace has a closing one somewhere behind it. -/
def IsBalanced (text : List Char) : Prop :=
  ∀ before after, text = before ++ '{' :: after → '}' ∈ after

theorem isBalanced_nil : IsBalanced [] := by
  intro before after h
  cases before <;> cases h

theorem isBalanced_cons {c : Char} {text : List Char} :
    IsBalanced (c :: text) ↔ (c = '{' → '}' ∈ text) ∧ IsBalanced text := by
  constructor
  · intro h
    refine ⟨?_, fun before after ht => h (c :: before) after (congrArg (c :: ·) ht)⟩
    rintro rfl
    exact h [] text rfl
  · rintro ⟨closed, h⟩ before after ht
    cases before with
    | nil =>
      obtain ⟨rfl, rfl⟩ := List.cons.inj ht
      exact closed rfl
    | cons d before => exact h before after (List.cons.inj ht).2

/-- A name without braces on one line. -/
structure IsName (name : List Char) : Prop where
  ne_nil : name ≠ []
  unopened : '{' ∉ name
  unclosed : '}' ∉ name
  oneLine : '\n' ∉ name

/-- Every placeholder behind the text is filled, and divides the text from what follows. -/
def FillsAfter (text : List Char) : Prop :=
  ∀ name rest values v, IsName name → valueUnder? values name = some v → v.IsPutIn →
    format (text ++ '{' :: (name ++ '}' :: rest)) values =
      (do
        let before ← format text values
        let shown ← v.plain?
        let after ← format rest values
        return before ++ shown ++ after)

/-- The scan meets an empty pair of braces that no closing brace of its line follows. -/
def LeavesEmptyPair (text : List Char) : Prop :=
  ∃ front back after, Divides IsPlaceholder text (front ++ .plain '{' :: back) ∧
    spelled back = '}' :: after ∧ '}' ∉ after ∧ '\n' ∉ after

/-- What a placeholder holds before its last character is a brace and a beginning of its name. -/
theorem name_of_goes_on {name before after : List Char} {c : Char}
    (hs : IsPlaceholder name (c :: (before ++ after))) (more : after ≠ []) :
    c = '{' ∧ ∃ rest, name = before ++ rest := by
  obtain ⟨init, last, rfl⟩ := (List.eq_nil_or_concat after).resolve_left more
  rw [List.concat_eq_append] at hs
  generalize hw : c :: (before ++ (init ++ [last])) = source at hs
  cases hs
  obtain ⟨hc, inner⟩ := List.cons.inj hw
  rw [← List.append_assoc] at inner
  exact ⟨hc, init, (List.append_inj' inner rfl).1.symm⟩

theorem IsPlaceholder.oneLine {name source : List Char} (h : IsPlaceholder name source) :
    '\n' ∉ name := by
  cases h
  assumption

theorem IsPlaceholder.nearest {name source : List Char} (h : IsPlaceholder name source) :
    '}' ∉ name.tail := by
  cases h
  assumption

/-- Where a placeholder begins in a balanced text and goes on behind it, an empty pair is left. -/
theorem leavesEmptyPair_of_begins {text next : List Char}
    {row front back : List (Piece (List Char))} {c : Char} (balanced : IsBalanced text)
    (h : Divides IsPlaceholder text row) (hr : row = front ++ .plain c :: back)
    {name source : List Char} (hs : IsPlaceholder name source)
    (begins : source <+: c :: (spelled back ++ next)) :
    LeavesEmptyPair text := by
  rcases ends_or_goes_on (c :: spelled back) begins with within | ⟨after, more, rfl, _⟩
  · exact absurd within (h.leftmost front c back hr name source hs)
  · obtain ⟨rfl, rest, rfl⟩ := name_of_goes_on hs more
    have spells : text = spelled front ++ '{' :: spelled back := by
      rw [← h.spells, hr, spelled_append, spelled_plain]
    have closed := balanced _ _ spells
    have oneLine := hs.oneLine
    have nearest := hs.nearest
    rw [hr] at h
    cases hb : spelled back with
    | nil =>
      rw [hb] at closed
      cases closed
    | cons d tail =>
      rw [hb] at closed oneLine nearest
      rw [List.cons_append, List.tail_cons, List.mem_append, not_or] at nearest
      obtain rfl : '}' = d := (List.mem_cons.mp closed).resolve_right nearest.1
      rw [List.cons_append, List.mem_cons, List.mem_append, not_or, not_or] at oneLine
      exact ⟨front, back, tail, h, hb, nearest.1, oneLine.2.1⟩

theorem fillsAfter {text : List Char} (balanced : IsBalanced text) (h : ¬ LeavesEmptyPair text) :
    FillsAfter text := by
  intro name rest values v hn under put
  have hs := IsPlaceholder.mk hn.ne_nil hn.oneLine fun hm => hn.unclosed (List.mem_of_mem_tail hm)
  have divides := (finds.divides text).append ((finds.divides rest).slot hs)
    fun _ _ _ hr _ _ hs begins =>
      h (leavesEmptyPair_of_begins balanced (finds.divides text) hr hs begins)
  have spells : '{' :: (name ++ '}' :: rest) = '{' :: (name ++ ['}']) ++ rest := by simp
  unfold format
  rw [spells, ← finds.eq_pieces divides, fill_append, fill_slot, textOf_of_isPutIn under put]
  cases fill (textOf values) (pieces slotAt text) with
  | error e => rfl
  | ok before =>
    cases v.plain? with
    | error e => rfl
    | ok shown =>
      cases fill (textOf values) (pieces slotAt rest) with
      | error e => rfl
      | ok after => exact congrArg Except.ok (List.append_assoc before shown after).symm

/-! ## Behind an empty pair -/

/-- A name behind an empty pair of braces, with what stands between them. -/
def hiddenName (after : List Char) : List Char := '}' :: (after ++ ['{', 'a'])

/-- One value, under another name. -/
def oneEntry : Entries := [(.text "a", .text "x")]

/-- The scan takes the empty pair together with the placeholder behind it. -/
theorem divides_hidden {text after : List Char} {front back : List (Piece (List Char))}
    (h : Divides IsPlaceholder text (front ++ .plain '{' :: back))
    (hb : spelled back = '}' :: after) (unclosed : '}' ∉ after) (oneLine : '\n' ∉ after) :
    Divides IsPlaceholder (text ++ ['{', 'a', '}'])
      (front ++ [.slot (hiddenName after) ('{' :: (hiddenName after ++ ['}']))]) := by
  have hs : IsPlaceholder (hiddenName after) ('{' :: (hiddenName after ++ ['}'])) :=
    .mk (List.cons_ne_nil _ _) (by simp [hiddenName, oneLine]) (by simp [hiddenName, unclosed])
  have spells : text ++ ['{', 'a', '}'] =
      spelled front ++ ('{' :: (hiddenName after ++ ['}']) ++ []) := by
    rw [← h.spells, spelled_append, spelled_plain, hb]
    simp [hiddenName]
  rw [spells]
  refine h.front.append (Divides.nil.slot hs) fun start c rest hr name source hn begins => ?_
  -- a placeholder that begins before the empty pair ends with it at the latest
  have pair : '{' :: (hiddenName after ++ ['}']) ++ [] =
      ['{', '}'] ++ (after ++ ['{', 'a', '}']) := by
    simp [hiddenName]
  rw [pair, ← List.append_assoc] at begins
  have whole : front ++ .plain '{' :: back = start ++ .plain c :: (rest ++ .plain '{' :: back) := by
    rw [hr, List.append_assoc, List.cons_append]
  rcases ends_or_goes_on (c :: (spelled rest ++ ['{', '}'])) begins with
    within | ⟨more, some, rfl, _⟩
  · refine h.leftmost start c _ whole name source hn (within.trans ?_)
    rw [spelled_append, spelled_plain, hb]
    exact ⟨after, by simp⟩
  · obtain ⟨_, last, rfl⟩ := name_of_goes_on hn some
    apply hn.nearest
    cases spelled rest <;> simp

theorem textOf_hiddenName (after : List Char) : textOf oneEntry (hiddenName after) = .ok none := by
  have other : String.ofList (hiddenName after) ≠ "a" := by
    intro same
    have characters := congrArg String.toList same
    rw [String.toList_ofList] at characters
    exact absurd (List.cons.inj characters).1 (by decide)
  have missing : oneEntry.find? (String.ofList (hiddenName after)) = none :=
    if_neg fun same => other (beq_iff_eq.mp same).symm
  rw [textOf, missing]

theorem exists_textOf_oneEntry (name : List Char) : ∃ text, textOf oneEntry name = .ok text := by
  rw [textOf_eq_nameText]
  · refine exists_nameText (fun entry hm => ?_) name
    rw [List.mem_singleton.mp hm]
    rfl
  · intro entry hm
    rw [List.mem_singleton.mp hm]
    intro negative payload h
    cases h

theorem not_fillsAfter {text : List Char} (h : LeavesEmptyPair text) : ¬ FillsAfter text := by
  obtain ⟨front, back, after, divides, hb, unclosed, oneLine⟩ := h
  intro fills
  have name : IsName ['a'] := ⟨by decide, by decide, by decide, by decide⟩
  have put : (Value.text "x").IsPutIn :=
    ⟨fun h => (by cases h), fun _ h => (by cases h), rfl, .inl rfl⟩
  have filled := fills ['a'] [] oneEntry (.text "x") name rfl put
  obtain ⟨before, hf⟩ := exists_fill front fun {label source} _ =>
    exists_textOf_oneEntry label
  have kept : format (text ++ ['{', 'a', '}']) oneEntry =
      .ok (before ++ ('{' :: (hiddenName after ++ ['}']) ++ [])) := by
    rw [format, ← finds.eq_pieces (divides_hidden divides hb unclosed oneLine), fill_append, hf,
      fill_slot, textOf_hiddenName]
    rfl
  have nothing : format [] oneEntry = .ok [] := by
    rw [format, pieces]
    rfl
  have same := kept.symm.trans filled
  rw [nothing] at same
  cases hp : format text oneEntry with
  | error e =>
    rw [hp] at same
    cases same
  | ok first =>
    -- one text ends with a brace, and the other one with what is under the name
    rw [hp] at same
    have last := congrArg List.getLast? (Except.ok.inj same)
    rw [List.append_nil, ← List.cons_append, ← List.append_assoc, List.getLast?_concat] at last
    simp [Value.plain_text] at last

/-- **Where placeholders are filled.** Behind a balanced text every placeholder is filled exactly
if the scan of that text does not leave an empty pair of braces open at its end. -/
theorem fillsAfter_iff {text : List Char} (balanced : IsBalanced text) :
    FillsAfter text ↔ ¬ LeavesEmptyPair text :=
  ⟨fun fills left => not_fillsAfter left fills, fillsAfter balanced⟩

theorem fillsAfter_endedLine :
    IsBalanced ['{', '}', '\n', '{', 'b', '}'] ∧ FillsAfter ['{', '}', '\n', '{', 'b', '}'] := by
  have balanced : IsBalanced ['{', '}', '\n', '{', 'b', '}'] := by
    simp [isBalanced_cons, isBalanced_nil]
  refine ⟨balanced, (fillsAfter_iff balanced).mpr ?_⟩
  rintro ⟨front, back, after, h, hb, unclosed, _⟩
  have row : front ++ .plain '{' :: back =
      [.plain '{', .plain '}', .plain '\n', .slot ['b'] ['{', 'b', '}']] :=
    (finds.eq_pieces h).trans (by decide +kernel)
  cases front with
  | nil =>
    obtain rfl := (List.cons.inj row).2
    obtain rfl : _ = after := (List.cons.inj hb).2
    exact absurd unclosed (by decide)
  | cons p front =>
    have rest : front ++ .plain '{' :: back =
        [.plain '}', .plain '\n', .slot ['b'] ['{', 'b', '}']] := (List.cons.inj row).2
    have met : .plain '{' ∈ front ++ .plain '{' :: back :=
      List.mem_append_right front List.mem_cons_self
    rw [rest] at met
    simp at met

theorem emptyPair_hides :
    IsBalanced ['{', '}'] ∧ ¬ FillsAfter ['{', '}'] ∧
      format ['{', '}', '{', 'a', '}'] [(.text "a", .int 1)] = .ok ['{', '}', '{', 'a', '}'] := by
  have divides : Divides IsPlaceholder ['{', '}'] ([] ++ .plain '{' :: [.plain '}']) :=
    finds.divides_iff.mpr (by decide +kernel)
  refine ⟨by simp [isBalanced_cons, isBalanced_nil], ?_, ?_⟩
  · exact not_fillsAfter ⟨[], [.plain '}'], [], divides, rfl, by decide, by decide⟩
  · have row : pieces slotAt ['{', '}', '{', 'a', '}'] =
        [.slot ['}', '{', 'a'] ['{', '}', '{', 'a', '}']] := by decide +kernel
    rw [format, row]
    rfl

end RequestLocale.Template.Named
