import RequestLocale.Context.Exchange
import RequestLocale.Proofs.LowerCase
import RequestLocale.Proofs.Parts
import RequestLocale.Proofs.PercentCoding
import RequestLocale.Proofs.TableHistory

/-! # Cookies come back as they were set

A client keeps what stands before the first semicolon of a header that sets a cookie, and brings it
back among its other cookies. The value in between is in percent coding: it has only characters that
may stand in a name, so it is never quoted, and neither a semicolon nor a blank can end it early.
The empty value is the one exception, and is written as a pair of quotes. -/
namespace RequestLocale.Http.Cookie

open Text

/-! ## Names and their characters -/

theorem ne_of_isNameChar {c d : Char} (h : isNameChar c = true) (hd : isNameChar d = false) :
    c ≠ d := by
  rintro rfl
  rw [h] at hd
  cases hd

theorem lt_of_isNameChar {c : Char} (h : isNameChar c = true) : c.toNat < 128 := by
  simp only [isNameChar, Bool.or_eq_true, Bool.and_eq_true, decide_eq_true_eq] at h
  rcases h with ((h | h) | h) | h
  · exact Nat.lt_of_le_of_lt (show c.toNat ≤ 122 from h.2) (by decide)
  · exact Nat.lt_of_le_of_lt (show c.toNat ≤ 90 from h.2) (by decide)
  · exact Nat.lt_of_le_of_lt (show c.toNat ≤ 57 from h.2) (by decide)
  · have marks : "!#$%&\x27*+-.^_\x60|~:".toList.all (·.toNat < 128) = true := by decide
    exact of_decide_eq_true (List.all_eq_true.mp marks c (List.contains_iff_mem.mp h))

/-- What is to be known of the characters of names is seen by looking at all of ASCII. -/
theorem forall_of_isNameChar (p : Char → Prop)
    (h : ∀ n : Fin 128, isNameChar (Char.ofNat n) = true → p (Char.ofNat n)) {c : Char}
    (hc : isNameChar c = true) : p c :=
  forall_of_ascii (fun c => isNameChar c = true → p c) h (lt_of_isNameChar hc) hc

theorem isBlank_of_isNameChar {c : Char} (h : isNameChar c = true) : isBlank c = false :=
  forall_of_isNameChar (isBlank · = false) (by decide +kernel) h

/-- A name that a cookie may have. -/
structure IsLegalName (name : String) : Prop where
  ne_empty : name ≠ ""
  chars : ∀ c ∈ name.toList, isNameChar c = true
  free : lowered name ∉ reservedNames

theorem checkName_eq_ok_iff {name : String} : checkName name = .ok () ↔ IsLegalName name := by
  unfold checkName
  constructor
  · intro h
    split at h
    · cases h
    · rename_i free
      split at h
      · cases h
      · rename_i spelled
        simp only [Bool.or_eq_true, Bool.not_eq_true', not_or, Bool.not_eq_false] at spelled
        exact ⟨by simpa using spelled.1, List.all_eq_true.mp spelled.2, by simpa using free⟩
  · intro legal
    have chars : name.toList.all isNameChar = true := List.all_eq_true.mpr legal.chars
    simp [chars, legal.free, legal.ne_empty]

/-- A refusal says what is wrong with the name, and names it. -/
theorem checkName_eq_error {name : String} {refusal : Error} (h : checkName name = .error refusal) :
    (refusal = .reserved name ∧ lowered name ∈ reservedNames) ∨
      (refusal = .illegal name ∧ (name = "" ∨ ∃ c ∈ name.toList, isNameChar c = false)) := by
  unfold checkName at h
  split at h
  · rename_i taken
    cases h
    exact .inl ⟨rfl, by simpa using taken⟩
  · split at h
    · rename_i spelled
      cases h
      simp only [Bool.or_eq_true, Bool.not_eq_true', String.isEmpty_iff] at spelled
      refine .inr ⟨rfl, spelled.imp_right fun unlike => ?_⟩
      simpa using unlike
    · cases h

theorem isNameChar_of_checkName {name : String} (h : checkName name = .ok ()) {c : Char}
    (hc : c ∈ name.toList) : isNameChar c = true :=
  (checkName_eq_ok_iff.mp h).chars c hc

/-! ## What a request brings -/

/-- Name and value of one cookie as they stand between semicolons, the value as it is written. -/
def fields (cookie : List Char) : String × List Char :=
  let (name, value) := (cut? '=' cookie).getD ([], cookie)
  (String.ofList (trim name), trim value)

/-- The cookies that a request brings, in the order of its headers. -/
def brought (headers : Headers) : List (String × List Char) :=
  (headers.all "cookie").flatMap fun text => (split ';' text.toList).map fields

/-- The value that is read from a written value. -/
def readValue (written : List Char) : String := String.ofList (Percent.decode (unquote written))

/-- A part of a header as it is read. -/
def ofFields? (c : String × List Char) : Option (List Char × List Char) :=
  if c.1 = "" ∧ c.2 = [] then none else some (c.1.toList, unquote c.2)

theorem part?_eq (cookie : List Char) : part? cookie = ofFields? (fields cookie) := by
  simp [part?, ofFields?, fields]

theorem filter_ofFields? {name : String} (h : name ≠ "") (cookies : List (String × List Char)) :
    ((cookies.filterMap ofFields?).filter (·.1 == name.toList)).map (·.2) =
      (cookies.filter (·.1 == name)).map fun c => unquote c.2 := by
  induction cookies with
  | nil => rfl
  | cons c cookies ih =>
    by_cases hc : c.1 = name
    · have hs : ofFields? c = some (name.toList, unquote c.2) := by
        rw [ofFields?, if_neg (fun he => h (hc ▸ he.1)), hc]
      simp [hs, hc, ih]
    · rw [List.filter_cons_of_neg (by simpa using hc), ← ih, List.filterMap_cons]
      by_cases he : c.1 = "" ∧ c.2 = []
      · simp [ofFields?, he]
      · have other : (c.1.toList == name.toList) = false := by
          simpa [String.toList_inj] using hc
        simp [ofFields?, he, other]

/-- A cookie is read from what is brought last under its name. -/
theorem value?_eq {name : String} (h : name ≠ "") (headers : Headers) :
    value? headers name = (Table.lastUnder (brought headers) name).map readValue := by
  have parsed : (headers.all "cookie").flatMap parse = (brought headers).filterMap ofFields? := by
    simp only [brought, List.filterMap_flatMap, List.filterMap_map]
    refine List.flatMap_congr fun text _ => List.filterMap_congr fun cookie _ => ?_
    exact part?_eq cookie
  rw [value?, raw?, parsed, ← List.getLast?_map, filter_ofFields? h, List.getLast?_map,
    Table.lastUnder]
  simp [Option.map_map, Function.comp_def, readValue]

/-! ## What a client sends -/

/-- The header in which a client brings cookies. -/
def header (cookies : List (List Char)) : String := String.ofList (join [';', ' '] cookies)

/-- The blank after a semicolon belongs to no cookie. -/
theorem fields_blank (cookie : List Char) : fields (' ' :: cookie) = fields cookie := by
  have blank (cs : List Char) : trim (' ' :: cs) = trim cs := by
    rw [trim, trimStart, List.dropWhile_cons_of_pos (by decide), ← trimStart, ← trim]
  have cut : cut? '=' (' ' :: cookie) =
      (cut? '=' cookie).map fun (before, rest) => (' ' :: before, rest) := by
    rw [cut?, if_neg (by decide)]
  rw [fields, fields, cut]
  cases cut? '=' cookie <;> simp [blank]

theorem fields_split_join {first : List Char} {rest : List (List Char)} (hf : ';' ∉ first)
    (hr : ∀ cookie ∈ rest, ';' ∉ cookie) :
    (split ';' (join [';', ' '] (first :: rest))).map fields = (first :: rest).map fields := by
  induction rest generalizing first with
  | nil => rw [join, split_of_not_mem hf]
  | cons second rest ih =>
    obtain ⟨hs, hr⟩ := List.forall_mem_cons.mp hr
    -- The blank that joins two cookies goes over to the second one.
    have blank : ' ' :: join [';', ' '] (second :: rest) =
        join [';', ' '] ((' ' :: second) :: rest) := by
      cases rest <;> rfl
    have hs : ';' ∉ ' ' :: second := by simpa using hs
    have next := ih hs hr
    rw [join, List.append_assoc]
    · show (split ';' (first ++ ';' :: ' ' :: join [';', ' '] (second :: rest))).map fields = _
      rw [split_append hf, blank, List.map_cons, next, List.map_cons, List.map_cons,
        List.map_cons, fields_blank]
    · simp

/-- Of a header that a client has made all its cookies are read, in their order. -/
theorem brought_header {cookies : List (List Char)} (hne : cookies ≠ [])
    (h : ∀ cookie ∈ cookies, ';' ∉ cookie) :
    brought [("cookie", header cookies)] = cookies.map fields := by
  obtain ⟨first, rest, rfl⟩ := List.exists_cons_of_ne_nil hne
  obtain ⟨hf, hr⟩ := List.forall_mem_cons.mp h
  simpa [brought, Headers.all, header] using fields_split_join hf hr

theorem brought_append (earlier later : Headers) :
    brought (earlier ++ later) = brought earlier ++ brought later := by
  simp [brought, Headers.all]

/-! ## What a response sets -/

/-- Name and value of the cookie that a header sets. -/
def fieldsSet (text : String) : String × List Char := fields (cut ';' text.toList).1

/-- The value of a cookie as it is written. -/
def Write.written (w : Write) : List Char :=
  if (Percent.encode w.value.toList).isEmpty then ['"', '"'] else Percent.encode w.value.toList

theorem Write.pair_eq (w : Write) : w.pair = w.name.toList ++ '=' :: w.written := rfl

theorem isNameChar_of_mem_encode {cs : List Char} {c : Char} (h : c ∈ Percent.encode cs) :
    isNameChar c = true :=
  Percent.forall_mem_encode (by decide +kernel) h

theorem isNameChar_of_mem_written {w : Write} {c : Char} (h : c ∈ w.written) :
    isNameChar c = true ∨ c = '"' := by
  unfold Write.written at h
  split at h
  · exact .inr (by simpa using h)
  · exact .inl (isNameChar_of_mem_encode h)

/-- A character of a name, or one of the marks around names and values. -/
def isPartChar (c : Char) : Bool := isNameChar c || " =/\"".toList.contains c

theorem isPartChar_of_isNameChar {c : Char} (h : isNameChar c = true) : isPartChar c = true := by
  simp [isPartChar, h]

theorem isPartChar_of_mem_pair {w : Write} (h : checkName w.name = .ok ()) {c : Char}
    (hc : c ∈ w.pair) : isPartChar c = true := by
  rw [Write.pair_eq, List.mem_append, List.mem_cons] at hc
  rcases hc with hc | rfl | hc
  · exact isPartChar_of_isNameChar (isNameChar_of_checkName h hc)
  · decide
  · rcases isNameChar_of_mem_written hc with hc | rfl
    · exact isPartChar_of_isNameChar hc
    · decide

theorem Write.attributes_toList (w : Write) : ∃ rest, w.attributes.toList = ';' :: rest := by
  unfold Write.attributes
  cases w.httpOnly with
  | true => exact ⟨_, by simp [String.toList_append]; rfl⟩
  | false => exact ⟨_, by simp [String.toList_append]; rfl⟩

/-- The header that sets a cookie names it and gives its written value. -/
theorem fieldsSet_text {w : Write} (h : checkName w.name = .ok ()) :
    fieldsSet w.text = (w.name, w.written) := by
  obtain ⟨rest, hrest⟩ := w.attributes_toList
  have semicolon : ';' ∉ w.pair := fun hm => absurd (isPartChar_of_mem_pair h hm) (by decide)
  have equals : '=' ∉ w.name.toList := fun hm =>
    ne_of_isNameChar (isNameChar_of_checkName h hm) (by decide) rfl
  have name : trim w.name.toList = w.name.toList :=
    trim_of_forall fun c hc => isBlank_of_isNameChar (isNameChar_of_checkName h hc)
  have value : trim w.written = w.written := by
    refine trim_of_forall fun c hc => ?_
    rcases isNameChar_of_mem_written hc with hc | rfl
    · exact isBlank_of_isNameChar hc
    · decide
  have first : (cut ';' w.text.toList).1 = w.pair := by
    rw [cut, Write.text, String.toList_append, String.toList_ofList, hrest, cut?_append semicolon]
    rfl
  rw [fieldsSet, first, Write.pair_eq, fields, cut?_append equals]
  simp [name, value]

/-- A written value gives back the value. -/
theorem readValue_written (w : Write) : readValue w.written = w.value := by
  unfold readValue Write.written
  cases hc : Percent.encode w.value.toList with
  | nil =>
    have empty : w.value = "" := String.toList_inj.mp (Percent.encode_eq_nil hc)
    rw [empty]
    decide +kernel
  | cons c cs =>
    have quote : c ≠ '"' := ne_of_isNameChar
      (isNameChar_of_mem_encode (hc ▸ List.mem_cons_self)) (by decide)
    have plain : unquote (c :: cs) = c :: cs := by
      unfold unquote
      split
      · rename_i he
        exact absurd (List.cons.inj he).1 quote
      · rfl
    show String.ofList (Percent.decode (unquote (c :: cs))) = w.value
    rw [plain, ← hc, Percent.decode_encode, String.ofList_toList]

end RequestLocale.Http.Cookie

namespace RequestLocale.Exchange

open Http.Cookie

theorem setCookie_eq (e : Exchange) (w : Write) :
    e.setCookie w = w.check.map fun _ => { e with pending := e.pending.insert w.name w.text } := by
  rw [setCookie, Write.text?]
  cases w.check <;> rfl

/-- A cookie is set if its name is legal and its life can be written. -/
theorem exists_setCookie_iff {e : Exchange} {w : Write} :
    (∃ after, e.setCookie w = .ok after) ↔
      IsLegalName w.name ∧ Numeral.exceedsDigitLimit w.maxAge = false := by
  rw [← checkName_eq_ok_iff, ← Write.check_eq_ok_iff, setCookie_eq]
  cases w.check <;> simp [Except.map]

/-- **A cookie comes back as it was set**, wherever it stands among cookies of other names. It is set
unless its name is not legal or its life has too many digits, and nothing else can be wrong with
it. -/
theorem cookie?_returned (e : Exchange) (w : Write) :
    ((∃ after, e.setCookie w = .ok after) ↔
        IsLegalName w.name ∧ Numeral.exceedsDigitLimit w.maxAge = false) ∧
      ∀ after, e.setCookie w = .ok after →
        ∃ text, after.pending.get? w.name = some text ∧
          ∀ (next : Exchange) (before behind : List (String × List Char)),
            brought next.headers = before ++ fieldsSet text :: behind →
            (∀ other ∈ before ++ behind, other.1 ≠ w.name) →
            next.cookie? w.name = some w.value := by
  refine ⟨exists_setCookie_iff, fun after set => ⟨w.text, ?_, ?_⟩⟩
  · rw [pending_setCookie set, Table.get?_insert, if_pos rfl]
  intro next before behind hb others
  have legal := (exists_setCookie_iff.mp ⟨after, set⟩).1
  have h := checkName_eq_ok_iff.mpr legal
  have last : Table.lastUnder (brought next.headers) w.name = some w.written := by
    rw [fieldsSet_text h] at hb
    rw [hb]
    refine Table.lastUnder_eq_some (List.mem_append_right _ List.mem_cons_self) fun c hc hn => ?_
    rcases List.mem_append.mp hc with hc | hc
    · exact absurd hn (others c (List.mem_append_left _ hc))
    · rcases List.mem_cons.mp hc with rfl | hc
      · rfl
      · exact absurd hn (others c (List.mem_append_right _ hc))
  rw [cookie?, value?_eq legal.ne_empty, last, Option.map_some, readValue_written]

/-- A value of which hardly anything may stand in a header. -/
def unruly : Write := ⟨"locale", "a;b=\"%20\"\né", 0, true⟩

theorem unruly_returned :
    ∃ after, (ofRequest "" []).setCookie unruly = .ok after ∧
      after.pending.get? "locale" = some
        "locale=a%3Bb%3D%22%2520%22%0A%C3%A9; HttpOnly; Max-Age=0; Path=/; SameSite=lax" ∧
      (ofRequest "" [("cookie", "x=locale=; locale=a%3Bb%3D%22%2520%22%0A%C3%A9;y")]).cookie?
        "locale" = some "a;b=\"%20\"\né" := by
  obtain ⟨sets, returned⟩ := cookie?_returned (ofRequest "" []) unruly
  have legal : IsLegalName unruly.name := checkName_eq_ok_iff.mp rfl
  obtain ⟨after, hset⟩ := sets.mpr ⟨legal, by decide +kernel⟩
  obtain ⟨text, htext, back⟩ := returned after hset
  have written : text =
      "locale=a%3Bb%3D%22%2520%22%0A%C3%A9; HttpOnly; Max-Age=0; Path=/; SameSite=lax" := by
    rw [pending_setCookie hset, Table.get?_insert, if_pos rfl] at htext
    rw [← Option.some.inj htext]
    decide +kernel
  subst written
  refine ⟨after, hset, htext, ?_⟩
  exact back (ofRequest "" [("cookie", "x=locale=; locale=a%3Bb%3D%22%2520%22%0A%C3%A9;y")])
    [("x", "locale=".toList)] [("", ['y'])] (by decide +kernel) (by decide)

end RequestLocale.Exchange
