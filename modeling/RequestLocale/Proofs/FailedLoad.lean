import RequestLocale.Proofs.HexNumber
import RequestLocale.Proofs.PercentCoding
import RequestLocale.Proofs.ResourceListing

/-! # Loads that fail

A file is faulty if the system, the decoder or the parser refuses it or if its value is no record.
A load is to fail as the first faulty file does, and only then, and to leave the loader as it was:
this is `Loader.FailsCleanly`. Two things stand in the way. A file with a whole number that has too
many digits to be written is not faulty, but ends the load as well, with a failure that names no
file; and so does the system, where it does not let a directory be listed or a name be looked at.
`Loader.failsCleanly_iff` says that such hindrances before the first faulty file are all that can
break the law. -/
namespace RequestLocale.Resource

open Text.Utf8 (encode)

/-! ## The first of its kind in a list -/

/-- Of two places in a list, what stands before the one that is not behind the other stands before
the other, too. -/
theorem prefix_of_split {α : Type} {before before' after after' : List α} {a b : α}
    (h : before ++ a :: after = before' ++ b :: after') (hb : b ∉ before) :
    ∀ x ∈ before, x ∈ before' := by
  intro x hx
  rcases List.append_eq_append_iff.mp h with ⟨between, rfl, -⟩ | ⟨between, rfl, later⟩
  · exact List.mem_append_left _ hx
  · cases between with
    | nil => simpa using hx
    | cons c between =>
      cases later
      simp at hb

theorem exists_first {α : Type} {p : α → Prop} {l : List α} {a : α} (hm : a ∈ l) (ha : p a) :
    ∃ before b after, l = before ++ b :: after ∧ (∀ x ∈ before, ¬ p x) ∧ p b := by
  classical
  have found : (l.find? fun x => decide (p x)).isSome := by
    rw [List.find?_isSome]
    exact ⟨a, hm, by simpa using ha⟩
  obtain ⟨b, hb⟩ := Option.isSome_iff_exists.mp found
  obtain ⟨hp, before, after, split, none⟩ := List.find?_eq_some_iff_append.mp hb
  exact ⟨before, b, after, split, fun x hx => by simpa using none x hx, by simpa using hp⟩

/-! ## Faults -/

/-- What is wrong with a file that holds no record. -/
inductive Source.Faulty (s : Source) : FileFault → Prop
  | barred {reason : String} (h : s.content = .error reason) : s.Faulty (.system reason)
  | undecodable {bytes : List UInt8} {fault : FileFault} (read : s.content = .ok bytes)
      (h : decode s.format bytes = .error fault) : s.Faulty fault
  | unparsable {bytes : List UInt8} {text : List Char} {fault : FileFault}
      (read : s.content = .ok bytes) (decoded : decode s.format bytes = .ok text)
      (h : parse s.format text = .error fault) : s.Faulty fault
  | shapeless {bytes : List UInt8} {text : List Char} {value : Value}
      (read : s.content = .ok bytes) (decoded : decode s.format bytes = .ok text)
      (parsed : parse s.format text = .ok value) (something : value ≠ .none)
      (h : ∀ entries, value ≠ .record entries) : s.Faulty (.shape value.kindName)

theorem entriesOf_eq_error {value : Value} {fault : FileFault} :
    entriesOf value = .error fault ↔
      value ≠ .none ∧ (∀ entries, value ≠ .record entries) ∧ fault = .shape value.kindName := by
  cases value <;> simp [entriesOf, eq_comm]

theorem bind_eq_error {α β ε : Type} {r : Except ε α} {f : α → Except ε β} {e : ε} :
    r.bind f = .error e ↔ r = .error e ∨ ∃ a, r = .ok a ∧ f a = .error e := by
  cases r <;> simp [Except.bind]

/-- Reading a record refuses a file exactly for what is wrong with it. -/
theorem Source.readRecord_eq_error {s : Source} {fault : FileFault} :
    readRecord s.format s.content = .error fault ↔ s.Faulty fault := by
  cases read : s.content with
  | error reason =>
    constructor
    · intro h
      cases h
      exact .barred read
    · intro h
      cases h with
      | barred h => cases read.symm.trans h; rfl
      | undecodable h | unparsable h | shapeless h => cases read.symm.trans h
  | ok bytes =>
    rw [readRecord_ok]
    simp only [bind_eq_error, entriesOf_eq_error]
    constructor
    · rintro (h | ⟨text, decoded, h | ⟨value, parsed, something, shape, rfl⟩⟩)
      · exact .undecodable read h
      · exact .unparsable read decoded h
      · exact .shapeless read decoded parsed something shape
    · intro h
      cases h with
      | barred h => cases read.symm.trans h
      | undecodable h refused =>
        cases read.symm.trans h
        exact .inl refused
      | unparsable h decoded refused =>
        cases read.symm.trans h
        exact .inr ⟨_, decoded, .inl refused⟩
      | shapeless h decoded parsed something shape =>
        cases read.symm.trans h
        exact .inr ⟨_, decoded, .inr ⟨_, parsed, something, shape, rfl⟩⟩

namespace Source

def IsFaulty (s : Source) : Prop := ∃ fault, s.Faulty fault

/-- A file with a record in which a whole number has too many digits to be written. -/
def IsOverlong (s : Source) : Prop :=
  ∃ entries, readRecord s.format s.content = .ok entries ∧
    Value.entriesExceedDigits entries = true

/-- What is taken for granted of the parsers: their errors are those that a reader expects of
them, and no record that they give contains itself. -/
structure IsTame (s : Source) : Prop where
  expected : ∀ e, s.Faulty (.yaml e) → e.isExpected = true
  finite : ∀ entries, readRecord s.format s.content = .ok entries →
    Messages.isFinite entries = true

theorem read_of_faulty {s : Source} (tame : s.IsTame) {fault : FileFault} (h : s.Faulty fault) :
    s.read = .error (.file s.path.text fault) := by
  rw [read, readRecord_eq_error.mpr h]
  cases fault with
  | yaml e =>
    have expected := tame.expected e h
    simp only [expected, if_true]
  | system reason | encoding e | json e | shape kind => rfl

theorem read_of_overlong {s : Source} (tame : s.IsTame) (h : s.IsOverlong) :
    s.read = .error (.flatten .digitLimit) := by
  obtain ⟨entries, hr, long⟩ := h
  rw [read, hr]
  simp only [Messages.flatten, tame.finite entries hr, long]
  rfl

theorem read_of_sound {s : Source} (tame : s.IsTame) (sound : ¬ s.IsFaulty)
    (short : ¬ s.IsOverlong) : ∃ messages, s.read = .ok messages := by
  cases hr : readRecord s.format s.content with
  | error fault => exact absurd ⟨fault, readRecord_eq_error.mp hr⟩ sound
  | ok entries =>
    have writable : Value.entriesExceedDigits entries = false :=
      Bool.eq_false_iff.mpr fun long => short ⟨entries, hr, long⟩
    refine ⟨Table.ofList (Messages.leaves "" entries), ?_⟩
    rw [read, hr]
    simp only [Messages.flatten, tame.finite entries hr, writable]
    rfl

/-- A file that can be read is neither faulty nor overlong. -/
theorem sound_of_read {s : Source} (tame : s.IsTame) {messages : Messages}
    (h : s.read = .ok messages) : ¬ s.IsFaulty ∧ ¬ s.IsOverlong := by
  constructor
  · rintro ⟨fault, hf⟩
    cases h.symm.trans (read_of_faulty tame hf)
  · intro long
    cases h.symm.trans (read_of_overlong tame long)

/-- Only a faulty file gives a failure that names a file, and it names this file. -/
theorem faulty_of_read {s : Source} (tame : s.IsTame) {path : String} {fault : FileFault}
    (h : s.read = .error (.file path fault)) : path = s.path.text ∧ s.Faulty fault := by
  by_cases faulty : s.IsFaulty
  · obtain ⟨found, hf⟩ := faulty
    cases h.symm.trans (read_of_faulty tame hf)
    exact ⟨rfl, hf⟩
  · by_cases long : s.IsOverlong
    · cases h.symm.trans (read_of_overlong tame long)
    · obtain ⟨messages, hm⟩ := read_of_sound tame faulty long
      cases h.symm.trans hm

end Source

/-! ## The law -/

namespace Visit

def IsFaulty : Visit → Prop
  | .file s => s.IsFaulty
  | .refusal _ => False

/-- What ends a load without being a faulty file. -/
def Hinders : Visit → Prop
  | .file s => s.IsOverlong
  | .refusal _ => True

def IsTame : Visit → Prop
  | .file s => s.IsTame
  | .refusal _ => True

theorem read_isOk_iff {v : Visit} (tame : v.IsTame) :
    (∃ messages, v.read = .ok messages) ↔ ¬ v.IsFaulty ∧ ¬ v.Hinders := by
  cases v with
  | file s =>
    exact ⟨fun ⟨_, read⟩ => Source.sound_of_read tame read,
      fun ⟨sound, short⟩ => Source.read_of_sound tame sound short⟩
  | refusal reason => simp [Visit.read, Hinders]

end Visit

theorem mem_filesOf {fs : FileSystem} {directories : List Path} {s : Source} :
    s ∈ filesOf fs directories ↔ .file s ∈ route fs directories := by
  rw [← sources_route, List.mem_filterMap]
  constructor
  · rintro ⟨v, hv, hs⟩
    cases v with
    | file s => cases hs; exact hv
    | refusal reason => cases hs
  · exact fun h => ⟨.file s, h, rfl⟩

namespace Loader

/-- The law of a load that fails. -/
structure FailsCleanly (l : Loader) (fs : FileSystem) : Prop where
  raises : (∃ path fault, (l.load fs).2.2 = .error (.file path fault)) ↔
    ∃ s ∈ filesOf fs l.directories, s.IsFaulty
  first : ∀ path fault, (l.load fs).2.2 = .error (.file path fault) →
    ∃ before s after, filesOf fs l.directories = before ++ s :: after ∧
      (∀ other ∈ before, ¬ other.IsFaulty) ∧ s.Faulty fault ∧ path = s.path.text
  keeps : ∀ path fault, (l.load fs).2.2 = .error (.file path fault) → (l.load fs).1 = l

theorem load_eq_error {l : Loader} {fs : FileSystem} {e : LoadError} :
    (l.load fs).2.2 = .error e ↔
      ∃ before v after, route fs l.directories = before ++ v :: after ∧
        (∀ good ∈ before, ∃ messages, good.read = .ok messages) ∧ v.read = .error e := by
  rw [← loadVisits_eq_error {}, result_load]
  cases loadVisits {} (route fs l.directories) <;> simp [Except.map]

section

variable {l : Loader} {fs : FileSystem} (tame : ∀ s ∈ filesOf fs l.directories, s.IsTame)
include tame

theorem isTame_of_mem_route {v : Visit} (h : v ∈ route fs l.directories) : v.IsTame := by
  cases v with
  | file s => exact tame s (mem_filesOf.mpr h)
  | refusal reason => trivial

/-- A load that names a file names the first faulty one, and all before it could be read. -/
theorem first_faulty {path : String} {fault : FileFault}
    (h : (l.load fs).2.2 = .error (.file path fault)) :
    ∃ before s after, route fs l.directories = before ++ .file s :: after ∧
      (∀ v ∈ before, ¬ v.IsFaulty ∧ ¬ v.Hinders) ∧ s.Faulty fault ∧ path = s.path.text := by
  obtain ⟨before, v, after, whole, good, hv⟩ := load_eq_error.mp h
  cases v with
  | refusal reason => cases hv
  | file s =>
    have named : .file s ∈ route fs l.directories := by simp [whole]
    obtain ⟨path, faulty⟩ := Source.faulty_of_read (isTame_of_mem_route tame named) hv
    refine ⟨before, s, after, whole, fun v ho => ?_, faulty, path⟩
    have passed : v ∈ route fs l.directories := by simp [whole, ho]
    exact (Visit.read_isOk_iff (isTame_of_mem_route tame passed)).mp (good v ho)

/-- The first faulty file ends the load, if there is no hindrance before it. -/
theorem load_of_first_faulty {before after : List Visit} {s : Source} {fault : FileFault}
    (whole : route fs l.directories = before ++ .file s :: after)
    (sound : ∀ v ∈ before, ¬ v.IsFaulty) (free : ∀ v ∈ before, ¬ v.Hinders)
    (h : s.Faulty fault) : (l.load fs).2.2 = .error (.file s.path.text fault) := by
  refine load_eq_error.mpr ⟨before, .file s, after, whole, fun v ho => ?_, ?_⟩
  · have passed : v ∈ route fs l.directories := by simp [whole, ho]
    exact (Visit.read_isOk_iff (isTame_of_mem_route tame passed)).mpr ⟨sound v ho, free v ho⟩
  · exact Source.read_of_faulty (tame s (mem_filesOf.mpr (by simp [whole]))) h

/-- The law holds exactly if there is no hindrance before the first faulty file. -/
theorem failsCleanly_iff :
    l.FailsCleanly fs ↔
      ∀ before s after, route fs l.directories = before ++ .file s :: after → s.IsFaulty →
        (∀ v ∈ before, ¬ v.IsFaulty) → ∀ v ∈ before, ¬ v.Hinders := by
  constructor
  · intro law before s after whole faulty sound v hv
    have there : s ∈ filesOf fs l.directories := mem_filesOf.mpr (by simp [whole])
    obtain ⟨path, fault, failed⟩ := law.raises.mpr ⟨s, there, faulty⟩
    obtain ⟨read, named, rest, split, good, found, -⟩ := first_faulty tame failed
    have early := prefix_of_split (whole.symm.trans split) fun h => sound _ h ⟨fault, found⟩
    exact (good v (early v hv)).2
  · intro unhindered
    refine ⟨⟨?_, ?_⟩, ?_, fun path fault failed => load_of_error failed⟩
    · rintro ⟨path, fault, failed⟩
      obtain ⟨before, s, after, whole, -, found, -⟩ := first_faulty tame failed
      exact ⟨s, mem_filesOf.mpr (by simp [whole]), fault, found⟩
    · rintro ⟨s, hs, faulty⟩
      have visited : (Visit.file s).IsFaulty := faulty
      obtain ⟨before, v, after, whole, sound, first⟩ := exists_first (mem_filesOf.mp hs) visited
      cases v with
      | refusal reason => exact first.elim
      | file named =>
        obtain ⟨fault, hf⟩ := first
        have free := unhindered before named after whole ⟨fault, hf⟩ sound
        exact ⟨named.path.text, fault, load_of_first_faulty tame whole sound free hf⟩
    · intro path fault failed
      obtain ⟨before, s, after, whole, good, found, named⟩ := first_faulty tame failed
      have files : filesOf fs l.directories =
          before.filterMap Visit.source? ++ s :: after.filterMap Visit.source? := by
        rw [← sources_route, whole, List.filterMap_append, List.filterMap_cons_some]
        rfl
      refine ⟨_, s, _, files, fun other ho => ?_, found, named⟩
      obtain ⟨v, hv, same⟩ := List.mem_filterMap.mp ho
      cases v with
      | refusal reason => cases same
      | file s => cases same; exact (good _ hv).1

end

end Loader

/-! ## A number that hides a fault -/

/-- A text without carriage returns is the text of its bytes. -/
theorem decode_encode (format : Format) {text : List Char} (h : '\r' ∉ text) :
    decode format (encode text) = .ok text := by
  have same : unifyLines text = text := by
    fun_induction unifyLines text with
    | case1 => rfl
    | case2 cs => simp at h
    | case3 c cs _ ih =>
      obtain ⟨hc, h⟩ := not_or.mp (mt List.mem_cons.mpr h)
      rw [ih h, if_neg (Ne.symm hc)]
  rw [decode, Text.Utf8.decode, Text.Utf8.decodeFrom_encode]
  simp [Except.map, Except.mapError, same]

namespace Loader

/-- Of every 36 hexadecimal digits come more than 43 decimal ones. -/
theorem decimal_lt_hex {m n : Nat} (hm : m ≠ 0) (h : 36 * m ≤ n) : 10 ^ (43 * m) < 16 ^ n := by
  have block : (10 ^ 43 : Nat) < 16 ^ 36 := by decide
  calc 10 ^ (43 * m) = (10 ^ 43) ^ m := Nat.pow_mul 10 43 m
    _ < (16 ^ 36) ^ m := Nat.pow_lt_pow_left block hm
    _ = 16 ^ (36 * m) := (Nat.pow_mul 16 36 m).symm
    _ ≤ 16 ^ n := Nat.pow_le_pow_right (by decide) h

theorem exceedsDigitLimit_hex {n : Nat} (h : 36 * 100 ≤ n) :
    Numeral.exceedsDigitLimit ((16 ^ n - 1 : Nat) : Int) = true := by
  -- The limit gets a name, so that no power to it is computed.
  obtain ⟨limit, hl⟩ : ∃ limit, Numeral.digitLimit = limit := ⟨_, rfl⟩
  have digits : 43 * 100 = limit := hl
  have long := decimal_lt_hex (by decide) h
  rw [digits] at long
  rw [Numeral.exceedsDigitLimit, Int.natAbs_natCast, hl]
  exact decide_eq_true (Nat.le_sub_one_of_lt long)

def reader : Loader := ⟨[Path.parse "l"], "en_US", {}⟩

def number (more : Nat) : Source :=
  ⟨⟨"", ["l", "a.yaml"]⟩, .yaml, "a", .ok (encode (Yaml.hexRecord more))⟩

def half : Source := ⟨⟨"", ["l", "b.json"]⟩, .json, "b", .ok (encode ['\x7b'])⟩

theorem decode_hexRecord (more : Nat) :
    decode .yaml (encode (Yaml.hexRecord more)) = .ok (Yaml.hexRecord more) := by
  refine decode_encode .yaml ?_
  rw [Yaml.hexRecord, List.mem_cons, List.mem_cons, List.mem_cons]
  rintro (h | h | h | h)
  · cases h
  · cases h
  · cases h
  · rcases Yaml.mem_hexNumber h with h | h | h <;> cases h

/-- A number in one file and half of a record in the next. -/
def numberAndHalf (more : Nat) : Folder where
  entries := [("a.yaml", .file (number more).content), ("b.json", .file half.content)]
  distinct := by simp
  whole := by
    have plain : spellsHalf .yaml (encode (Yaml.hexRecord more)) = false := by
      rw [spellsHalf, decode_hexRecord]
      simp only [Yaml.read_hexRecord]
    have number : Entry.isWhole "a.yaml" (.file (number more).content) = true := by
      change (!spellsHalf .yaml (encode (Yaml.hexRecord more))) = true
      rw [plain]
      rfl
    have half : Entry.isWhole "b.json" (.file half.content) = true := by decide +kernel
    simp only [List.all_cons, List.all_nil, number, half, Bool.and_true]

/-- The system with this directory and no other. -/
def holding (more : Nat) : FileSystem := .ofFolders [(Path.parse "l", numberAndHalf more)]

theorem route_holding (more : Nat) :
    route (holding more) reader.directories = [.file (number more), .file half] := by
  have sorted : (numberAndHalf more).inOrder = (numberAndHalf more).entries := by
    have inOrder : (!decide ("b.json" < "a.yaml")) = true := by decide
    exact List.mergeSort_of_pairwise (List.pairwise_pair.mpr inOrder)
  have place : (holding more).place (Path.parse "l") = .folder (numberAndHalf more) := by
    change (List.lookup (Path.parse "l") [(Path.parse "l", numberAndHalf more)]).elim
      Place.missing Place.folder = _
    rw [List.lookup_cons_self]
    rfl
  have first : Entry.route (Path.parse "l") "a.yaml" (.file (number more).content) =
      [.file (number more)] := rfl
  have second : Entry.route (Path.parse "l") "b.json" (.file half.content) = [.file half] := rfl
  rw [route, reader, List.flatMap_singleton, place, Place.route, Folder.route, sorted,
    numberAndHalf, List.flatMap_cons, List.flatMap_singleton, first, second]
  rfl

theorem filesOf_holding (more : Nat) :
    filesOf (holding more) reader.directories = [number more, half] := by
  rw [← sources_route, route_holding]
  rfl

theorem readRecord_number (more : Nat) :
    readRecord (number more).format (number more).content =
      .ok [(.text "k", .int ((16 ^ (more + 1) - 1 : Nat) : Int))] := by
  rw [number, readRecord_ok, decode_hexRecord, Except.bind, parse, Yaml.read_hexRecord]
  rfl

theorem readRecord_half : ∃ e, readRecord half.format half.content = .error (.json e) := by
  have refused : (Json.read ['\x7b']).isOk = false := by decide +kernel
  cases hr : Json.read ['\x7b'] with
  | ok value =>
    rw [hr] at refused
    cases refused
  | error e =>
    refine ⟨e, ?_⟩
    rw [half, readRecord_ok, decode_encode .json (by decide), Except.bind, parse, hr]
    rfl

theorem tame_holding (more : Nat) :
    ∀ s ∈ filesOf (holding more) reader.directories, s.IsTame := by
  rw [filesOf_holding]
  intro s hs
  rcases List.mem_pair.mp hs with rfl | rfl
  · constructor
    · intro e h
      cases (Source.readRecord_eq_error.mpr h).symm.trans (readRecord_number more)
    · intro entries h
      cases h.symm.trans (readRecord_number more)
      rfl
  · obtain ⟨fault, hf⟩ := readRecord_half
    constructor
    · intro e h
      cases (Source.readRecord_eq_error.mpr h).symm.trans hf
    · intro entries h
      cases h.symm.trans hf

theorem number_isOverlong {more : Nat} (h : 36 * 100 ≤ more + 1) : (number more).IsOverlong := by
  refine ⟨_, readRecord_number more, ?_⟩
  show (false || Numeral.exceedsDigitLimit ((16 ^ (more + 1) - 1 : Nat) : Int) || false) = true
  rw [exceedsDigitLimit_hex h]
  rfl

theorem half_isFaulty : half.IsFaulty := by
  obtain ⟨e, h⟩ := readRecord_half
  exact ⟨.json e, Source.readRecord_eq_error.mp h⟩

theorem not_number_isOverlong : ¬ (number 1).IsOverlong := by
  rintro ⟨entries, hr, long⟩
  cases hr.symm.trans (readRecord_number 1)
  revert long
  show ¬ (false || Numeral.exceedsDigitLimit 255 || false) = true
  decide +kernel

/-- A short number does not get in the way of the fault. -/
theorem failsCleanly_short :
    (∀ s ∈ filesOf (holding 1) reader.directories, s.IsTame) ∧ reader.FailsCleanly (holding 1) := by
  have tame := tame_holding 1
  refine ⟨tame, (failsCleanly_iff tame).mpr ?_⟩
  intro before s after whole faulty sound v hv
  have passed : v ∈ route (holding 1) reader.directories := by simp [whole, hv]
  rw [route_holding] at passed
  rcases List.mem_pair.mp passed with rfl | rfl
  · exact not_number_isOverlong
  · exact absurd half_isFaulty (sound _ hv)

/-- A number of four thousand hexadecimal digits ends the load before the faulty file. -/
theorem overlong_hides_fault :
    (ofDirectories ["l"] "en_US" .empty).2 = .ok reader ∧
      half ∈ filesOf (holding 3999) reader.directories ∧ half.IsFaulty ∧
      (reader.load (holding 3999)).2.2 = .error (.flatten .digitLimit) ∧
      ¬ reader.FailsCleanly (holding 3999) := by
  have tame := tame_holding 3999
  have files := filesOf_holding 3999
  have there : half ∈ filesOf (holding 3999) reader.directories := by simp [files]
  have ended : (reader.load (holding 3999)).2.2 = .error (.flatten .digitLimit) := by
    refine load_eq_error.mpr ⟨[], .file (number 3999), [.file half], route_holding 3999, by simp, ?_⟩
    exact Source.read_of_overlong (tame _ (by simp [files])) (number_isOverlong (by decide))
  refine ⟨rfl, there, half_isFaulty, ended, fun law => ?_⟩
  obtain ⟨path, fault, failed⟩ := law.raises.mpr ⟨half, there, half_isFaulty⟩
  cases ended.symm.trans failed

end Loader

end RequestLocale.Resource
