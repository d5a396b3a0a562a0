import RequestLocale.Flatten
import RequestLocale.Proofs.TableHistory

/-! # Messages in nested records

A leaf is a value other than a record, with the way that leads to it: the positions of the entries
on the way, and the texts of their keys. Depth-first order is the order of these positions, so the
leaves of a record are said, and their order is said, without a walk through the record. The
messages of a record are its leaves, each under the texts on its way with points between them; where
leaves have one key, the first gives the place and the last the text (`flatten_isFlat`). It makes no
difference whether the messages of a record within are gathered in a table of their own first. -/
namespace RequestLocale.Messages

/-! ## Records within records -/

mutual
/-- What holds of values other than records, and of a record if it holds of the values in it, holds
of all values. -/
theorem record_induction {motive : Value → Prop}
    (plain : ∀ value, (∀ entries, value ≠ .record entries) → motive value)
    (record : ∀ entries : Entries, (∀ entry ∈ entries, motive entry.2) → motive (.record entries)) :
    ∀ value : Value, motive value
  | .record entries => record entries (entries_induction plain record entries)
  | .none | .bool _ | .int _ | .float _ | .fraction _ | .decimal _ | .text _ | .bytes _ _ | .day _
  | .moment _ | .sequence _ _ | .set _ | .enclosing _ => plain _ nofun

theorem entries_induction {motive : Value → Prop}
    (plain : ∀ value, (∀ entries, value ≠ .record entries) → motive value)
    (record : ∀ entries : Entries, (∀ entry ∈ entries, motive entry.2) → motive (.record entries)) :
    ∀ entries : Entries, ∀ entry ∈ entries, motive entry.2
  | [] => by simp
  | (_, value) :: entries => List.forall_mem_cons.mpr
    ⟨record_induction plain record value, entries_induction plain record entries⟩
end

/-! ## Leaves -/

structure Leaf where
  /-- Which entry leads on, from the outermost record inwards. -/
  route : List Nat
  /-- The texts of the keys of these entries. -/
  names : List String
  value : Value

namespace Leaf

/-- A leaf of the value of an entry as a leaf of the record with the entry. -/
def under (leaf : Leaf) (position : Nat) (key : Value) : Leaf :=
  ⟨position :: leaf.route, key.toText :: leaf.names, leaf.value⟩

/-- The leaves of a value. A value that is no record is its own leaf. -/
inductive IsIn : Leaf → Value → Prop where
  | self {value : Value} (plain : ∀ entries, value ≠ .record entries) : IsIn ⟨[], [], value⟩ value
  | inside {leaf : Leaf} {entries : Entries} {position : Nat} {key value : Value}
    (there : entries[position]? = some (key, value)) (inner : IsIn leaf value) :
    IsIn (leaf.under position key) (.record entries)

/-- The key of a leaf, with a text before it. -/
def key (pre : String) (leaf : Leaf) : String := pre ++ ".".intercalate leaf.names

/-- The text of a leaf. Nothing has the empty text. -/
def text (leaf : Leaf) : String :=
  match leaf.value with
  | .none => ""
  | value => value.toText

end Leaf

/-- The leaves of a record, all of them, each once, in depth-first order. -/
structure IsDepthFirst (entries : Entries) (order : List Leaf) : Prop where
  mem : ∀ leaf, leaf ∈ order ↔ leaf.IsIn (.record entries)
  increasing : order.Pairwise fun a b => a.route < b.route

/-! ## Walking through records -/

mutual
/-- The leaves of entries that are numbered on from a position. -/
def leavesFrom (start : Nat) : Entries → List Leaf
  | [] => []
  | (key, value) :: entries =>
    (leavesIn value).map (·.under start key) ++ leavesFrom (start + 1) entries
  termination_by structural entries => entries

def leavesIn : Value → List Leaf
  | .record entries => leavesFrom 0 entries
  | value => [⟨[], [], value⟩]
  termination_by structural value => value
end

theorem leavesIn_of_plain {value : Value} (plain : ∀ entries, value ≠ .record entries) :
    leavesIn value = [⟨[], [], value⟩] := by
  cases value with
  | record entries => exact absurd rfl (plain entries)
  | _ => rfl

theorem mem_leavesFrom {start : Nat} {entries : Entries} {leaf : Leaf} :
    leaf ∈ leavesFrom start entries ↔ ∃ position key value, entries[position]? = some (key, value) ∧
      ∃ inner ∈ leavesIn value, inner.under (start + position) key = leaf := by
  induction entries generalizing start with
  | nil => simp [leavesFrom]
  | cons entry entries ih =>
    obtain ⟨key, value⟩ := entry
    rw [leavesFrom, List.mem_append, List.mem_map, ih]
    constructor
    · rintro (⟨inner, hi, rfl⟩ | ⟨position, key', value', there, inner, hi, rfl⟩)
      · exact ⟨0, key, value, rfl, inner, hi, rfl⟩
      · exact ⟨position + 1, key', value', there, inner, hi, by rw [Nat.add_assoc, Nat.add_comm 1]⟩
    · rintro ⟨position, key', value', there, inner, hi, rfl⟩
      cases position with
      | zero =>
        cases there
        exact .inl ⟨inner, hi, rfl⟩
      | succ position =>
        exact .inr ⟨position, key', value', there, inner, hi, by rw [Nat.add_assoc, Nat.add_comm 1]⟩

theorem mem_leavesIn (value : Value) : ∀ leaf, leaf ∈ leavesIn value ↔ leaf.IsIn value := by
  induction value using record_induction with
  | plain value plain =>
    intro leaf
    rw [leavesIn_of_plain plain, List.mem_singleton]
    constructor
    · rintro rfl
      exact .self plain
    · rintro (_ | _)
      · rfl
      · exact absurd rfl (plain _)
  | record entries ih =>
    intro leaf
    rw [leavesIn, mem_leavesFrom]
    constructor
    · rintro ⟨position, key, value, there, inner, hi, rfl⟩
      rw [Nat.zero_add]
      exact .inside there ((ih _ (List.mem_of_getElem? there) inner).mp hi)
    · intro h
      cases h with
      | self plain => exact absurd rfl (plain entries)
      | inside there hi =>
        refine ⟨_, _, _, there, _, (ih _ (List.mem_of_getElem? there) _).mpr hi, ?_⟩
        rw [Nat.zero_add]

theorem increasing_leavesFrom {entries : Entries}
    (inner : ∀ entry ∈ entries, (leavesIn entry.2).Pairwise fun a b => a.route < b.route)
    (start : Nat) : (leavesFrom start entries).Pairwise fun a b => a.route < b.route := by
  induction entries generalizing start with
  | nil => exact .nil
  | cons entry entries ih =>
    obtain ⟨first, inner⟩ := List.forall_mem_cons.mp inner
    rw [leavesFrom, List.pairwise_append, List.pairwise_map]
    refine ⟨first.imp fun h => List.cons_lt_cons_iff.mpr (.inr ⟨rfl, h⟩), ih inner _, ?_⟩
    intro a ha b hb
    obtain ⟨a, -, rfl⟩ := List.mem_map.mp ha
    obtain ⟨position, key, value, -, b, -, rfl⟩ := mem_leavesFrom.mp hb
    exact List.cons_lt_cons_iff.mpr (.inl (by omega))

theorem increasing_leavesIn (value : Value) :
    (leavesIn value).Pairwise fun a b => a.route < b.route := by
  induction value using record_induction with
  | plain value plain =>
    rw [leavesIn_of_plain plain]
    exact List.pairwise_singleton _ _
  | record entries ih => exact increasing_leavesFrom ih 0

theorem isDepthFirst_leavesFrom (entries : Entries) : IsDepthFirst entries (leavesFrom 0 entries) :=
  ⟨mem_leavesIn (.record entries), increasing_leavesIn (.record entries)⟩

/-! ## The messages of leaves -/

theorem leavesOf_of_plain {value : Value} (plain : ∀ entries, value ≠ .record entries)
    (path : String) : leavesOf path value = [(path, (Leaf.mk [] [] value).text)] := by
  cases value with
  | record entries => exact absurd rfl (plain entries)
  | _ => rfl

theorem leaves_eq {entries : Entries}
    (inner : ∀ entry ∈ entries, ∀ pre name, leavesOf (pre ++ name) entry.2 =
      (leavesIn entry.2).map fun leaf => (pre ++ ".".intercalate (name :: leaf.names), leaf.text))
    (pre : String) (start : Nat) :
    leaves pre entries = (leavesFrom start entries).map fun leaf => (leaf.key pre, leaf.text) := by
  induction entries generalizing start with
  | nil => rfl
  | cons entry entries ih =>
    obtain ⟨first, inner⟩ := List.forall_mem_cons.mp inner
    rw [leaves, leavesFrom, first, ih inner (start + 1), List.map_append, List.map_map]
    rfl

theorem leavesOf_eq (value : Value) : ∀ pre name, leavesOf (pre ++ name) value =
    (leavesIn value).map fun leaf => (pre ++ ".".intercalate (name :: leaf.names), leaf.text) := by
  induction value using record_induction with
  | plain value plain =>
    intro pre name
    rw [leavesOf_of_plain plain, leavesIn_of_plain plain, List.map_singleton,
      String.intercalate_singleton]
  | record entries ih =>
    intro pre name
    rw [leavesOf, leaves_eq ih _ 0, leavesIn]
    refine List.map_congr_left fun leaf hl => ?_
    obtain ⟨position, key, value, -, inner, -, rfl⟩ := mem_leavesFrom.mp hl
    simp [Leaf.key, Leaf.under, String.intercalate_cons_cons, String.append_assoc]

/-- The messages of a record are its leaves in depth-first order. -/
theorem leaves_eq_leavesFrom (pre : String) (entries : Entries) :
    leaves pre entries = (leavesFrom 0 entries).map fun leaf => (leaf.key pre, leaf.text) :=
  leaves_eq (fun entry _ => leavesOf_eq entry.2) pre 0

/-- A text before every key can be put there afterwards. -/
theorem leaves_eq_map (pre : String) (entries : Entries) :
    leaves pre entries = (leaves "" entries).map (Prod.map (pre ++ ·) id) := by
  rw [leaves_eq_leavesFrom, leaves_eq_leavesFrom, List.map_map]
  simp [Leaf.key, Function.comp_def]

/-! ## Gathering record by record -/

mutual
/-- Writes the messages of a record to a table. Those of a record within are gathered in a table of
their own, which is written when it is complete. -/
def gather (pre : String) (messages : Messages) : Entries → Messages
  | [] => messages
  | (key, value) :: entries => gather pre (gatherOf (pre ++ key.toText) messages value) entries
  termination_by structural entries => entries

def gatherOf (path : String) (messages : Messages) : Value → Messages
  | .record entries => messages.merge (gather (path ++ ".") {} entries)
  | .none => messages.insert path ""
  | value => messages.insert path value.toText
  termination_by structural value => value
end

theorem gather_of_inner {entries : Entries}
    (inner : ∀ entry ∈ entries, ∀ path (messages : Messages),
      gatherOf path messages entry.2 = messages.insertAll (leavesOf path entry.2))
    (pre : String) (messages : Messages) :
    gather pre messages entries = messages.insertAll (leaves pre entries) := by
  induction entries generalizing messages with
  | nil => rfl
  | cons entry entries ih =>
    obtain ⟨first, inner⟩ := List.forall_mem_cons.mp inner
    rw [gather, first, ih inner, leaves, Table.insertAll, Table.insertAll, Table.insertAll,
      List.foldl_append]

theorem gatherOf_eq (value : Value) : ∀ path (messages : Messages),
    gatherOf path messages value = messages.insertAll (leavesOf path value) := by
  induction value using record_induction with
  | plain value plain =>
    intro path messages
    cases value with
    | record entries => exact absurd rfl (plain entries)
    | _ => rfl
  | record entries ih =>
    intro path messages
    rw [gatherOf, leavesOf, gather_of_inner ih]
    exact messages.merge_ofList _

/-- Whether the messages of a record within are gathered first makes no difference. -/
theorem gather_eq (pre : String) (entries : Entries) :
    gather pre {} entries = Table.ofList (leaves pre entries) :=
  gather_of_inner (fun entry _ => gatherOf_eq entry.2) pre {}

/-! ## Empty records -/

/-- Entries without some of the records that have nothing in them, or nothing but such records, at
any depth. -/
inductive OmitsEmpty : Entries → Entries → Prop where
  | nil : OmitsEmpty [] []
  | keep {kept entries : Entries} (entry : Value × Value) (rest : OmitsEmpty kept entries) :
    OmitsEmpty (entry :: kept) (entry :: entries)
  | inside {kept entries kept' entries' : Entries} (key : Value) (inner : OmitsEmpty kept entries)
    (rest : OmitsEmpty kept' entries') :
    OmitsEmpty ((key, .record kept) :: kept') ((key, .record entries) :: entries')
  | drop {entries kept' entries' : Entries} (key : Value) (inner : OmitsEmpty [] entries)
    (rest : OmitsEmpty kept' entries') : OmitsEmpty kept' ((key, .record entries) :: entries')

/-- Entries in the place of others: they have the same messages, and a flat form if these have
one. -/
structure Replaces (kept entries : Entries) : Prop where
  leaves_eq : ∀ pre, leaves pre kept = leaves pre entries
  finite : isFinite kept = isFinite entries
  spelt : Value.entriesExceedDigits entries = false → Value.entriesExceedDigits kept = false

theorem leaves_append (pre : String) (entries more : Entries) :
    leaves pre (entries ++ more) = leaves pre entries ++ leaves pre more := by
  induction entries with
  | nil => rfl
  | cons entry entries ih => rw [List.cons_append, leaves, leaves, ih, List.append_assoc]

theorem isFinite_append (entries more : Entries) :
    isFinite (entries ++ more) = (isFinite entries && isFinite more) := by
  induction entries with
  | nil => rfl
  | cons entry entries ih => rw [List.cons_append, isFinite, isFinite, ih, Bool.and_assoc]

theorem entriesExceedDigits_append (entries more : Entries) :
    Value.entriesExceedDigits (entries ++ more) =
      (Value.entriesExceedDigits entries || Value.entriesExceedDigits more) := by
  induction entries with
  | nil => rfl
  | cons entry entries ih =>
    rw [List.cons_append, Value.entriesExceedDigits, Value.entriesExceedDigits, ih]
    simp only [Bool.or_assoc]

namespace Replaces

variable {kept entries kept' entries' : Entries}

theorem refl (entries : Entries) : Replaces entries entries := ⟨fun _ => rfl, rfl, id⟩

theorem append (h : Replaces kept entries) (h' : Replaces kept' entries') :
    Replaces (kept ++ kept') (entries ++ entries') where
  leaves_eq pre := by rw [leaves_append, leaves_append, h.leaves_eq, h'.leaves_eq]
  finite := by rw [isFinite_append, isFinite_append, h.finite, h'.finite]
  spelt hs := by
    rw [entriesExceedDigits_append, Bool.or_eq_false_iff] at hs ⊢
    exact ⟨h.spelt hs.1, h'.spelt hs.2⟩

theorem record (h : Replaces kept entries) (key : Value) :
    Replaces [(key, .record kept)] [(key, .record entries)] where
  leaves_eq pre := by simp only [leaves, leavesOf, h.leaves_eq]
  finite := by simp only [isFinite, isFiniteAt, h.finite]
  spelt hs := by
    simp only [Value.entriesExceedDigits, Value.exceedsDigits, Bool.or_eq_false_iff] at hs ⊢
    exact ⟨⟨hs.1.1, h.spelt hs.1.2⟩, hs.2⟩

theorem nothing (h : Replaces [] entries) (key : Value) : Replaces [] [(key, .record entries)] where
  leaves_eq pre := by simp only [leaves, leavesOf, ← h.leaves_eq, List.append_nil]
  finite := by simp only [isFinite, isFiniteAt, ← h.finite, Bool.and_true]
  spelt _ := rfl

end Replaces

theorem OmitsEmpty.replaces {kept entries : Entries} (h : OmitsEmpty kept entries) :
    Replaces kept entries := by
  induction h with
  | nil => exact .refl []
  | keep entry _ rest => exact (Replaces.refl [entry]).append rest
  | inside key _ _ inner rest => exact (inner.record key).append rest
  | drop key _ _ inner rest => exact (inner.nothing key).append rest

/-! ## Flat messages -/

theorem flatten_of_finite {entries : Entries} (finite : isFinite entries = true)
    (spelt : Value.entriesExceedDigits entries = false) (pre : String) :
    flatten entries pre = .ok (Table.ofList (leaves pre entries)) := by
  simp [flatten, finite, spelt]

/-- Messages that are the flat form of a record. -/
structure IsFlat (entries : Entries) (pre : String) (messages : Messages) : Prop where
  /-- The keys are those of the leaves, in the order of the first leaf with each, and under a key
  lies the text of the last leaf with it. -/
  leaves : ∃ order, IsDepthFirst entries order ∧
    messages.keys = (order.map (·.key pre)).eraseDups ∧
    ∀ key, messages.get? key = (order.filter (·.key pre == key)).getLast?.map Leaf.text
  /-- The records within may be gathered each in a table of its own. -/
  gathered : messages = gather pre {} entries
  /-- Records in which there is nothing contribute nothing. -/
  omitting : ∀ kept, OmitsEmpty kept entries → flatten kept pre = .ok messages
  /-- Without the text before them, the keys are the same in the same order. -/
  bare : ∃ bare, flatten entries "" = .ok bare ∧
    messages.entries = bare.entries.map fun (key, text) => (pre ++ key, text)

/-- **Flat messages.** -/
theorem flatten_isFlat {entries : Entries} (finite : isFinite entries = true)
    (spelt : Value.entriesExceedDigits entries = false) (pre : String) :
    ∃ messages, flatten entries pre = .ok messages ∧ IsFlat entries pre messages := by
  refine ⟨_, flatten_of_finite finite spelt pre, ?_, ?_, ?_, ?_⟩
  · refine ⟨leavesFrom 0 entries, isDepthFirst_leavesFrom entries, ?_, fun key => ?_⟩
    · rw [Table.keys_ofList, leaves_eq_leavesFrom, List.map_map]
      rfl
    · rw [Table.get?_ofList, leaves_eq_leavesFrom, Table.lastUnder, List.filter_map,
        List.getLast?_map, Option.map_map]
      rfl
  · exact (gather_eq pre entries).symm
  · intro kept omits
    have same := omits.replaces
    rw [flatten_of_finite (same.finite.trans finite) (same.spelt spelt), same.leaves_eq]
  · refine ⟨_, flatten_of_finite finite spelt "", ?_⟩
    rw [leaves_eq_map, Table.entries_ofList_map fun _ _ => (String.append_right_inj pre).mp]
    rfl

/-- A record in which keys come together across its levels, two of them with one text. -/
def tangled : Entries :=
  [(.text "a", .record [(.text "b", .int 1), (.text "c", .record [])]), (.text "a.b", .none),
    (.int 1, .text "x"), (.text "1", .text "y")]

theorem flatten_tangled : ∃ messages, flatten tangled "p." = .ok messages ∧
    IsFlat tangled "p." messages ∧ messages.entries = [("p.a.b", ""), ("p.1", "y")] := by
  have finite : isFinite tangled = true := rfl
  have spelt : Value.entriesExceedDigits tangled = false := by decide +kernel
  obtain ⟨messages, h, flat⟩ := flatten_isFlat finite spelt "p."
  rw [flatten_of_finite finite spelt] at h
  cases h
  exact ⟨_, flatten_of_finite finite spelt "p.", flat, by decide +kernel⟩

end RequestLocale.Messages
