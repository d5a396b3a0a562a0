import RequestLocale.AcceptLanguage
import RequestLocale.Proofs.LowerCase
import RequestLocale.Proofs.Parts

/-! # The languages of a header in order of preference

What a header asks for is said apart from the way in which it is read: an entry stands between two
commas, its tag is the first of its fields, and its quality is what the last of its parameters with
the name `q` gives. A ranking has each entry that is asked for once, with its place in the header,
and is strictly ordered, first by falling quality and then by place. So there is only one, and its
tags are those that the client is taken to prefer (`ranked_eq_iff`). Which of these comes first is
another matter, as one wildcard is passed over (`Outcome.first?_several`). -/
namespace RequestLocale

/-! ## The order of qualities -/

namespace Binary64

theorem lt_asymm {x y : Binary64} (h : x.lt y = true) : y.lt x = false := by
  cases x <;> cases y <;> simp_all [lt]
  omega

/-- What is not less is ordered, unless NaN comes in between. -/
theorem not_lt_trans {x y z : Binary64} (hy : y ≠ .nan) (hxy : x.lt y = false)
    (hyz : y.lt z = false) : x.lt z = false := by
  cases y with
  | nan => exact absurd rfl hy
  | infinite s => cases x <;> cases z <;> cases s <;> simp_all [lt]
  | finite s a =>
    cases x <;> cases z <;> simp_all [lt]
    omega

theorem not_same_of_lt {x y : Binary64} (h : x.lt y = true) : x.same y = false := by
  cases x <;> cases y <;> simp_all [lt, same]
  omega

/-- Two numbers of which neither is less are the same number. -/
theorem same_of_not_lt {x y : Binary64} (hx : x ≠ .nan) (hy : y ≠ .nan) (hxy : x.lt y = false)
    (hyx : y.lt x = false) : x.same y = true := by
  cases x with
  | nan => exact absurd rfl hx
  | infinite s => cases y <;> cases s <;> simp_all [lt, same]
  | finite s a =>
    cases y with
    | nan => exact absurd rfl hy
    | infinite t => cases t <;> simp_all [lt]
    | finite t b =>
      simp only [lt, decide_eq_false_iff_not] at hxy hyx
      simp only [same, beq_iff_eq]
      omega

end Binary64

namespace AcceptLanguage

open Text

/-! ## Sorting -/

/-- Where a sort makes no difference between two elements, they stay in their order. -/
theorem pairwise_mergeSort_stable {α : Type} {le : α → α → Bool} {before : α → α → Prop}
    (trans : ∀ a b c, le a b = true → le b c = true → le a c = true)
    (total : ∀ a b, (le a b || le b a) = true) {xs : List α} (h : xs.Pairwise before) :
    (xs.mergeSort le).Pairwise fun a b => le a b = true ∧ (le b a = true → before a b) := by
  -- The elements are sorted together with their positions, of which no two are the same.
  have sorted := List.pairwise_mergeSort (List.zipIdxLE_trans trans) (List.zipIdxLE_total total)
    xs.zipIdx
  have positions : xs.zipIdx.Pairwise fun a b => a.2 ≠ b.2 := by
    rw [← List.pairwise_map (f := Prod.snd) (R := (· ≠ ·)), List.zipIdx_map_snd]
    exact List.nodup_range'
  have apart := positions.perm (List.mergeSort_perm _ (List.zipIdxLE le)).symm fun h => h.symm
  rw [← List.mergeSort_zipIdx, List.pairwise_map]
  refine (List.Pairwise.and_mem.mp (sorted.and apart)).imp ?_
  rintro ⟨a, i⟩ ⟨b, j⟩ ⟨ha, hb, hle, hne⟩
  have ha : xs[i]? = some a := by simpa [List.mem_zipIdx_iff_getElem?] using ha
  have hb : xs[j]? = some b := by simpa [List.mem_zipIdx_iff_getElem?] using hb
  simp only [List.zipIdxLE] at hle
  split at hle
  · rename_i hab
    refine ⟨hab, fun hba => ?_⟩
    rw [if_pos hba, decide_eq_true_eq] at hle
    obtain ⟨hi, rfl⟩ := List.getElem?_eq_some_iff.mp ha
    obtain ⟨hj, rfl⟩ := List.getElem?_eq_some_iff.mp hb
    exact List.pairwise_iff_getElem.mp h i j hi hj (Nat.lt_of_le_of_ne hle hne)
  · cases hle

/-! ## What an entry says -/

/-- The texts between the semicolons of an entry: its tag, then its parameters. -/
def fields (part : List Char) : List (List Char) := (split ';' part).map trim

/-- Whether a parameter is named `q`, in either case. -/
def NamesQuality (param : List Char) : Prop :=
  trim (cut '=' param).1 = ['q'] ∨ trim (cut '=' param).1 = ['Q']

/-- The number that a parameter gives. One that is no number stands for full quality. -/
def number (param : List Char) : Binary64 :=
  (Numeral.float? (trim (cut '=' param).2)).getD fullQuality

/-- The quality that parameters give: the last one named `q` counts. -/
inductive Rates (params : List (List Char)) : Binary64 → Prop where
  | last {earlier later : List (List Char)} {param : List Char}
    (split : params = earlier ++ param :: later) (named : NamesQuality param)
    (none_later : ∀ other ∈ later, ¬ NamesQuality other) : Rates params (number param)
  | unrated (unnamed : ∀ param ∈ params, ¬ NamesQuality param) : Rates params fullQuality

/-- An entry as the text between two commas says it. -/
structure Entry.IsWrittenIn (e : Entry) (part : List Char) : Prop where
  tag : (fields part).head? = some e.tag.toList
  tag_ne : e.tag ≠ ""
  quality : Rates (fields part).tail e.quality

/-- Of all characters, only the two letters turn into `q`. -/
theorem lowering_eq_q_iff {before after : List Char} {c : Char} :
    lowering before c after = ['q'] ↔ c = 'q' ∨ c = 'Q' := by
  constructor
  · unfold lowering
    intro h
    split at h
    · split at h <;> simp at h
    · split at h
      · simp at h
      · have h : lowerChar c = 'q' := List.singleton_inj.mp h
        by_cases hc : c.toNat < 128
        · exact forall_of_ascii (fun c => lowerChar c = 'q' → c = 'q' ∨ c = 'Q')
            (by decide +kernel) hc h
        · rcases lowerChar_cases hc with ⟨-, own⟩ | ⟨run, hr, hin, hd⟩
          · exact .inl (own.symm.trans h)
          · -- Beyond ASCII no capital has its partner there.
            have apart : caseRuns.all (fun run => run.last < 128 || run.avoids 113 113) = true := by
              decide +kernel
            have away := List.all_eq_true.mp apart run hr
            rw [Bool.or_eq_true, decide_eq_true_eq] at away
            rcases away with small | away
            · simp only [CaseRun.contains, Bool.and_eq_true, decide_eq_true_eq] at hin
              omega
            · refine absurd ?_ (CaseRun.not_between_of_avoids hin hd away)
              rw [h]
              decide
  · rintro (rfl | rfl) <;> rfl

theorem lower_eq_q_iff {cs : List Char} : lower cs = ['q'] ↔ cs = ['q'] ∨ cs = ['Q'] := by
  cases cs with
  | nil => simp [lower, lowerFrom]
  | cons c cs =>
    cases cs with
    | nil => rw [lower, lowerFrom_cons, lowerFrom, List.append_nil, lowering_eq_q_iff]; simp
    | cons d cs =>
      have two : 2 ≤ (lower (c :: d :: cs)).length := by
        rw [lower, lowerFrom_cons, lowerFrom_cons, List.length_append, List.length_append]
        have first := List.length_pos_iff.mpr (lowering_ne_nil [] c (d :: cs))
        have second := List.length_pos_iff.mpr (lowering_ne_nil [c] d cs)
        omega
      constructor
      · intro h
        rw [h] at two
        cases two with
        | step impossible => cases impossible
      · rintro (h | h) <;> cases h

theorem quality?_eq_some_iff {param : List Char} {x : Binary64} :
    quality? param = some x ↔ NamesQuality (trim param) ∧ number (trim param) = x := by
  simp [quality?, NamesQuality, number, lower_eq_q_iff]

theorem quality?_eq_none_iff {param : List Char} :
    quality? param = none ↔ ¬ NamesQuality (trim param) := by
  simp [quality?, NamesQuality, lower_eq_q_iff]

/-- Parameters always give a quality, and only one. -/
theorem rates_iff {params : List (List Char)} (trimmed : ∀ param ∈ params, trim param = param)
    {x : Binary64} :
    Rates params x ↔ (params.filterMap quality?).getLast?.getD fullQuality = x := by
  have unnamed_iff : ∀ param ∈ params, quality? param = none ↔ ¬ NamesQuality param := by
    intro param hp
    rw [quality?_eq_none_iff, trimmed param hp]
  constructor
  · rintro (⟨rfl, named, later⟩ | unnamed)
    · rename_i earlier later' param
      have given : quality? param = some (number param) := by
        have own := trimmed param (by simp)
        exact quality?_eq_some_iff.mpr ⟨by rwa [own], by rw [own]⟩
      have rest : later'.filterMap quality? = [] :=
        List.filterMap_eq_nil_iff.mpr fun other ho =>
          (unnamed_iff other (by simp [ho])).mpr (later other ho)
      rw [List.filterMap_append, List.filterMap_cons_some given, rest, List.getLast?_concat,
        Option.getD_some]
    · have nothing : params.filterMap quality? = [] :=
        List.filterMap_eq_nil_iff.mpr fun param hp => (unnamed_iff param hp).mpr (unnamed param hp)
      rw [nothing, List.getLast?_nil, Option.getD_none]
  · rintro rfl
    rw [List.getLast?_filterMap]
    cases found : params.reverse.findSome? quality? with
    | none =>
      rw [Option.getD_none]
      refine .unrated fun param hp => (unnamed_iff param hp).mp ?_
      exact List.findSome?_eq_none_iff.mp found param (List.mem_reverse.mpr hp)
    | some x =>
      obtain ⟨later, param, earlier, split, given, unnamed⟩ := List.findSome?_eq_some_iff.mp found
      have split : params = earlier.reverse ++ param :: later.reverse := by
        rw [← List.reverse_reverse params, split]
        simp
      obtain ⟨named, rfl⟩ := quality?_eq_some_iff.mp given
      rw [trimmed param (by simp [split])] at named
      rw [Option.getD_some, trimmed param (by simp [split])]
      refine .last split named fun other ho => (unnamed_iff other (by simp_all)).mp ?_
      exact unnamed other (List.mem_reverse.mp ho)

/-! ## The entries of a header -/

theorem trim_of_mem_fields {part field : List Char} (h : field ∈ fields part) :
    trim field = field := by
  obtain ⟨raw, -, rfl⟩ := List.mem_map.mp h
  exact trim_trim raw

/-- The parameters between semicolons of the trimmed text after the tag are those of the fields. -/
theorem fields_eq (part : List Char) :
    ∃ params, fields part = trim (cut ';' (trim part)).1 :: params ∧
      params.filterMap quality? = (split ';' (cut ';' (trim part)).2).filterMap quality? := by
  rw [fields, ← map_trim_split_trim (by decide), split_eq_cut, List.map_cons]
  refine ⟨_, rfl, ?_⟩
  split
  · rw [List.filterMap_map]
    exact congrArg (List.filterMap · _) (funext fun param => by simp [quality?, trim_trim])
  · rename_i none
    rw [cut, cut?_eq_none_iff.mpr none, Option.getD_none]
    rfl

theorem entry?_eq_some_iff {part : List Char} {e : Entry} :
    entry? part = some e ↔ e.IsWrittenIn part := by
  obtain ⟨params, written, given⟩ := fields_eq part
  have trimmed : ∀ param ∈ params, trim param = param := fun param hp =>
    trim_of_mem_fields (by rw [written]; exact List.mem_cons_of_mem _ hp)
  obtain ⟨tag, quality⟩ := e
  unfold entry?
  simp only [← given, Option.ite_none_left_eq_some]
  constructor
  · rintro ⟨hne, he⟩
    obtain ⟨rfl, hq⟩ := Entry.mk.inj (Option.some.inj he)
    refine ⟨by simp [written], by simpa using hne, ?_⟩
    rw [written]
    exact (rates_iff trimmed).mpr hq
  · rintro ⟨ht, hne, hq⟩
    rw [written] at ht hq
    have ht : trim (cut ';' (trim part)).1 = tag.toList := Option.some.inj ht
    rw [ht, (rates_iff trimmed).mp hq, String.ofList_toList]
    exact ⟨by simpa using hne, rfl⟩

/-! ## The ranking -/

/-- An entry together with its position among the parts of a header. -/
structure Placed where
  entry : Entry
  position : Nat

namespace Placed

/-- Whether a header asks for an entry at this position. An entry of no quality is not asked for,
nor one whose quality is NaN. -/
def IsAsked (p : Placed) (header : List Char) : Prop :=
  ∃ part, (split ',' header)[p.position]? = some part ∧ p.entry.IsWrittenIn part ∧
    (Binary64.finite false 0).lt p.entry.quality = true

/-- Higher quality comes first; of equal quality, what stands first in the header. -/
def Before (a b : Placed) : Prop :=
  b.entry.quality.lt a.entry.quality = true ∨
    a.entry.quality.same b.entry.quality = true ∧ a.position < b.position

theorem Before.asymm {a b : Placed} (h : a.Before b) : ¬ b.Before a := by
  rintro (h' | ⟨same', later⟩) <;> rcases h with h | ⟨same, earlier⟩
  · exact Bool.false_ne_true ((Binary64.lt_asymm h).symm.trans h')
  · rw [Binary64.not_same_of_lt h'] at same
    cases same
  · rw [Binary64.not_same_of_lt h] at same'
    cases same'
  · exact Nat.lt_asymm earlier later

end Placed

/-- The entries that a header asks for, each of them once, those preferred standing first. -/
structure IsRanking (header : String) (places : List Placed) : Prop where
  asked : ∀ p, p ∈ places ↔ p.IsAsked header.toList
  ordered : places.Pairwise Placed.Before

theorem IsRanking.nodup {header : String} {places : List Placed} (h : IsRanking header places) :
    places.Nodup :=
  h.ordered.imp fun before he => (he ▸ before).asymm (he ▸ before)

/-- A header has only one ranking. -/
theorem IsRanking.unique {header : String} {places places' : List Placed}
    (h : IsRanking header places) (h' : IsRanking header places') : places = places' := by
  have perm : places.Perm places' :=
    (List.perm_ext_iff_of_nodup h.nodup h'.nodup).mpr fun p => (h.asked p).trans (h'.asked p).symm
  exact perm.eq_of_pairwise (fun a b _ _ hab hba => absurd hba hab.asymm) h.ordered h'.ordered

/-- The entries that are asked for, in the order of the header. -/
def placed (header : List Char) : List Placed :=
  ((split ',' header).zipIdx.filterMap fun (part, position) =>
    entry? part |>.map (Placed.mk · position)).filter (·.entry.isWanted)

theorem map_entry_placed (header : List Char) :
    (placed header).map Placed.entry = entries header := by
  have parts : (split ',' header).zipIdx.map Prod.fst = split ',' header := List.zipIdx_map_fst _ _
  rw [entries, ← parts, List.filterMap_map, placed]
  change List.map Placed.entry (List.filter (Entry.isWanted ∘ Placed.entry) _) = _
  rw [← List.filter_map, List.map_filterMap]
  congr 2
  funext x
  simp [Function.comp_def]

theorem mem_placed {header : List Char} {p : Placed} : p ∈ placed header ↔ p.IsAsked header := by
  simp only [placed, List.mem_filter, List.mem_filterMap, Prod.exists,
    List.mem_zipIdx_iff_getElem?, Option.map_eq_some_iff, entry?_eq_some_iff, Placed.IsAsked]
  constructor
  · rintro ⟨⟨part, position, there, entry, written, rfl⟩, wanted⟩
    exact ⟨part, there, written, wanted⟩
  · rintro ⟨part, there, written, wanted⟩
    exact ⟨⟨part, p.position, there, p.entry, written, rfl⟩, wanted⟩

theorem placed_increasing (header : List Char) :
    (placed header).Pairwise fun a b => a.position < b.position := by
  have parts : (split ',' header).zipIdx.Pairwise fun a b => a.2 < b.2 := by
    rw [← List.pairwise_map (f := Prod.snd) (R := (· < ·)), List.zipIdx_map_snd]
    exact List.pairwise_lt_range'
  refine .filter _ (List.pairwise_filterMap.mpr (parts.imp ?_))
  rintro ⟨part, position⟩ ⟨part', position'⟩ h p hp p' hp'
  obtain ⟨entry, -, rfl⟩ := Option.map_eq_some_iff.mp hp
  obtain ⟨entry', -, rfl⟩ := Option.map_eq_some_iff.mp hp'
  exact h

/-- Sorting the entries with their positions ranks them. -/
theorem isRanking_mergeSort (header : String) :
    IsRanking header ((placed header.toList).mergeSort fun a b => a.entry.atLeast b.entry) := by
  have numbers : ∀ p ∈ placed header.toList, p.entry.quality ≠ .nan := by
    rintro p hp hn
    obtain ⟨part, -, -, positive⟩ := mem_placed.mp hp
    rw [hn] at positive
    cases positive
  refine ⟨fun p => by rw [List.mem_mergeSort, mem_placed], ?_⟩
  -- Only among numbers is it transitive that one quality is not less than another.
  rw [← List.attachWith_map_subtype_val numbers,
    ← List.map_mergeSort (f := Subtype.val)
      (r := fun a b => a.val.entry.atLeast b.val.entry) fun _ _ _ _ => rfl, List.pairwise_map]
  have positions := placed_increasing header.toList
  rw [← List.attachWith_map_subtype_val numbers, List.pairwise_map] at positions
  refine (pairwise_mergeSort_stable ?_ ?_ positions).imp ?_
  · rintro ⟨a, ha⟩ ⟨b, hb⟩ ⟨c, hc⟩ hab hbc
    simp only [Entry.atLeast, Bool.not_eq_true'] at hab hbc ⊢
    exact Binary64.not_lt_trans hb hab hbc
  · rintro ⟨a, ha⟩ ⟨b, hb⟩
    simp only [Entry.atLeast, Bool.or_eq_true, Bool.not_eq_true']
    cases h : a.entry.quality.lt b.entry.quality with
    | true => exact .inr (Binary64.lt_asymm h)
    | false => exact .inl rfl
  · rintro ⟨a, ha⟩ ⟨b, hb⟩ ⟨hle, stable⟩
    simp only [Entry.atLeast, Bool.not_eq_true'] at hle stable
    cases h : b.entry.quality.lt a.entry.quality with
    | true => exact .inl h
    | false => exact .inr ⟨Binary64.same_of_not_lt ha hb hle h, stable h⟩

/-- The tags that a client is taken to prefer are those of the ranking of its header. -/
theorem ranked_eq_iff {header : String} {tags : List String} :
    ranked header = tags ↔
      ∃ places, IsRanking header places ∧ places.map (·.entry.tag) = tags := by
  have sorted : ranked header = ((placed header.toList).mergeSort fun a b =>
      a.entry.atLeast b.entry).map (·.entry.tag) := by
    rw [ranked, ← map_entry_placed, ← List.map_mergeSort (f := Placed.entry)
      (r := fun a b => a.entry.atLeast b.entry) fun _ _ _ _ => rfl, List.map_map]
    rfl
  rw [sorted]
  constructor
  · exact fun h => ⟨_, isRanking_mergeSort header, h⟩
  · rintro ⟨places, h, rfl⟩
    rw [(isRanking_mergeSort header).unique h]

/-! ## The preferred tag -/

theorem ne_empty_of_mem_ranked {header tag : String} (h : tag ∈ ranked header) : tag ≠ "" := by
  obtain ⟨entry, he, rfl⟩ := List.mem_map.mp h
  obtain ⟨part, -, he⟩ := List.mem_filterMap.mp (List.mem_filter.mp (List.mem_mergeSort.mp he)).1
  exact (entry?_eq_some_iff.mp he).tag_ne

/-- Entries that already stand in their order are not moved. -/
theorem ranked_of_pairwise {header : String}
    (h : (entries header.toList).Pairwise fun a b => a.atLeast b = true) :
    ranked header = (entries header.toList).map Entry.tag := by
  rw [ranked, List.mergeSort_of_pairwise h]

/-- Of tags in order of preference one wildcard is passed over, if it stands in front. -/
theorem Outcome.first?_several (tags : List String) :
    (Outcome.several tags).first? =
      if ["*", "*"] <+: tags then some "*" else tags.find? (· ≠ "*") := by
  match tags with
  | [] => rfl
  | [tag] =>
    by_cases h : tag = "*"
    · subst h
      rfl
    · simp [Outcome.first?, h]
  | tag :: next :: rest =>
    by_cases h : tag = "*"
    · subst h
      by_cases h' : next = "*"
      · simp [Outcome.first?, h']
      · simp [Outcome.first?, h', Ne.symm h']
    · simp [Outcome.first?, h, Ne.symm h]

end AcceptLanguage
end RequestLocale
