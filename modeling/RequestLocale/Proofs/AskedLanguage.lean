import Mathlib.Algebra.Order.BigOperators.Group.List
import Mathlib.Algebra.Order.Group.Nat
import RequestLocale.Proofs.RankedLanguages
import RequestLocale.Table

/-! # Asking for one language

A header that is nothing but a tag asks for that tag, whatever it is (`first?_ranked`). As tags may
be of any length, a table leaves some of them out, and a client may ask for one of these
(`exists_asked_not_key`). -/
namespace RequestLocale.AcceptLanguage

open Text

/-- A text that is a tag as it stands, other than the wildcard. -/
structure IsBareTag (tag : String) : Prop where
  ne_empty : tag ≠ ""
  ne_wildcard : tag ≠ "*"
  ordinary : ∀ c ∈ tag.toList, isBlank c = false ∧ c ≠ ',' ∧ c ≠ ';'

theorem entry?_of_isBareTag {tag : String} (h : IsBareTag tag) :
    entry? tag.toList = some ⟨tag, fullQuality⟩ := by
  have alone : fields tag.toList = [tag.toList] := by
    rw [fields, split_of_not_mem fun hc => (h.ordinary ';' hc).2.2 rfl, List.map_singleton,
      trim_of_forall fun c hc => (h.ordinary c hc).1]
  have written : ∀ quality, Rates (fields tag.toList).tail quality →
      Entry.IsWrittenIn ⟨tag, quality⟩ tag.toList := fun _ rates =>
    ⟨by rw [alone, List.head?_cons], h.ne_empty, rates⟩
  exact entry?_eq_some_iff.mpr (written fullQuality (.unrated (by simp [alone])))

theorem ranked_of_isBareTag {tag : String} (h : IsBareTag tag) : ranked tag = [tag] := by
  have one : split ',' tag.toList = [tag.toList] :=
    split_of_not_mem fun hc => (h.ordinary ',' hc).2.1 rfl
  have positive : Binary64.lt (.finite false 0) fullQuality = true := by decide +kernel
  have wanted : Entry.isWanted ⟨tag, fullQuality⟩ = true := by rw [Entry.isWanted, positive]
  rw [ranked, entries, one, List.filterMap_cons, entry?_of_isBareTag h]
  simp [wanted]

/-- A client that asks for one tag prefers it. -/
theorem first?_ranked {tag : String} (h : IsBareTag tag) :
    (Outcome.several (ranked tag)).first? = some tag := by
  rw [ranked_of_isBareTag h, Outcome.first?_several]
  simp [h.ne_wildcard]

/-- A tag of some length, two at least. -/
def longTag (more : Nat) : String := String.ofList (List.replicate (more + 2) 'a')

theorem isBareTag_longTag (more : Nat) : IsBareTag (longTag more) where
  ne_empty := by simp [longTag, ← String.toList_inj]
  ne_wildcard := by simp [longTag, ← String.toList_inj, List.replicate_succ]
  ordinary c hc := by
    obtain rfl : c = 'a' := by simpa [longTag] using hc
    decide

/-- No table has all the tags that may be asked for. -/
theorem exists_asked_not_key {α : Type} (t : Table α) :
    ∃ tag, IsBareTag tag ∧ t.get? tag = none := by
  let lengths := t.entries.map (·.1.length)
  refine ⟨longTag lengths.sum, isBareTag_longTag _, ?_⟩
  rw [Table.get?, Option.map_eq_none_iff, List.find?_eq_none]
  intro entry hm he
  -- The tag is longer than all the keys together.
  have bound : entry.1.length ≤ lengths.sum := List.le_sum_of_mem (List.mem_map_of_mem hm)
  have same : entry.1 = longTag lengths.sum := by simpa using he
  have long : (longTag lengths.sum).length = lengths.sum + 2 := by
    simp [longTag]
  rw [same, long] at bound
  omega

end RequestLocale.AcceptLanguage
