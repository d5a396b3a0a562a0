import RequestLocale.Proofs.ResourceListing
import RequestLocale.Proofs.TableHistory

/-! # What the bundles of a loader hold

Every message in a bundle was written there: by a file, when the directories were loaded, or by an
addition. `Loader.Call` is what can happen to a loader, `written` the writes that are still to be
seen after a sequence of calls, and `Loader.records_run` says that the bundles hold exactly what
was written last under each key. -/
namespace RequestLocale.Resource

open Messages (flatten leaves)

/-- The texts that entries write, key by key. Those without a flat form write nothing. -/
def textsOf (entries : Entries) : List (String × String) :=
  match flatten entries "" with
  | .ok _ => leaves "" entries
  | .error _ => []

theorem eq_ofList_textsOf {entries : Entries} {messages : Messages}
    (h : flatten entries "" = .ok messages) : messages = Table.ofList (textsOf entries) := by
  rw [textsOf, h]
  unfold flatten at h
  split at h
  · cases h
  · split at h
    · cases h
    · exact (Except.ok.inj h).symm

/-- Texts that are written to the bundle of a locale, one after the other. -/
structure Write where
  locale : String
  texts : List (String × String)

/-- What a file writes. -/
def Source.write (s : Source) : Write where
  locale := s.locale
  texts := match readRecord s.format s.content with
    | .ok entries => textsOf entries
    | .error _ => []

theorem Source.read_eq_ok {s : Source} {messages : Messages} (h : s.read = .ok messages) :
    messages = Table.ofList s.write.texts := by
  unfold read at h
  cases hr : readRecord s.format s.content with
  | error fault =>
    rw [hr] at h
    cases fault <;> cases h
  | ok entries =>
    simp only [hr] at h
    simp only [write, hr]
    cases hf : flatten entries "" with
    | error e =>
      rw [hf] at h
      cases h
    | ok flat =>
      rw [hf] at h
      cases h
      exact eq_ofList_textsOf hf

/-- All texts written to one locale. -/
def textsFor (writes : List Write) (locale : String) : List (String × String) :=
  (writes.filter (·.locale == locale)).flatMap Write.texts

/-- The bundles hold what was written: there is one for each locale that was written to, and in it
the last text under each key, and nothing else. -/
structure Records (bundles : Table Messages) (writes : List Write) : Prop where
  opened : ∀ locale, bundles.contains locale = true ↔ ∃ w ∈ writes, w.locale = locale
  texts : ∀ locale messages, bundles.get? locale = some messages →
    ∀ key, messages.get? key = Table.lastUnder (textsFor writes locale) key

namespace Records

theorem empty : Records {} [] where
  opened locale := by simp [Table.contains, EmptyCollection.emptyCollection]
  texts locale messages h := by cases h

/-- Without a bundle nothing was written to its locale. -/
theorem get?_getD {bundles : Table Messages} {writes : List Write} (h : Records bundles writes)
    (locale key : String) :
    ((bundles.get? locale).getD {}).get? key = Table.lastUnder (textsFor writes locale) key := by
  cases hg : bundles.get? locale with
  | some messages => exact h.texts locale messages hg key
  | none =>
    have closed : ¬ ∃ w ∈ writes, w.locale = locale := by
      rw [← h.opened, Table.contains, hg]
      simp
    have nothing : textsFor writes locale = [] := by
      rw [textsFor, List.filter_eq_nil_iff.mpr, List.flatMap_nil]
      exact fun w hw he => closed ⟨w, hw, by simpa using he⟩
    rw [nothing]
    rfl

theorem addTo {bundles : Table Messages} {writes : List Write} (h : Records bundles writes)
    (w : Write) : Records (addTo bundles w.locale (Table.ofList w.texts)) (writes ++ [w]) where
  opened locale := by
    simp only [Table.contains, Resource.addTo, Table.get?_insert, List.mem_append,
      List.mem_singleton, or_and_right, exists_or, exists_eq_left, ← h.opened]
    by_cases he : locale = w.locale
    · simp [he]
    · simp [he, Ne.symm he]
  texts locale messages hg key := by
    rw [Resource.addTo, Table.get?_insert] at hg
    split at hg
    · rename_i he
      subst he
      cases hg
      rw [Table.get?_merge, Table.get?_ofList, h.get?_getD]
      simp [textsFor, Table.lastUnder_append]
    · rename_i he
      rw [h.texts locale messages hg key]
      simp [textsFor, Ne.symm he]

theorem loadVisits {bundles loaded : Table Messages} {writes : List Write} {visits : List Visit}
    (h : Records bundles writes) (hl : loadVisits bundles visits = .ok loaded) :
    Records loaded (writes ++ (visits.filterMap Visit.source?).map Source.write) := by
  induction visits generalizing bundles writes with
  | nil =>
    cases hl
    simpa using h
  | cons v visits ih =>
    cases v with
    | refusal reason => cases hl
    | file s =>
      rw [Resource.loadVisits] at hl
      cases hs : s.read with
      | error e =>
        rw [hs] at hl
        cases hl
      | ok messages =>
        rw [hs] at hl
        obtain rfl := Source.read_eq_ok hs
        simpa [Visit.source?] using ih (h.addTo s.write) hl

end Records

namespace Loader

/-- What happens to a loader: it loads its directories, as they are at that time, or messages are
added. -/
inductive Call where
  | load (fs : FileSystem)
  | add (locale : String) (entries : Entries)

def perform (l : Loader) : Call → Loader
  | .load fs => (l.load fs).1
  | .add locale entries => (l.addBundle locale entries).1

def run (l : Loader) (calls : List Call) : Loader := calls.foldl perform l

/-- A loader that was made, with the calls that making it consists of. -/
inductive IsBuilt (l : Loader) : List Call → Prop
  | directories {names : List String} {default : String} {fs : FileSystem}
      (h : (ofDirectories names default fs).2 = .ok l) : IsBuilt l [.load fs]
  | bundles {bundles : List (String × Entries)} {default : String}
      (h : ofBundles bundles default = .ok l) :
      IsBuilt l (bundles.map fun bundle => .add bundle.1 bundle.2)

namespace Call

/-- Whether a call puts new bundles in the place of the old ones: a load does, if there are
directories, nothing is refused and all their files can be read. -/
def replaces (directories : List Path) : Call → Bool
  | .load fs => !directories.isEmpty && (route fs directories).all fun v => v.read.isOk
  | .add _ _ => false

theorem replaces_load {directories : List Path} {fs : FileSystem} :
    (load fs).replaces directories = true ↔
      directories ≠ [] ∧ ∀ v ∈ route fs directories, ∃ messages, v.read = .ok messages := by
  simp only [replaces, Bool.and_eq_true, Bool.not_eq_true', List.isEmpty_eq_false_iff,
    List.all_eq_true]
  refine and_congr_right fun _ => forall₂_congr fun v _ => ?_
  cases v.read <;> simp [Except.isOk, Except.toBool]

def fileWrites (directories : List Path) : Call → List Write
  | .load fs => (filesOf fs directories).map Source.write
  | .add _ _ => []

def additions : Call → List Write
  | .load _ => []
  | .add locale entries => [⟨Locale.normalize locale, textsOf entries⟩]

end Call

/-- The writes to be seen after a sequence of calls: those of the files of the last load that went
through, in their order, and the additions since then. -/
def written (directories : List Path) (calls : List Call) : List Write :=
  let last := calls.reverse.find? (Call.replaces directories)
  let since := (calls.reverse.takeWhile fun call => !call.replaces directories).reverse
  last.elim [] (Call.fileWrites directories) ++ since.flatMap Call.additions

theorem written_concat (directories : List Path) (calls : List Call) (call : Call) :
    written directories (calls ++ [call]) =
      if call.replaces directories then call.fileWrites directories
      else written directories calls ++ call.additions := by
  unfold written
  rw [List.reverse_append, List.reverse_singleton, List.singleton_append, List.find?_cons,
    List.takeWhile_cons]
  cases call.replaces directories <;> simp

theorem run_concat (l : Loader) (calls : List Call) (call : Call) :
    l.run (calls ++ [call]) = (l.run calls).perform call := by
  rw [run, List.foldl_append]
  rfl

theorem run_append (l : Loader) (earlier later : List Call) :
    l.run (earlier ++ later) = (l.run earlier).run later :=
  List.foldl_append

theorem directories_load (l : Loader) (fs : FileSystem) :
    (l.load fs).1.directories = l.directories := by
  unfold load
  split
  · rfl
  · split <;> rfl

theorem bundles_addBundle (l : Loader) (locale : String) (entries : Entries) :
    (l.addBundle locale entries).1 =
      { l with bundles := addTo l.bundles (Locale.normalize locale)
                (Table.ofList (textsOf entries)) } := by
  unfold addBundle
  cases h : flatten entries "" with
  | ok messages => rw [← eq_ofList_textsOf h]
  | error e => simp only [textsOf, h]; rfl

theorem directories_perform (l : Loader) (call : Call) :
    (l.perform call).directories = l.directories := by
  cases call with
  | load fs => exact l.directories_load fs
  | add locale entries => rw [perform, bundles_addBundle]

theorem directories_run (l : Loader) (calls : List Call) :
    (l.run calls).directories = l.directories := by
  induction calls using List.reverseRecOn with
  | nil => rfl
  | append_singleton calls call ih => rw [run_concat, directories_perform, ih]

/-- A load that does not replace the bundles leaves the loader alone. -/
theorem perform_of_not_replaces {l : Loader} {fs : FileSystem}
    (h : (Call.load fs).replaces l.directories = false) : l.perform (.load fs) = l := by
  by_cases hd : l.directories = []
  · exact load_of_no_directories hd fs
  · cases hl : loadVisits {} (route fs l.directories) with
    | error e =>
      have failed : (l.load fs).2.2 = .error e := by rw [result_load, hl]; rfl
      exact load_of_error failed
    | ok loaded =>
      have read := (loadVisits_isOk {} _).mp ⟨loaded, hl⟩
      rw [Call.replaces_load.mpr ⟨hd, read⟩] at h
      cases h

/-- What a call adds to the record of the bundles. -/
theorem records_perform {l : Loader} {writes : List Write} (h : Records l.bundles writes)
    (call : Call) :
    Records (l.perform call).bundles
      (if call.replaces l.directories then call.fileWrites l.directories
        else writes ++ call.additions) := by
  cases call with
  | add locale entries =>
    rw [perform, bundles_addBundle]
    exact h.addTo ⟨Locale.normalize locale, textsOf entries⟩
  | load fs =>
    split
    · rename_i hr
      obtain ⟨hd, read⟩ := Call.replaces_load.mp hr
      obtain ⟨loaded, hl⟩ := (loadVisits_isOk {} _).mpr read
      rw [perform, load_of_ok hd hl, Call.fileWrites, ← sources_route]
      exact Records.empty.loadVisits hl
    · rename_i hr
      rw [perform_of_not_replaces (by simpa using hr)]
      simpa [Call.additions] using h

theorem records_run_new (directories : List Path) (default : String) (calls : List Call) :
    Records ((⟨directories, default, {}⟩ : Loader).run calls).bundles
      (written directories calls) := by
  induction calls using List.reverseRecOn with
  | nil => exact Records.empty
  | append_singleton calls call ih =>
    rw [run_concat, written_concat]
    have step := records_perform ih call
    rwa [directories_run] at step

theorem run_of_foldlM {bundles : List (String × Entries)} {start l : Loader}
    (h : bundles.foldlM (fun l bundle => (l.addBundle bundle.1 bundle.2).2.map fun _ =>
      (l.addBundle bundle.1 bundle.2).1) start = .ok l) :
    l = start.run (bundles.map fun bundle => .add bundle.1 bundle.2) := by
  induction bundles generalizing start with
  | nil => exact (Except.ok.inj h).symm
  | cons bundle bundles ih =>
    rw [List.foldlM_cons] at h
    cases hr : (start.addBundle bundle.1 bundle.2).2 with
    | error e =>
      rw [hr] at h
      cases h
    | ok _ =>
      rw [hr] at h
      exact ih h

theorem ofDirectories_eq (names : List String) (default : String) (fs : FileSystem) :
    (ofDirectories names default fs).2 =
      (load ⟨names.map Path.parse, default, {}⟩ fs).2.2.map fun _ =>
        (load ⟨names.map Path.parse, default, {}⟩ fs).1 := rfl

/-- Making a loader is a run of one without bundles. -/
theorem IsBuilt.eq_run {l : Loader} {calls : List Call} (h : l.IsBuilt calls) :
    ∃ directories default, l = (⟨directories, default, {}⟩ : Loader).run calls := by
  cases h with
  | @directories names default fs h =>
    refine ⟨names.map Path.parse, default, ?_⟩
    rw [ofDirectories_eq] at h
    cases hr : (load ⟨names.map Path.parse, default, {}⟩ fs).2.2 with
    | error e =>
      rw [hr] at h
      cases h
    | ok _ =>
      rw [hr] at h
      exact (Except.ok.inj h).symm
  | @bundles bundles default h => exact ⟨[], default, run_of_foldlM h⟩

/-- **The last write stays.** However a loader was made and whatever happened to it since, its
bundles hold what was written last under each key. -/
theorem records_run {l : Loader} {earlier : List Call} (built : l.IsBuilt earlier)
    (later : List Call) :
    Records (l.run later).bundles (written l.directories (earlier ++ later)) := by
  obtain ⟨directories, default, made⟩ := built.eq_run
  have h := records_run_new directories default (earlier ++ later)
  have same : l.directories = directories := by rw [made, directories_run]
  rwa [run_append, ← made, ← same] at h

/-- Two files that name one locale in different ways. -/
def baseFolder : Folder where
  entries := [("en_US.json",
    .file (.ok (Text.Utf8.encode "\x7b\"hi\": \"Hello\", \"bye\": \"Bye\"\x7d".toList)))]
  distinct := by decide
  whole := by decide +kernel

def siteFolder : Folder where
  entries := [("en-us.yml", .file (.ok (Text.Utf8.encode "hi: Hi there".toList)))]
  distinct := by decide
  whole := by decide +kernel

/-- The system with both folders, one of them from the root on. -/
def bothFolders : FileSystem :=
  .ofFolders [(Path.parse "/srv/base", baseFolder), (Path.parse "site", siteFolder)]

def baseOnly : FileSystem := .ofFolders [(Path.parse "/srv/base", baseFolder)]

def sampleLoader : Loader :=
  (load ⟨["/srv/base", "site"].map Path.parse, "en_US", {}⟩ bothFolders).1

/-- An addition that is gone with the next load, a load without the second folder, and an addition
that stays. -/
def sampleCalls : List Call :=
  [.add "EN_us" [(.text "bye", .text "See you")],
    .load baseOnly,
    .add " en-US " [(.text "nav", .record [(.text "home", .text "Home"), (.text "up", .none)])]]

theorem records_reloaded :
    sampleLoader.IsBuilt [.load bothFolders] ∧
      Records (sampleLoader.run sampleCalls).bundles
        (written sampleLoader.directories ([.load bothFolders] ++ sampleCalls)) ∧
      ((sampleLoader.run sampleCalls).bundles.get? "en_us").map (·.entries) =
        some [("hi", "Hello"), ("bye", "Bye"), ("nav.home", "Home"), ("nav.up", "")] := by
  have read : (load ⟨["/srv/base", "site"].map Path.parse, "en_US", {}⟩ bothFolders).2.2 =
      .ok () := by decide +kernel
  have built : sampleLoader.IsBuilt [.load bothFolders] := by
    have made : (ofDirectories ["/srv/base", "site"] "en_US" bothFolders).2 = .ok sampleLoader := by
      rw [ofDirectories_eq, read]
      rfl
    exact .directories made
  exact ⟨built, records_run built sampleCalls, by decide +kernel⟩

end Loader

end RequestLocale.Resource
