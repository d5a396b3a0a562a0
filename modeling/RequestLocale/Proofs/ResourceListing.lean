import Mathlib.Data.List.Basic
import RequestLocale.Resource.Loader

/-! # The files that a load reads

Which files a directory gives to a load, and in which order, is said apart from the way in which
they are found: a listing is a list with a file exactly for each name that has a known ending,
strictly in the order of the names. It has the files that the system hides as well. A load goes its
route through the directories, one file after the other, up to the first that fails or is refused:
behind a refusal there may be more files, but the load does not come to see them
(`Loader.loadDirectories_eq`). -/
namespace RequestLocale

namespace Resource

/-! ## Directories -/

def Path.fileName (p : Path) : String := p.parts.getLastD ""

@[simp] theorem Path.fileName_child (p : Path) (name : String) :
    (p.child name).fileName = name := by
  simp [fileName, child]

theorem Format.ofEnding?_eq_some {ending : String} {format : Format} :
    Format.ofEnding? ending = some format ↔
      (ending, format) ∈ [(".json", Format.json), (".yml", .yaml), (".yaml", .yaml)] := by
  constructor
  · intro h
    unfold ofEnding? at h
    split at h <;> cases h <;> decide
  · intro h
    simp only [List.mem_cons, Prod.mk.injEq, List.not_mem_nil, or_false] at h
    rcases h with ⟨rfl, rfl⟩ | ⟨rfl, rfl⟩ | ⟨rfl, rfl⟩ <;> rfl

/-- The entries of a directory are strictly ordered, since no two have the same name. -/
theorem Folder.inOrder_increasing (f : Folder) : f.inOrder.Pairwise fun a b => a.1 < b.1 :=
  Text.mergeSort_increasing Prod.fst (List.pairwise_map.mp f.distinct)

theorem Folder.mem_inOrder {f : Folder} {e : String × Entry} : e ∈ f.inOrder ↔ e ∈ f.entries :=
  List.mem_mergeSort

/-- The file under a name with a known ending, hidden or not. -/
def Entry.source? (directory : Path) (name : String) (entry : Entry) : Option Source :=
  (Format.ofName? name).bind fun format => entry.content?.map (source directory name format)

/-- A file with a known ending that stands in a directory, to be read in the format of its ending
for the locale of its stem. -/
structure Source.IsFile (s : Source) (fs : FileSystem) (directory : Path) (name : String) :
    Prop where
  there : ∃ f entry, (fs.place directory).folder? = some f ∧ (name, entry) ∈ f.entries ∧
    entry.content? = some s.content
  path : s.path = directory.child name
  format : ((Path.splitName name).2, s.format) ∈
    [(".json", Format.json), (".yml", .yaml), (".yaml", .yaml)]
  locale : s.locale = Locale.normalize (Path.splitName name).1

theorem Entry.source?_eq_some {directory : Path} {name : String} {entry : Entry} {s : Source} :
    entry.source? directory name = some s ↔
      entry.content? = some s.content ∧ s.path = directory.child name ∧
        ((Path.splitName name).2, s.format) ∈
          [(".json", Format.json), (".yml", .yaml), (".yaml", .yaml)] ∧
        s.locale = Locale.normalize (Path.splitName name).1 := by
  simp only [source?, Format.ofName?, Option.bind_eq_some_iff, Option.map_eq_some_iff,
    Format.ofEnding?_eq_some]
  constructor
  · rintro ⟨format, hf, content, hc, rfl⟩
    exact ⟨hc, rfl, hf, rfl⟩
  · rintro ⟨hc, path, hf, locale⟩
    refine ⟨s.format, hf, s.content, hc, ?_⟩
    rw [source, ← path, ← locale]

/-- The resource files of a directory in the order of their names; a directory that does not exist
has none. -/
structure Listing (fs : FileSystem) (directory : Path) where
  files : List Source
  mem_files : ∀ s, s ∈ files ↔ ∃ name, s.IsFile fs directory name
  ordered : files.Pairwise fun a b => a.path.fileName < b.path.fileName

/-- The files of a directory, hidden or not. -/
def Folder.sources (f : Folder) (directory : Path) : List Source :=
  f.inOrder.filterMap fun e => e.2.source? directory e.1

theorem Folder.sources_ordered (f : Folder) (directory : Path) :
    (f.sources directory).Pairwise fun a b => a.path.fileName < b.path.fileName := by
  refine List.pairwise_filterMap.mpr (f.inOrder_increasing.imp ?_)
  intro e other hlt s hs s' hs'
  obtain ⟨-, path, -⟩ := Entry.source?_eq_some.mp hs
  obtain ⟨-, path', -⟩ := Entry.source?_eq_some.mp hs'
  rwa [path, path', Path.fileName_child, Path.fileName_child]

def listing (fs : FileSystem) (directory : Path) : Listing fs directory where
  files := (fs.place directory).folder?.elim [] (·.sources directory)
  mem_files := by
    intro s
    cases h : (fs.place directory).folder? with
    | none =>
      simp only [Option.elim_none, List.not_mem_nil, false_iff]
      rintro ⟨name, ⟨f, entry, there, -⟩, -⟩
      cases h.symm.trans there
    | some f =>
      simp only [Option.elim_some, Folder.sources, List.mem_filterMap, Folder.mem_inOrder,
        Entry.source?_eq_some]
      constructor
      · rintro ⟨e, there, content, path, format, locale⟩
        exact ⟨e.1, ⟨f, e.2, h, there, content⟩, path, format, locale⟩
      · rintro ⟨name, ⟨f', entry, h', there, content⟩, path, format, locale⟩
        cases h.symm.trans h'
        exact ⟨(name, entry), there, content, path, format, locale⟩
  ordered := by
    cases (fs.place directory).folder? with
    | none => exact List.Pairwise.nil
    | some f => exact f.sources_ordered directory

/-- The resource files of directories, directory by directory. -/
def filesOf (fs : FileSystem) (directories : List Path) : List Source :=
  directories.flatMap fun directory => (listing fs directory).files

/-! ## The route of a load -/

/-- The messages of a file, unless the system refuses. -/
def Visit.read : Visit → Except LoadError Messages
  | .file s => s.read
  | .refusal reason => .error (.system reason)

def Visit.source? : Visit → Option Source
  | .file s => some s
  | .refusal _ => none

/-- The refusal in front of a file that is hidden. -/
def Entry.refusals (name : String) (entry : Entry) : List Visit :=
  match Format.ofName? name, entry with
  | some _, .hidden _ reason => [.refusal reason]
  | _, _ => []

/-- What stands in the way of a load under a name: a refusal, a file, or a file behind a refusal. -/
def Entry.route (directory : Path) (name : String) (entry : Entry) : List Visit :=
  entry.refusals name ++ (entry.source? directory name).toList.map .file

def Folder.route (f : Folder) (directory : Path) : List Visit :=
  f.inOrder.flatMap fun e => e.2.route directory e.1

/-- A directory that is closed is behind a refusal. -/
def Place.route (place : Place) (directory : Path) : List Visit :=
  match place with
  | .missing => []
  | .folder f => f.route directory
  | .closed behind reason => .refusal reason :: behind.elim [] (·.route directory)

def route (fs : FileSystem) (directories : List Path) : List Visit :=
  directories.flatMap fun directory => (fs.place directory).route directory

theorem Entry.sources_route (directory : Path) (name : String) (entry : Entry) :
    (entry.route directory name).filterMap Visit.source? =
      (entry.source? directory name).toList := by
  have none : (entry.refusals name).filterMap Visit.source? = [] := by
    unfold refusals
    split <;> rfl
  rw [route, List.filterMap_append, none, List.nil_append]
  cases entry.source? directory name <;> rfl

theorem Folder.sources_route (f : Folder) (directory : Path) :
    (f.route directory).filterMap Visit.source? = f.sources directory := by
  rw [route, sources, List.filterMap_flatMap, List.filterMap_eq_flatMap_toList]
  exact List.flatMap_congr fun e _ => Entry.sources_route directory e.1 e.2

/-- The files on the route are the resource files of the directories. -/
theorem sources_route (fs : FileSystem) (directories : List Path) :
    (route fs directories).filterMap Visit.source? = filesOf fs directories := by
  rw [route, filesOf, List.filterMap_flatMap]
  refine List.flatMap_congr fun directory _ => ?_
  change ((fs.place directory).route directory).filterMap Visit.source? =
    (fs.place directory).folder?.elim [] (·.sources directory)
  cases fs.place directory with
  | missing => rfl
  | folder f => exact f.sources_route directory
  | closed behind reason =>
    cases behind with
    | none => rfl
    | some f => exact f.sources_route directory

/-! ## Loading along a route -/

theorem loadVisits_cons (bundles : Table Messages) (v : Visit) (rest : List Visit) :
    loadVisits bundles (v :: rest) = v.read.bind fun messages =>
      loadVisits (v.source?.elim bundles fun s => addTo bundles s.locale messages) rest := by
  cases v with
  | refusal reason => rfl
  | file s =>
    rw [loadVisits]
    cases h : s.read <;> simp [Visit.read, Visit.source?, h, bind, Except.bind]

theorem loadVisits_append (bundles : Table Messages) (earlier later : List Visit) :
    loadVisits bundles (earlier ++ later) =
      (loadVisits bundles earlier).bind fun bundles => loadVisits bundles later := by
  induction earlier generalizing bundles with
  | nil => rfl
  | cons v earlier ih =>
    rw [List.cons_append, loadVisits_cons, loadVisits_cons]
    cases v.read with
    | error e => rfl
    | ok messages => exact ih _

theorem loadVisits_isOk (bundles : Table Messages) (visits : List Visit) :
    (∃ loaded, loadVisits bundles visits = .ok loaded) ↔
      ∀ v ∈ visits, ∃ messages, v.read = .ok messages := by
  induction visits generalizing bundles with
  | nil => simp [loadVisits]
  | cons v visits ih =>
    rw [List.forall_mem_cons, loadVisits_cons]
    cases h : v.read with
    | error e => simp [Except.bind]
    | ok messages => simpa [Except.bind] using ih _

/-- A load fails as the first thing does that cannot be read. -/
theorem loadVisits_eq_error (bundles : Table Messages) {visits : List Visit} {e : LoadError} :
    loadVisits bundles visits = .error e ↔
      ∃ before v after, visits = before ++ v :: after ∧
        (∀ good ∈ before, ∃ messages, good.read = .ok messages) ∧ v.read = .error e := by
  constructor
  · intro h
    induction visits generalizing bundles with
    | nil => cases h
    | cons v visits ih =>
      rw [loadVisits_cons] at h
      cases hv : v.read with
      | error fault =>
        rw [hv] at h
        cases h
        exact ⟨[], v, visits, rfl, by simp, hv⟩
      | ok messages =>
        rw [hv] at h
        obtain ⟨before, bad, after, rfl, good, hb⟩ := ih _ h
        exact ⟨v :: before, bad, after, rfl, List.forall_mem_cons.mpr ⟨⟨messages, hv⟩, good⟩, hb⟩
  · rintro ⟨before, v, after, rfl, good, hv⟩
    obtain ⟨loaded, hl⟩ := (loadVisits_isOk bundles before).mpr good
    rw [loadVisits_append, hl]
    simp only [Except.bind, loadVisits_cons, hv]

/-- A load does not tell one route from another. -/
def LoadsAlike (visits others : List Visit) : Prop :=
  ∀ bundles, loadVisits bundles visits = loadVisits bundles others

theorem LoadsAlike.append {visits others later laterOthers : List Visit}
    (h : LoadsAlike visits others) (h' : LoadsAlike later laterOthers) :
    LoadsAlike (visits ++ later) (others ++ laterOthers) := by
  intro bundles
  rw [loadVisits_append, loadVisits_append, h bundles]
  cases loadVisits bundles others with
  | error e => rfl
  | ok loaded => exact h' loaded

/-- What is behind a refusal does not matter. -/
theorem loadsAlike_refusal (reason : String) (behind : List Visit) :
    LoadsAlike [.refusal reason] (.refusal reason :: behind) := fun _ => rfl

theorem Entry.loadsAlike (directory : Path) (name : String) (entry : Entry) :
    LoadsAlike (entry.visits directory name) (entry.route directory name) := by
  unfold visits route refusals source?
  cases Format.ofName? name with
  | none => exact fun _ => rfl
  | some format =>
    cases entry with
    | file content => exact fun _ => rfl
    | other => exact fun _ => rfl
    | hidden isFile reason => exact loadsAlike_refusal reason _

theorem Folder.loadsAlike (f : Folder) (directory : Path) :
    LoadsAlike (f.visits directory) (f.route directory) := by
  rw [visits, route]
  induction f.inOrder with
  | nil => exact fun _ => rfl
  | cons e entries ih => exact (Entry.loadsAlike directory e.1 e.2).append ih

namespace Loader

theorem loadDirectories_eq (fs : FileSystem) (bundles : Table Messages) (directories : List Path) :
    (loadDirectories fs bundles directories).2 = loadVisits bundles (route fs directories) := by
  induction directories generalizing bundles with
  | nil => rfl
  | cons directory directories ih =>
    rw [route, List.flatMap_cons, ← route, loadVisits_append, loadDirectories]
    cases fs.place directory with
    | missing => exact ih bundles
    | closed behind reason => rfl
    | folder f =>
      rw [Place.route, ← f.loadsAlike directory bundles]
      dsimp only
      cases loadVisits bundles (f.visits directory) with
      | error e => rfl
      | ok bundles => exact ih bundles

/-- A load has the result of its route. Without directories there is none. -/
theorem result_load (l : Loader) (fs : FileSystem) :
    (l.load fs).2.2 = (loadVisits {} (route fs l.directories)).map fun _ => () := by
  rw [← loadDirectories_eq, load]
  by_cases h : l.directories.isEmpty
  · rw [if_pos h, List.isEmpty_iff.mp h]
    rfl
  · rw [if_neg h]
    obtain ⟨events, result⟩ := loadDirectories fs {} l.directories
    cases result <;> rfl

theorem load_of_no_directories {l : Loader} (h : l.directories = []) (fs : FileSystem) :
    (l.load fs).1 = l := by
  rw [load, if_pos (List.isEmpty_iff.mpr h)]

theorem load_of_ok {l : Loader} {fs : FileSystem} {bundles : Table Messages}
    (h : l.directories ≠ []) (hb : loadVisits {} (route fs l.directories) = .ok bundles) :
    (l.load fs).1 = { l with bundles := bundles } := by
  rw [← loadDirectories_eq] at hb
  rw [load, if_neg (mt List.isEmpty_iff.mp h)]
  cases hd : loadDirectories fs {} l.directories with
  | mk events result =>
    rw [hd] at hb
    cases hb
    rfl

end Loader

end Resource

end RequestLocale
