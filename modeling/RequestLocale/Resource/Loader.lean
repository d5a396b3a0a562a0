import RequestLocale.Log
import RequestLocale.Resource.FileSystem
import RequestLocale.Text.Blank
import RequestLocale.Text.LowerCase
import RequestLocale.Text.Order

/-! The bundles of messages, one for each locale. They are loaded from directories, a later file
replacing the messages of earlier ones key by key, and more can be added. A load that fails leaves
the loader as it was (`load_of_error`). -/
namespace RequestLocale.Locale

/-! Spellings that differ in case, in the blanks around them or in the use of hyphens and
underscores name the same locale. -/

def normalizeChars (cs : List Char) : List Char :=
  (Text.lower (Text.trim cs)).map fun c => if c = '-' then '_' else c

def normalize (name : String) : String := String.ofList (normalizeChars name.toList)

end RequestLocale.Locale

namespace RequestLocale.Resource

structure Loader where
  directories : List Path
  defaultLocale : String
  bundles : Table Messages

inductive LoadError where
  /-- A file is at fault. -/
  | file (path : String) (fault : FileFault)
  /-- The system does not let a directory be listed or a name be looked at. -/
  | system (reason : String)
  /-- A file uses marks in a way that is not foreseen. -/
  | unforeseen (e : Yaml.Error)
  /-- The messages of a file have no flat form. -/
  | flatten (e : Messages.FlattenError)
  deriving DecidableEq, Repr

/-- A file that is to be loaded, with the locale it belongs to. -/
structure Source where
  path : Path
  format : Format
  locale : String
  content : Except String (List UInt8)

/-- The messages of a file. -/
def Source.read (s : Source) : Except LoadError Messages :=
  match readRecord s.format s.content with
  | .error fault =>
    match fault with
    | .yaml e => .error (if e.isExpected then .file s.path.text (.yaml e) else .unforeseen e)
    | fault => .error (.file s.path.text fault)
  | .ok entries => (Messages.flatten entries "").mapError .flatten

/-- What a load comes upon in a directory. -/
inductive Visit where
  | file (s : Source)
  | refusal (reason : String)

/-- A file in a directory by its name. -/
def source (directory : Path) (name : String) (format : Format)
    (content : Except String (List UInt8)) : Source :=
  ⟨directory.child name, format, Locale.normalize (Path.splitName name).1, content⟩

/-- Only names with a known ending are looked at. -/
def Entry.visits (directory : Path) (name : String) (entry : Entry) : List Visit :=
  match Format.ofName? name, entry with
  | some format, .file content => [.file (source directory name format content)]
  | some _, .hidden _ reason => [.refusal reason]
  | some _, .other | none, _ => []

/-- What a load comes upon in a directory that it can list. -/
def Folder.visits (f : Folder) (directory : Path) : List Visit :=
  f.inOrder.flatMap fun e => e.2.visits directory e.1

/-- Writes messages into the bundle of a locale, which is opened if it is new. -/
def addTo (bundles : Table Messages) (locale : String) (messages : Messages) : Table Messages :=
  bundles.insert locale (((bundles.get? locale).getD {}).merge messages)

/-- Loads files one after the other, up to the first that fails or is refused. -/
def loadVisits (bundles : Table Messages) : List Visit → Except LoadError (Table Messages)
  | [] => .ok bundles
  | .refusal reason :: _ => .error (.system reason)
  | .file s :: rest => do
    let messages ← s.read
    loadVisits (addTo bundles s.locale messages) rest

namespace Loader

open Log

def skipped (directory : Path) : Event :=
  ⟨.warning, "locale_resource_skipped", [("path", .text directory.text)]⟩

/-- Loads directories one after the other; one that does not exist is reported and passed over. -/
def loadDirectories (fs : FileSystem) (bundles : Table Messages) :
    List Path → List Event × Except LoadError (Table Messages)
  | [] => ([], .ok bundles)
  | directory :: rest =>
    match fs.place directory with
    | .missing =>
      let (events, result) := loadDirectories fs bundles rest
      (skipped directory :: events, result)
    | .closed _ reason => ([], .error (.system reason))
    | .folder f =>
      match loadVisits bundles (f.visits directory) with
      | .error e => ([], .error e)
      | .ok bundles => loadDirectories fs bundles rest

/-- The names of the locales with a bundle, in order. -/
def locales (l : Loader) : List String := Text.sorted l.bundles.keys

def loaded (l : Loader) : Event :=
  ⟨.info, "locale_resources_loaded",
    [("locales", texts l.locales), ("dirs", texts (l.directories.map Path.text))]⟩

/-- Replaces the bundles by what the directories hold now. Without directories nothing happens,
and after a failure the bundles are as before. -/
def load (l : Loader) (fs : FileSystem) : Loader × List Event × Except LoadError Unit :=
  if l.directories.isEmpty then (l, [], .ok ())
  else
    match loadDirectories fs {} l.directories with
    | (events, .error e) => (l, events, .error e)
    | (events, .ok bundles) =>
      let l := { l with bundles := bundles }
      (l, events ++ [l.loaded], .ok ())

theorem load_of_error {l : Loader} {fs : FileSystem} {e : LoadError}
    (h : (l.load fs).2.2 = .error e) : (l.load fs).1 = l := by
  unfold load at h ⊢
  split
  · rfl
  · rename_i hd
    rw [if_neg hd] at h
    split at h
    · rfl
    · simp at h

/-- A loader for directories, with what they hold. -/
def ofDirectories (directories : List String) (defaultLocale : String) (fs : FileSystem) :
    List Event × Except LoadError Loader :=
  let (l, events, result) := load ⟨directories.map Path.parse, defaultLocale, {}⟩ fs
  (events, result.map fun _ => l)

/-- Adds messages to the bundle of a locale. The bundle is opened even if the messages have no
flat form. -/
def addBundle (l : Loader) (locale : String) (entries : Entries) :
    Loader × Except Messages.FlattenError Unit :=
  let name := Locale.normalize locale
  match Messages.flatten entries "" with
  | .ok messages => ({ l with bundles := addTo l.bundles name messages }, .ok ())
  | .error e => ({ l with bundles := addTo l.bundles name {} }, .error e)

/-- A loader without directories, with the given bundles. -/
def ofBundles (bundles : List (String × Entries)) (defaultLocale : String) :
    Except Messages.FlattenError Loader :=
  bundles.foldlM (fun l (locale, entries) =>
      let (l, result) := l.addBundle locale entries
      result.map fun _ => l)
    ⟨[], defaultLocale, {}⟩

def hasLocale (l : Loader) (locale : String) : Bool := l.bundles.contains (Locale.normalize locale)

/-- The name of the bundle that serves a locale: its own, else that of the default locale. -/
def serving? (l : Loader) (locale : String) : Option String :=
  [Locale.normalize locale, Locale.normalize l.defaultLocale].find? l.bundles.contains

/-- The messages for a locale; without a bundle to serve it there are none. -/
def get (l : Loader) (locale : String) : Messages :=
  ((l.serving? locale).bind l.bundles.get?).getD {}

/-- Whether two locales are served by one bundle. -/
def servesSame (l : Loader) (a b : String) : Bool :=
  (l.serving? a).isSome && l.serving? a == l.serving? b

end Loader

end RequestLocale.Resource
