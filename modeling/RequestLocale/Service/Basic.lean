import RequestLocale.Ambient
import RequestLocale.Service.Shipped

/-! The service: the shipped messages, the bundles of an application over them, and pages that show
them. -/
namespace RequestLocale

structure Service where
  locales : Locales
  /-- Pages that only fail, by the word in their path. -/
  failing : Table Failure

namespace Service

open Resource

/-- The shipped messages with those of the directories of the settings over them. -/
def loaderFor (s : Settings) (fs : FileSystem) : Except LoadError Loader :=
  let directories := s.directories.paths.map Path.parse
  (Loader.loadDirectories fs shipped directories).2.map fun bundles =>
    ⟨directories, s.defaultLocale, bundles⟩

/-- A service with given bundles, or with those that the settings name. -/
def create (s : Settings) (given : Option Loader) (failing : Table Failure) (fs : FileSystem) :
    Except LoadError Service :=
  match given with
  | some loader => .ok ⟨⟨s, loader⟩, failing⟩
  | none => (loaderFor s fs).map fun loader => ⟨⟨s, loader⟩, failing⟩

open Log

/-- What is reported between the start of a service and its end. -/
def lifetime (s : Service) : List Event :=
  let settings := s.locales.settings
  [⟨.info, "application_startup",
    [("environment", .text settings.deployment.name), ("debug", .bool settings.debug),
     ("default_locale", .text settings.defaultLocale),
     ("locales", texts s.locales.loader.locales)]⟩,
   ⟨.info, "application_shutdown", []⟩]

end Service

end RequestLocale
