import RequestLocale.Table

/-! What is remembered for one request: its locale, which is written once at most, and the messages
that its texts are taken from. -/
namespace RequestLocale

/-- The messages that are attached to a request: a bundle of the loader, with everything added to
it later, or messages of their own. -/
inductive Attached where
  | bundle (locale : String)
  | given (messages : Messages)

structure LocaleState where
  locale : Option String
  attached : Option Attached

namespace LocaleState

def empty : LocaleState := ⟨none, none⟩

def isResolved (s : LocaleState) : Bool := s.locale.isSome

/-- Remembers a locale unless one is remembered already. -/
def remember (s : LocaleState) (locale : String) : LocaleState :=
  match s.locale with
  | none => { s with locale := some locale }
  | some _ => s

/-- The locale that is remembered after `remember`. -/
def remembered (s : LocaleState) (locale : String) : String := s.locale.getD locale

theorem locale_remember (s : LocaleState) (locale : String) :
    (s.remember locale).locale = some (s.remembered locale) := by
  unfold remember remembered
  cases h : s.locale <;> simp [h]

theorem remember_of_locale {s : LocaleState} {memo : String} (h : s.locale = some memo)
    (locale : String) : s.remember locale = s := by
  simp [remember, h]

@[simp] theorem attached_remember (s : LocaleState) (locale : String) :
    (s.remember locale).attached = s.attached := by
  unfold remember
  cases s.locale <;> rfl

def attach (s : LocaleState) (attached : Option Attached) : LocaleState :=
  { s with attached := attached }

/-- The remembered locale, if it is not empty. -/
def known? (s : LocaleState) : Option String := s.locale.filter (!·.isEmpty)

end LocaleState

end RequestLocale
