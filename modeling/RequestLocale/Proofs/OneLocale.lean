import RequestLocale.Proofs.Accepted
import RequestLocale.Proofs.Deed

/-! # One locale for each request

While a request is served its code acts and its client may come to say something else. Whatever
happens, resolutions that return give one and the same locale (`Session.one_locale`): the memory is
written at most once, and what a resolution answers is what is remembered. The cookie is a different
matter, since a remembered empty locale and a refused cookie both send the next resolution the whole
way again. -/
namespace RequestLocale

open Http.Cookie (Write)

/-! ## Turns -/

/-- What a client may come to say; a channel hears the part that is meant for its kind. -/
structure Change where
  query : String
  headers : Http.Headers
  parameters : Table String
  cookies : Table String
  languages : Option AcceptLanguage.Outcome

namespace Channel

def hear (n : Change) : Channel → Channel
  | .http e => .http { e with query := n.query, headers := n.headers }
  | .scripted c => .scripted
      { c with parameters := n.parameters, cookies := n.cookies, languages := n.languages }
  | c => c

/-- Says whether the response has started. -/
def flag (started : Bool) : Channel → Channel
  | .http e => .http { e with started := started }
  | .scripted c => .scripted { c with started := started }
  | c => c

end Channel

namespace Session

/-- Something that happens while a request is served. -/
inductive Turn where
  | act (a : Action)
  | hear (n : Change)
  | flag (started : Bool)

def withChannel (s : Session) (c : Channel) : Session :=
  s.withContext { s.layer.context with channel := c }

def turn (s : Session) : Turn → Session
  | .act a => (s.perform a).state
  | .hear n => s.withChannel (s.layer.context.channel.hear n)
  | .flag started => s.withChannel (s.layer.context.channel.flag started)

/-- The session after turns in order. -/
def play (s : Session) (turns : List Turn) : Session := turns.foldl turn s

/-- A session over a channel under settings, before anything has been done. -/
def opening (s : Settings) (c : Channel) : Session :=
  ⟨⟨⟨s, ⟨[], s.defaultLocale, {}⟩⟩, .ofChannel c⟩, false, .empty⟩

def settings (s : Session) : Settings := s.layer.locales.settings

/-- The locale that is remembered. -/
def memo (s : Session) : Option String := s.layer.context.state.locale

def isCapable (s : Session) : Bool := s.layer.context.channel.isCapable

def hasStarted (s : Session) : Bool := s.layer.context.channel.started

/-- Whether a turn begins by resolving the locale. -/
def resolves (s : Session) : Turn → Bool
  | .act a => (s.deed a).resolves
  | _ => false

/-- The outcomes of all resolutions in a run. -/
def resolutions (s : Session) : List Turn → List (Except CallError String)
  | [] => []
  | t :: turns =>
    (if s.resolves t then [(s.layer.context.resolve s.settings).result] else []) ++
      (s.turn t).resolutions turns

/-- The cookies that the resolver sets in a run, the refused ones too. -/
def resolverCookies (s : Session) : List Turn → List Write
  | [] => []
  | t :: turns =>
    (if s.resolves t then (s.layer.context.resolverCookie? s.settings).toList else []) ++
      (s.turn t).resolverCookies turns

/-! ## What a turn keeps -/

/-- A turn that resolves the locale leaves what the resolution leaves. -/
theorem turn_resolving {s : Session} {t : Turn} (h : s.resolves t = true) :
    (s.turn t).layer.context.channel = (s.layer.context.resolve s.settings).state.channel ∧
      (s.turn t).memo = (s.layer.context.resolve s.settings).state.state.locale := by
  cases t with
  | act a =>
    have hf := (s.follows_perform a).layer
    cases hd : s.deed a with
    | resolving => rw [hd] at hf; exact ⟨hf.channel, hf.locale⟩
    | _ => simp [resolves, hd, Deed.resolves] at h
  | hear n => cases h
  | flag started => cases h

@[simp] theorem settings_turn (s : Session) (t : Turn) : (s.turn t).settings = s.settings := by
  cases t with
  | act a => exact (s.follows_perform a).layer.settings
  | hear n => rfl
  | flag started => rfl

@[simp] theorem isCapable_turn (s : Session) (t : Turn) : (s.turn t).isCapable = s.isCapable := by
  cases t with
  | act a =>
    unfold isCapable
    rw [turn, (s.follows_perform a).layer.channel]
    exact Deed.isCapable_apply _ _ _
  | hear n =>
    obtain ⟨⟨ls, ⟨channel, state⟩⟩, isCurrent, outer⟩ := s
    cases channel <;> rfl
  | flag started =>
    obtain ⟨⟨ls, ⟨channel, state⟩⟩, isCurrent, outer⟩ := s
    cases channel <;> rfl

theorem memo_turn {s : Session} {memo : String} (h : s.memo = some memo) (t : Turn) :
    (s.turn t).memo = some memo := by
  cases t with
  | act a =>
    unfold Session.memo
    rw [turn, (s.follows_perform a).layer.locale]
    exact Deed.locale_apply h _ _
  | hear n => exact h
  | flag started => exact h

theorem memo_play {s : Session} {memo : String} (h : s.memo = some memo) (turns : List Turn) :
    (s.play turns).memo = some memo := by
  induction turns generalizing s with
  | nil => exact h
  | cons t turns ih => exact ih (memo_turn h t)

/-- What a resolution answers in a run is remembered at its end. -/
theorem memo_play_of_mem_resolutions {s : Session} (hc : s.isCapable = true) {turns : List Turn}
    {locale : String} (h : .ok locale ∈ s.resolutions turns) :
    (s.play turns).memo = some locale := by
  induction turns generalizing s with
  | nil => cases h
  | cons t turns ih =>
    rcases List.mem_append.mp h with h | h
    · cases hr : s.resolves t with
      | false => rw [hr] at h; cases h
      | true =>
        rw [hr] at h
        have hok := (List.mem_singleton.mp h).symm
        have hmemo : (s.turn t).memo = some locale := by
          rw [(turn_resolving hr).2]
          exact Context.locale_of_resolve hc hok
        exact memo_play hmemo turns
    · exact ih ((s.isCapable_turn t).trans hc) h

/-- **One locale for each request.** Resolutions that return agree, and what is remembered once is
remembered for good. -/
theorem one_locale {s : Session} (hc : s.isCapable = true) (turns : List Turn) :
    (∃ locale, ∀ answer, .ok answer ∈ s.resolutions turns → answer = locale) ∧
      ∀ before after memo, turns = before ++ after →
        (s.play before).memo = some memo → (s.play turns).memo = some memo := by
  constructor
  · cases hm : (s.play turns).memo with
    | none =>
      refine ⟨"", fun answer h => ?_⟩
      rw [memo_play_of_mem_resolutions hc h] at hm
      cases hm
    | some locale =>
      refine ⟨locale, fun answer h => ?_⟩
      rw [memo_play_of_mem_resolutions hc h] at hm
      exact Option.some.inj hm
  · rintro before after memo rfl hm
    rw [play, List.foldl_append]
    exact memo_play hm after

/-- A request whose client asks for a spelling of the empty locale. -/
def askingForEmpty : Session :=
  opening (.withAliases [("en", "")]) (.http (.ofRequest "locale=en" []))

/-- Two resolutions, with another locale put into the memory and asked for between them. -/
def changingTurns : List Turn :=
  [.act .getLocale, .act (.remember "fr"), .hear ⟨"locale=de", [], {}, {}, none⟩, .act .getLocale]

theorem askingForEmpty_one_locale :
    askingForEmpty.isCapable = true ∧
    (askingForEmpty.resolutions changingTurns).map (·.toOption) = [some "", some ""] ∧
    (∃ locale, ∀ answer, .ok answer ∈ askingForEmpty.resolutions changingTurns →
      answer = locale) ∧
    (askingForEmpty.play changingTurns).memo = some "" := by
  have capable : askingForEmpty.isCapable = true := rfl
  obtain ⟨agree, keeps⟩ := one_locale capable changingTurns
  refine ⟨capable, by decide +kernel, agree, ?_⟩
  exact keeps [.act .getLocale] (changingTurns.drop 1) "" rfl (by decide +kernel)

end Session

end RequestLocale
