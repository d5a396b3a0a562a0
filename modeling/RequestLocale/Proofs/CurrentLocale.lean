import Mathlib.Data.List.DropRight
import Mathlib.Data.List.Induction
import RequestLocale.Proofs.Delivery
import RequestLocale.Proofs.Nesting

/-! # The current locale outside of requests

What the locale is outside of requests hangs on three things with histories of their own: the scopes
that are open, what has been installed, and the settings that were kept when they were first read.
Each of them is found again by looking through the moves so far (`Innermost`, `lastInstalled`,
`firstRead`), and together they settle the answer (`Ambient.getLocale_after`). -/
namespace RequestLocale.Ambient

/-- A process that has done nothing yet. -/
def ofEnvironment (environment : Table String) : Ambient := ⟨environment, none, none, []⟩

/-- A move of code outside of requests: it enters scopes and leaves them, and holds no context. -/
def Move.IsPlain : Move → Prop
  | .call (.use ..) | .call (.pass ..) => False
  | .call _ | .leave => True
  | .enter l => ∃ ls locale, l = .scope ls locale

/-! ## The history of what is kept -/

/-- A move, and what was there before it. -/
abbrev Moment := Ambient × Move

def moments (a : Ambient) : List Move → List Moment
  | [] => []
  | m :: moves => (a, m) :: moments (a.move m) moves

theorem moments_concat (a : Ambient) (moves : List Move) (m : Move) :
    a.moments (moves ++ [m]) = a.moments moves ++ [(a.after moves, m)] := by
  induction moves generalizing a with
  | nil => rfl
  | cons first moves ih => exact congrArg _ (ih (a.move first))

theorem after_concat (a : Ambient) (moves : List Move) (m : Move) :
    a.after (moves ++ [m]) = (a.after moves).move m := by
  rw [after_append]
  rfl

namespace Moment

/-- What a moment installs; taking out what is installed counts as well. -/
def installs : Moment → Option (Option Locales)
  | (a, .call (.install fs settings loader)) =>
    (a.installWith fs settings loader).result.toOption.map some
  | (_, .call .uninstall) => some none
  | _ => none

/-- Whether the settings of the environment are asked for: by name, for want of settings to install,
or for want of anything else that has a locale. -/
def asks : Moment → Bool
  | (_, .call .settings) | (_, .call (.install _ none _)) => true
  | (a, .call .getLocale) => a.layers.isEmpty && a.installed.isNone
  | _ => false

/-- The settings of the environment at a moment that asks for them, if they can be read. -/
def read (m : Moment) : Option Settings :=
  if m.asks then (Settings.build [] m.1.environment).toOption else none

def forgets : Moment → Bool
  | (_, .call .forget) => true
  | _ => false

end Moment

/-- What was installed last and has not been taken out. -/
def lastInstalled (ms : List Moment) : Option Locales := (ms.reverse.findSome? Moment.installs).join

/-- The settings that were read first since they were last forgotten. -/
def firstRead (ms : List Moment) : Option Settings :=
  (ms.rtakeWhile fun m => !m.forgets).findSome? Moment.read

theorem lastInstalled_concat (ms : List Moment) (m : Moment) :
    lastInstalled (ms ++ [m]) = m.installs.getD (lastInstalled ms) := by
  simp only [lastInstalled, List.reverse_append, List.reverse_singleton, List.singleton_append,
    List.findSome?_cons]
  cases m.installs <;> rfl

theorem firstRead_concat (ms : List Moment) (m : Moment) :
    firstRead (ms ++ [m]) = if m.forgets then none else (firstRead ms).or m.read := by
  rw [firstRead, List.rtakeWhile_concat]
  cases m.forgets <;> simp [firstRead, List.findSome?_append]

/-- Asking for the settings keeps what can be read, and changes nothing else. -/
theorem settings_eq (a : Ambient) :
    a.settings.1 = { a with cached := a.cached.or (Settings.build [] a.environment).toOption } ∧
      a.settings.2.toOption = a.cached.or (Settings.build [] a.environment).toOption := by
  obtain ⟨environment, cached, installed, layers⟩ := a
  simp only [settings]
  cases cached with
  | some s => exact ⟨rfl, rfl⟩
  | none => cases Settings.build [] environment <;> exact ⟨rfl, rfl⟩

/-- What asking for the locale leaves: the current translator has been called, or else the settings
have been asked for if nothing is installed. -/
theorem state_getLocale (a : Ambient) :
    a.getLocale.state =
      match a.layers, a.installed with
      | l :: outer, _ => { a with layers := (l.run Locales.getLocale).state :: outer }
      | [], some _ => a
      | [], none => a.settings.1 := by
  obtain ⟨environment, cached, installed, layers⟩ := a
  cases layers with
  | cons l outer => rfl
  | nil => cases installed <;> rfl

theorem state_translate (a : Ambient) (key : Option String) (args : List Value) :
    (a.translate key args).state =
      match key, a.layers with
      | some key, l :: outer =>
        { a with layers := (l.run fun ls ctx => ls.translate ctx (some key) args).state :: outer }
      | _, _ => a := by
  obtain ⟨environment, cached, installed, layers⟩ := a
  cases key <;> cases layers <;> rfl

/-- A move installs what it installs at its moment. -/
theorem installed_move (a : Ambient) {m : Move} (plain : m.IsPlain) :
    (a.move m).installed = (Moment.installs (a, m)).getD a.installed := by
  cases m with
  | enter | leave => rfl
  | call c =>
    cases c with
    | use | pass => cases plain
    | install fs settings loader =>
      have asked : (if settings.isSome then a else a.settings.1).installed = a.installed := by
        cases settings with
        | some s => rfl
        | none => simp only [Option.isSome_none, settings_eq]; rfl
      show (a.installWith fs settings loader).state.installed = _
      rw [state_installWith, Moment.installs]
      cases (a.installWith fs settings loader).result.toOption with
      | some ls => rfl
      | none => exact asked
    | settings =>
      show a.settings.1.installed = a.installed
      rw [a.settings_eq.1]
    | getLocale =>
      show a.getLocale.state.installed = a.installed
      rw [state_getLocale]
      split
      · rfl
      · rfl
      · rw [a.settings_eq.1]
    | translate key args =>
      show (a.translate key args).state.installed = a.installed
      rw [state_translate]
      split <;> rfl
    | setVariable name value => cases value <;> rfl
    | uninstall | forget | isBound | addLocale => rfl

/-- A move keeps the settings that can be read at its moment, unless some are kept already. -/
theorem cached_move (a : Ambient) {m : Move} (plain : m.IsPlain) :
    (a.move m).cached =
      if Moment.forgets (a, m) then none else a.cached.or (Moment.read (a, m)) := by
  have idle : a.cached = a.cached.or none := (Option.or_none).symm
  cases m with
  | enter | leave => exact idle
  | call c =>
    cases c with
    | use | pass => cases plain
    | install fs settings loader =>
      have asked : (if settings.isSome then a else a.settings.1).cached =
          a.cached.or (Moment.read (a, .call (.install fs settings loader))) := by
        cases settings with
        | some s => exact idle
        | none => exact congrArg cached a.settings_eq.1
      show (a.installWith fs settings loader).state.cached = _
      rw [state_installWith]
      cases (a.installWith fs settings loader).result.toOption with
      | some ls => exact asked
      | none => exact asked
    | settings => exact congrArg cached a.settings_eq.1
    | getLocale =>
      show a.getLocale.state.cached = a.cached.or (Moment.read (a, .call .getLocale))
      rw [state_getLocale, Moment.read, Moment.asks]
      split
      · rename_i found
        simp [found]
      · rename_i found taken
        simp [found, taken]
      · rename_i found taken
        simp [found, taken, a.settings_eq.1]
    | translate key args =>
      show (a.translate key args).state.cached = _
      rw [state_translate]
      split <;> exact idle
    | setVariable name value => cases value <;> exact idle
    | forget => rfl
    | uninstall | isBound | addLocale => exact idle

section

variable (environment : Table String) {moves : List Move}

theorem installed_after (plain : ∀ m ∈ moves, m.IsPlain) :
    ((ofEnvironment environment).after moves).installed =
      lastInstalled ((ofEnvironment environment).moments moves) := by
  induction moves using List.reverseRecOn with
  | nil => rfl
  | append_singleton moves m ih =>
    rw [after_concat, moments_concat, lastInstalled_concat,
      installed_move _ (plain m (List.mem_append_right _ (List.mem_singleton_self m))),
      ih fun m' hm => plain m' (List.mem_append_left _ hm)]

theorem cached_after (plain : ∀ m ∈ moves, m.IsPlain) :
    ((ofEnvironment environment).after moves).cached =
      firstRead ((ofEnvironment environment).moments moves) := by
  induction moves using List.reverseRecOn with
  | nil => rfl
  | append_singleton moves m ih =>
    rw [after_concat, moments_concat, firstRead_concat,
      cached_move _ (plain m (List.mem_append_right _ (List.mem_singleton_self m))),
      ih fun m' hm => plain m' (List.mem_append_left _ hm)]

end

/-! ## Scopes -/

/-- Without a context at hand only the current translator is called, so one is enough. -/
theorem Balanced.plain {n k : Nat} {moves : List Move} (h : Balanced n moves)
    (plain : ∀ m ∈ moves, m.IsPlain) (hk : 0 < k) : Balanced k moves := by
  induction h generalizing k with
  | nil => exact .nil
  | @call n c later _ _ ih =>
    obtain ⟨first, rest⟩ := List.forall_mem_cons.mp plain
    refine .call ?_ (ih rest hk)
    cases c with
    | use | pass => cases first
    | getLocale | translate | isBound | addLocale => exact decide_eq_true hk
    | install | uninstall | setVariable | forget | settings => rfl
  | @layer n l inside later _ _ ih ih' =>
    have within : ∀ m ∈ inside, m.IsPlain := fun m hm => plain m (by simp [hm])
    have behind : ∀ m ∈ later, m.IsPlain := fun m hm => plain m (by simp [hm])
    exact .layer (ih within (Nat.succ_pos k)) (ih' behind hk)

/-- Leaving a scope brings back exactly what was bound before it was entered. -/
theorem Balanced.layers_release {n : Nat} {inside : List Move} (h : Balanced n inside)
    (plain : ∀ m ∈ inside, m.IsPlain) (a : Ambient) (l : Layer) :
    ((a.bind l).after inside).release.layers = a.layers :=
  (keeps_layer ((h.plain plain Nat.one_pos).keeps (a.bind l))).1.layers_eq

/-- The layer of a scope, whatever has been translated in it. -/
structure IsScope (ls : Locales) (locale : Option String) (l : Layer) : Prop where
  locales : l.locales = ls
  channel : l.context.channel = .absent
  locale : l.context.state.locale = locale

theorem isScope_scope (ls : Locales) (locale : Option String) :
    IsScope ls locale (.scope ls locale) := ⟨rfl, rfl, rfl⟩

namespace IsScope

variable {ls : Locales} {locale : Option String} {l : Layer}

/-- In a scope a resolution answers with what the scope was given, and changes nothing. -/
theorem resolve (h : IsScope ls locale l) :
    l.context.resolve l.locales.settings =
      ⟨l.context, [], .ok ((Signals.nonempty? locale).getD ls.settings.defaultLocale)⟩ := by
  obtain ⟨own, channel, state⟩ := l
  obtain ⟨rfl, channel, rfl⟩ := h
  cases channel
  unfold Context.resolve
  split
  · rename_i known
    rw [show Signals.nonempty? state.locale = _ from known]
    rfl
  · rename_i unknown _
    rw [show Signals.nonempty? state.locale = _ from unknown]
    rfl
  · rename_i told
    cases told

theorem getLocale (h : IsScope ls locale l) :
    IsScope ls locale (l.run Locales.getLocale).state := by
  have same : (l.run Locales.getLocale).state.context = l.context :=
    congrArg Step.state h.resolve
  exact ⟨h.locales, by rw [same, h.channel], by rw [same, h.locale]⟩

theorem translate (h : IsScope ls locale l) (key : String) (args : List Value) :
    IsScope ls locale (l.run fun ls ctx => ls.translate ctx (some key) args).state := by
  obtain ⟨channel, memo⟩ := l.locales.translate_eq l.context key args
  rw [h.resolve] at channel memo
  exact ⟨h.locales, channel.trans h.channel, memo.trans h.locale⟩

/-- A call without a context leaves a scope current. -/
theorem perform {a : Ambient} {outer : List Layer} (ha : a.layers = l :: outer)
    (h : IsScope ls locale l) {c : Call} (plain : (Move.call c).IsPlain) :
    ∃ l', (a.perform c).state.layers = l' :: outer ∧ IsScope ls locale l' := by
  cases c with
  | use | pass => cases plain
  | install fs settings loader =>
    exact ⟨l, (a.layers_installWith fs settings loader).trans ha, h⟩
  | settings => exact ⟨l, a.layers_settings.trans ha, h⟩
  | setVariable name value => cases value <;> exact ⟨l, ha, h⟩
  | uninstall | forget | isBound | addLocale => exact ⟨l, ha, h⟩
  | getLocale =>
    refine ⟨_, ?_, h.getLocale⟩
    show a.getLocale.state.layers = _
    rw [state_getLocale, ha]
  | translate key args =>
    cases key with
    | none => exact ⟨l, ha, h⟩
    | some key =>
      refine ⟨_, ?_, h.translate key args⟩
      show (a.translate (some key) args).state.layers = _
      rw [state_translate, ha]

theorem after {n : Nat} {inside : List Move} (balanced : Balanced n inside)
    (plain : ∀ m ∈ inside, m.IsPlain) {a : Ambient} {outer : List Layer}
    (ha : a.layers = l :: outer) (h : IsScope ls locale l) :
    ∃ l', (a.after inside).layers = l' :: outer ∧ IsScope ls locale l' := by
  induction balanced generalizing a l with
  | nil => exact ⟨l, ha, h⟩
  | call _ _ ih =>
    obtain ⟨first, rest⟩ := List.forall_mem_cons.mp plain
    obtain ⟨l', layers, scope⟩ := h.perform ha first
    exact ih rest layers scope
  | @layer n x within later balanced _ _ ih =>
    have inner : ∀ m ∈ within, m.IsPlain := fun m hm => plain m (by simp [hm])
    have behind : ∀ m ∈ later, m.IsPlain := fun m hm => plain m (by simp [hm])
    rw [List.cons_append, after_cons, after_append, after_cons]
    exact ih behind ((balanced.layers_release inner a x).trans ha) h

end IsScope

/-! ## The answer -/

/-- In an open scope the answer is what the scope was given, or else the default that it was opened
with, whatever has happened around. -/
theorem getLocale_of_innermost {moves : List Move} (plain : ∀ m ∈ moves, m.IsPlain) {ls : Locales}
    {locale : Option String} (h : Innermost moves (.scope ls locale)) (a : Ambient) :
    (a.after moves).getLocale.result =
      .ok ((Signals.nonempty? locale).getD ls.settings.defaultLocale) := by
  cases h with
  | @inside n inside earlier _ balanced =>
    have inner : ∀ m ∈ inside, m.IsPlain := fun m hm => plain m (by simp [hm])
    rw [after_append, after_cons]
    have bound : ((a.after earlier).move (.enter (.scope ls locale))).layers =
      .scope ls locale :: (a.after earlier).layers := rfl
    obtain ⟨l, layers, scope⟩ := IsScope.after balanced inner bound (isScope_scope ls locale)
    rw [(actsOn_of_layers layers).getLocale]
    exact congrArg (Except.mapError Failure.call) (congrArg Step.result scope.resolve)

/-- Without a scope the answer comes from what is installed, or else from the settings that are
kept or can be read now. -/
theorem getLocale_of_unbound {a : Ambient} (h : a.layers = []) :
    a.getLocale.result.toOption =
      ((a.installed.map Locales.settings).or
        (a.cached.or (Settings.build [] a.environment).toOption)).map Settings.defaultLocale := by
  obtain ⟨environment, cached, installed, layers⟩ := a
  cases h
  cases installed with
  | some ls => rfl
  | none =>
    show ((settings _).2.map Settings.defaultLocale |>.mapError Failure.settings).toOption = _
    rw [Option.map_none, Option.none_or, ← (settings_eq ⟨environment, cached, none, []⟩).2]
    cases (settings ⟨environment, cached, none, []⟩).2 <;> rfl

/-- Moves that can go on so that every bracket is closed. -/
def IsNested (moves : List Move) : Prop := ∃ later, Balanced 1 (moves ++ later)

/-- **The current locale after any moves outside of requests.** Inside of a scope it is settled by
what the innermost one was opened with; without a scope by what was installed last, or else by what
was read first. Leaving a scope brings back the translators that were there before it. -/
theorem getLocale_after (environment : Table String) {moves : List Move}
    (plain : ∀ m ∈ moves, m.IsPlain) (nested : IsNested moves) :
    let first := ofEnvironment environment
    let now := first.after moves
    (Balanced 1 moves ∨ ∃ ls locale, Innermost moves (.scope ls locale)) ∧
      (∀ ls locale, Innermost moves (.scope ls locale) → now.getLocale.result =
        .ok ((Signals.nonempty? locale).getD ls.settings.defaultLocale)) ∧
      (Balanced 1 moves → now.getLocale.result.toOption =
        (((lastInstalled (first.moments moves)).map Locales.settings).or
          (firstRead (first.moments (moves ++ [.call .getLocale])))).map Settings.defaultLocale) ∧
      ∀ earlier l inside later, moves = earlier ++ (.enter l :: inside ++ .leave :: later) →
        Balanced 1 inside →
          (first.after (earlier ++ .enter l :: inside ++ [.leave])).layers =
            (first.after earlier).layers := by
  intro first now
  refine ⟨?_, fun ls locale innermost => getLocale_of_innermost plain innermost first,
    fun closed => ?_, fun earlier l inside later split balanced => ?_⟩
  · obtain ⟨later, balanced⟩ := nested
    rcases balanced.split rfl with closed | ⟨l, innermost⟩
    · exact .inl closed
    · obtain ⟨ls, locale, rfl⟩ : ∃ ls locale, l = .scope ls locale := by
        cases innermost with
        | inside earlier l balanced => exact plain (.enter l) (by simp)
      exact .inr ⟨ls, locale, innermost⟩
  · have unbound : now.layers = [] := List.forall₂_nil_left_iff.mp (closed.keeps first).same
    have asks : Moment.asks (now, .call .getLocale) = now.installed.isNone := by
      rw [Moment.asks, unbound]
      rfl
    rw [getLocale_of_unbound unbound, moments_concat, firstRead_concat,
      ← installed_after environment plain, ← cached_after environment plain]
    change _ = (((now.installed.map Locales.settings).or
      (now.cached.or (Moment.read (now, .call .getLocale)))).map Settings.defaultLocale)
    rw [Moment.read, asks]
    cases now.installed <;> rfl
  · have inner : ∀ m ∈ inside, m.IsPlain := fun m hm => plain m (by simp [split, hm])
    rw [List.append_assoc, after_append, List.cons_append, after_cons, after_append]
    exact balanced.layers_release inner (first.after earlier) l

/-- The environment changes after it has been read, and what is installed is taken out in a scope,
in which another one is opened and closed. -/
def restlessMoves : List Move :=
  [.call (.setVariable "LOCALES_DEFAULT_LOCALE" (some "fr")), .call .getLocale,
    .call (.setVariable "LOCALES_DEFAULT_LOCALE" (some "de")),
    .call (.install .empty (some (.withAliases [])) fun _ => .ok (some ⟨[], "en_US", {}⟩)),
    .enter (.scope Serving.sampleLocales none), .call .uninstall,
    .enter (.scope Serving.sampleLocales (some "pt")), .leave]

/-- The scope goes by what it was opened with; behind it the locale is that of the environment as it
was first read. -/
theorem getLocale_restless :
    (∀ m ∈ restlessMoves ++ [.leave], m.IsPlain) ∧ IsNested restlessMoves ∧
      ((ofEnvironment {}).after restlessMoves).getLocale.result = .ok "en_US" ∧
      ((ofEnvironment {}).after (restlessMoves ++ [.leave])).getLocale.result.toOption =
        some "fr" := by
  have plain : ∀ m ∈ restlessMoves ++ [.leave], m.IsPlain := by
    simp [restlessMoves, Move.IsPlain]
  have inside : Balanced 2 (restlessMoves.drop 5) :=
    .call rfl (@Balanced.layer 2 _ [] [] .nil .nil)
  have closed : Balanced 1 (restlessMoves ++ [.leave]) :=
    .call rfl (.call rfl (.call rfl (.call rfl
      (@Balanced.layer 1 _ (restlessMoves.drop 5) [] inside .nil))))
  have within : ∀ m ∈ restlessMoves, m.IsPlain := fun m hm => plain m (List.mem_append_left _ hm)
  have nested : IsNested restlessMoves := ⟨_, closed⟩
  have scope : Innermost restlessMoves (.scope Serving.sampleLocales none) :=
    .inside (restlessMoves.take 4) _ inside
  obtain ⟨_, inScope, _, _⟩ := getLocale_after {} within nested
  obtain ⟨_, _, unbound, _⟩ := getLocale_after {} plain ⟨[], by simpa using closed⟩
  exact ⟨plain, nested, inScope _ _ scope, (unbound closed).trans (by decide +kernel)⟩

end RequestLocale.Ambient
