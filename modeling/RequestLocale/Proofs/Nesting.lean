import Mathlib.Data.List.Forall2
import RequestLocale.Code
import RequestLocale.Proofs.Deed

/-! # Layers that are entered and left

Code does two things to the translators that are bound around it: it calls them, which changes what
their contexts remember, and it enters and leaves layers in pairs. What happens is said for single
calls (`Ambient.keeps_perform`). From this it follows for moves whose brackets match (`Balanced`)
that they leave the layers that they have found (`Balanced.keeps`), and that in between the current
translator is that of the bracket opened last (`Innermost.current`). -/
namespace RequestLocale

/-! ## One translator -/

/-- What calls make of a layer. It stays the layer of one translator. -/
inductive Layer.Evolves (l : Layer) : Layer → Prop
  | refl : l.Evolves l
  | perform {s : Session} (h : l.Evolves s.layer) (a : Session.Action) :
      l.Evolves (s.perform a).state.layer
  | deliver {l' : Layer} (h : l.Evolves l') (path : String) (f : Frame) :
      l.Evolves { l' with context := (Middleware.deliver l'.context path f).1 }

namespace Layer.Evolves

theorem trans {l l' l'' : Layer} (h : l.Evolves l') (h' : l'.Evolves l'') : l.Evolves l'' := by
  induction h' with
  | refl => exact h
  | perform _ a ih => exact ih.perform a
  | deliver _ path f ih => exact ih.deliver path f

/-- What every deed keeps, every call keeps. -/
theorem keeps {P : Layer → Prop} (hP : ∀ l d after, Layer.Follows l d after → P l → P after)
    {l l' : Layer} (h : l.Evolves l') (hl : P l) : P l' := by
  induction h with
  | refl => exact hl
  | @perform s _ a ih => exact hP _ _ _ (s.follows_perform a).layer ih
  | deliver _ path f ih => exact hP _ _ _ (Serving.follows_deliver _ path f) ih

theorem settings {l l' : Layer} (h : l.Evolves l') : l'.locales.settings = l.locales.settings :=
  h.keeps (P := fun x => x.locales.settings = l.locales.settings)
    (fun _ _ _ follows same => follows.settings.trans same) rfl

/-- A translator that has a locale keeps it. -/
theorem memo {l l' : Layer} (h : l.Evolves l') {locale : String}
    (remembered : l.context.state.locale = some locale) :
    l'.context.state.locale = some locale :=
  h.keeps (P := fun x => x.context.state.locale = some locale)
    (fun x d _ follows same => follows.locale.trans (d.locale_apply same x.locales.settings))
    remembered

theorem getLocale (l : Layer) : l.Evolves (l.run Locales.getLocale).state :=
  .perform (s := ⟨l, true, .empty⟩) .refl .getLocale

theorem translate (l : Layer) (key : String) (args : List Value) :
    l.Evolves (l.run fun ls ctx => ls.translate ctx (some key) args).state :=
  .perform (s := ⟨l, true, .empty⟩) .refl (.translate (some key) args)

end Layer.Evolves

/-! ## Single calls -/

namespace Session

/-- Code whose translator is current leaves what lies below it alone. -/
theorem outer_perform {s : Session} (h : s.isCurrent = true) (a : Action) :
    (s.perform a).state.outer = s.outer := by
  obtain ⟨⟨ls, ⟨channel, state⟩⟩, isCurrent, outer⟩ := s
  cases h
  cases a with
  | translate | getLocale | attachBundle | functionName | remember | hasCapabilities | isBound
  | addLocale | addBundle | currentLocale => rfl
  | currentTranslate key args => cases key <;> rfl
  | attach messages => cases channel <;> rfl
  | setCookie w =>
    simp only [perform, change]
    split <;> rfl
  | parameter | cookie | languages | locale | applyCookies | setParameter | setStarted =>
    cases channel <;> rfl

/-- Code whose translator is not current either acts on it or on what lies around. -/
theorem perform_apart {s : Session} (h : s.isCurrent = false) (a : Action) :
    (s.perform a).state.outer = s.outer ∨
      (s.perform a).state.layer = s.layer ∧
        ((s.perform a).state.outer = s.outer.getLocale.state ∨
          ∃ key args, (s.perform a).state.outer = (s.outer.translate key args).state) := by
  obtain ⟨⟨ls, ⟨channel, state⟩⟩, isCurrent, outer⟩ := s
  cases h
  cases a with
  | currentLocale => exact .inr ⟨rfl, .inl rfl⟩
  | currentTranslate key args => exact .inr ⟨rfl, .inr ⟨key, args, rfl⟩⟩
  | translate | getLocale | attachBundle | functionName | remember | hasCapabilities | isBound
  | addLocale | addBundle => exact .inl rfl
  | attach messages => cases channel <;> exact .inl rfl
  | setCookie w =>
    simp only [perform, change]
    split <;> exact .inl rfl
  | parameter | cookie | languages | locale | applyCookies | setParameter | setStarted =>
    cases channel <;> exact .inl rfl

end Session

namespace Ambient

/-- The same translators are bound, each as calls have left it, and all but the first `n` as they
were. -/
structure Keeps (n : Nat) (a b : Ambient) : Prop where
  same : List.Forall₂ Layer.Evolves a.layers b.layers
  rest : b.layers.drop n = a.layers.drop n

namespace Keeps

variable {n : Nat} {a b c : Ambient}

theorem of_layers (h : b.layers = a.layers) : a.Keeps n b :=
  ⟨h ▸ List.forall₂_same.mpr fun _ _ => .refl, by rw [h]⟩

theorem of_set {i : Nat} {l l' : Layer} (hi : i < n) (found : a.layers[i]? = some l)
    (evolves : l.Evolves l') (h : b.layers = a.layers.set i l') : a.Keeps n b := by
  refine ⟨?_, by rw [h, List.drop_set_of_lt hi]⟩
  rw [h]
  clear h hi
  generalize a.layers = layers at found
  induction layers generalizing i with
  | nil => cases found
  | cons x rest ih =>
    have stays : List.Forall₂ Layer.Evolves rest rest := List.forall₂_same.mpr fun _ _ => .refl
    cases i with
    | zero =>
      cases found
      exact .cons evolves stays
    | succ i => exact .cons .refl (ih found)

theorem layers_eq (h : a.Keeps 0 b) : b.layers = a.layers := h.rest

theorem trans (h : a.Keeps n b) (h' : b.Keeps n c) : a.Keeps n c := by
  refine ⟨?_, h'.rest.trans h.rest⟩
  have first := h.same
  have second := h'.same
  generalize a.layers = before at first
  generalize b.layers = between at first second
  generalize c.layers = behind at second
  induction first generalizing behind with
  | nil => cases second; exact .nil
  | cons evolves _ ih => cases second with
    | cons evolves' others => exact .cons (evolves.trans evolves') (ih _ others)

theorem mono {m : Nat} (h : a.Keeps n b) (hm : n ≤ m) : a.Keeps m b := by
  refine ⟨h.same, ?_⟩
  obtain ⟨k, rfl⟩ := Nat.exists_eq_add_of_le hm
  rw [← List.drop_drop, ← List.drop_drop, h.rest]

end Keeps

theorem layers_settings (a : Ambient) : a.settings.1.layers = a.layers := by
  unfold settings
  split
  · rfl
  · split <;> rfl

section

variable (a : Ambient) (fs : Resource.FileSystem)
  (loader : Settings → Except Failure (Option Resource.Loader))

/-- Installing without settings takes those of the environment, and fails where they fail. -/
theorem installWith_none :
    a.installWith fs none loader =
      match a.settings.2 with
      | .error e => ⟨a.settings.1, [], .error (.settings e)⟩
      | .ok s => a.settings.1.installWith fs (some s) loader := by
  unfold installWith
  generalize a.settings = asked
  obtain ⟨after, built⟩ := asked
  cases built <;> rfl

/-- Installing with settings does nothing unless it succeeds. -/
theorem state_installWith_some (s : Settings) :
    (a.installWith fs (some s) loader).state =
      (a.installWith fs (some s) loader).result.toOption.elim a (a.install ∘ some) := by
  simp only [installWith]
  cases loader s with
  | error e => rfl
  | ok found =>
    cases found with
    | some l => rfl
    | none =>
      simp only
      cases (Resource.Loader.ofDirectories s.directories.paths s.defaultLocale fs).2 <;> rfl

/-- Installing asks for the settings of the environment if none are given, and does nothing else
unless it succeeds. -/
theorem state_installWith (settings : Option Settings) :
    (a.installWith fs settings loader).state =
      let asked := if settings.isSome then a else a.settings.1
      (a.installWith fs settings loader).result.toOption.elim asked (asked.install ∘ some) := by
  cases settings with
  | some s => exact a.state_installWith_some fs loader s
  | none =>
    rw [installWith_none]
    cases a.settings.2 with
    | error e => rfl
    | ok s => exact a.settings.1.state_installWith_some fs loader s

end

theorem layers_installWith (a : Ambient) (fs : Resource.FileSystem) (settings : Option Settings)
    (loader : Settings → Except Failure (Option Resource.Loader)) :
    (a.installWith fs settings loader).state.layers = a.layers := by
  have asked : (if settings.isSome then a else a.settings.1).layers = a.layers := by
    cases settings with
    | some s => rfl
    | none => exact a.layers_settings
  rw [state_installWith]
  cases (a.installWith fs settings loader).result.toOption with
  | some ls => exact asked
  | none => exact asked

/-- A call of the current translator, if there is one. -/
theorem keeps_withCurrent? {α : Type} {a : Ambient}
    {call : Locales → Context → Step Context CallError α}
    (evolves : ∀ l : Layer, l.Evolves (l.run call).state) {step : Step Ambient Failure α}
    (h : a.withCurrent? call = some step) : a.Keeps 1 step.state := by
  unfold withCurrent? at h
  split at h
  · cases h
  · rename_i l outer found
    cases h
    refine .of_set Nat.one_pos (l := l) ?_ (evolves l) ?_
    · rw [found]; rfl
    · rw [found]; rfl

theorem keeps_getLocale (a : Ambient) : a.Keeps 1 a.getLocale.state := by
  unfold getLocale
  split
  · rename_i h
    exact keeps_withCurrent? .getLocale h
  · exact .of_layers rfl
  · exact .of_layers a.layers_settings

theorem keeps_translate (a : Ambient) (key : Option String) (args : List Value) :
    a.Keeps 1 (a.translate key args).state := by
  unfold translate
  split
  · exact .of_layers rfl
  · rename_i key
    split
    · rename_i h
      exact keeps_withCurrent? (fun l => .translate l key args) h
    · exact .of_layers rfl

theorem Keeps.getElem? {n i : Nat} {a b : Ambient} (h : a.Keeps n b) (hi : n ≤ i) :
    b.layers[i]? = a.layers[i]? := by
  obtain ⟨k, rfl⟩ := Nat.exists_eq_add_of_le hi
  rw [← List.getElem?_drop, ← List.getElem?_drop, h.rest]

theorem keeps_use (a : Ambient) {n i : Nat} (hi : i < n) (action : Session.Action) :
    a.Keeps n (a.use i action).state := by
  unfold use
  cases found : a.layers[i]? with
  | none => exact .of_layers rfl
  | some l =>
    cases i with
    | zero =>
      let s : Session := ⟨l, true, a.release⟩
      obtain ⟨rest, shape⟩ : ∃ rest, a.layers = l :: rest := by
        cases hl : a.layers with
        | nil => rw [hl] at found; cases found
        | cons x rest => rw [hl] at found; cases found; exact ⟨rest, rfl⟩
      have after : (s.perform action).state.ambient =
          a.release.bind (s.perform action).state.layer := by
        rw [Session.ambient, (s.follows_perform action).isCurrent, s.outer_perform rfl]
        rfl
      refine .of_set hi found (.perform (s := s) .refl action) ?_
      show (s.perform action).state.ambient.layers.set 0 (s.perform action).state.layer = _
      rw [after, bind, release, shape]
      rfl
    | succ i =>
      let s : Session := ⟨l, false, a⟩
      have after : (s.perform action).state.ambient = (s.perform action).state.outer := by
        rw [Session.ambient, (s.follows_perform action).isCurrent]
        rfl
      show a.Keeps n { (s.perform action).state.ambient with
        layers :=
          (s.perform action).state.ambient.layers.set (i + 1) (s.perform action).state.layer }
      rw [after]
      rcases s.perform_apart rfl action with outer | ⟨layer, outer⟩
      · refine .of_set hi found (.perform (s := s) .refl action) ?_
        rw [outer]
      · have kept : a.Keeps 1 (s.perform action).state.outer := by
          rcases outer with outer | ⟨key, args, outer⟩
          · rw [outer]; exact a.keeps_getLocale
          · rw [outer]; exact a.keeps_translate key args
        have there := (kept.getElem? (Nat.le_add_left 1 i)).trans found
        obtain ⟨bound, here⟩ := List.getElem?_eq_some_iff.mp there
        rw [layer, show s.layer = _ from here.symm, List.set_getElem_self bound]
        exact kept.mono (Nat.one_le_of_lt hi)

theorem keeps_pass (a : Ambient) {n i : Nat} (hi : i < n) (path : String) (f : Frame) :
    a.Keeps n (a.pass i path f).1 := by
  unfold pass
  cases found : a.layers[i]? with
  | none => exact .of_layers rfl
  | some l => exact .of_set hi found (.deliver .refl path f) rfl

/-- A call leaves the translators that it does not need as they were. -/
theorem keeps_perform (a : Ambient) {n : Nat} {c : Call} (h : c.reaches n = true) :
    a.Keeps n (a.perform c).state := by
  cases c with
  | install fs settings loader => exact .of_layers (a.layers_installWith fs settings loader)
  | settings => exact .of_layers a.layers_settings
  | setVariable name value => cases value <;> exact .of_layers rfl
  | uninstall | forget | isBound | addLocale => exact .of_layers rfl
  | getLocale => exact a.keeps_getLocale.mono (of_decide_eq_true h)
  | translate key args => exact (a.keeps_translate key args).mono (of_decide_eq_true h)
  | use i action => exact a.keeps_use (of_decide_eq_true h) action
  | pass i path f => exact a.keeps_pass (of_decide_eq_true h) path f

/-! ## What helpers act on -/

/-- The helpers act on a translator and on nothing that lies below it. -/
structure ActsOn (a : Ambient) (l : Layer) : Prop where
  current : a.current? = some l
  getLocale : a.getLocale =
    ⟨a.release.bind (l.run Locales.getLocale).state, (l.run Locales.getLocale).events,
      (l.run Locales.getLocale).result.mapError .call⟩
  translate : ∀ key args, a.translate (some key) args =
    let step := l.run fun ls ctx => ls.translate ctx (some key) args
    ⟨a.release.bind step.state, step.events, step.result.mapError .call⟩
  addLocale : ∀ fields, a.addLocale fields =
    match l.context.state.locale, fields.find? "locale" with
    | some locale, none => fields.put (.text "locale") (.text locale)
    | _, _ => fields

theorem actsOn_of_layers {a : Ambient} {l : Layer} {outer : List Layer}
    (h : a.layers = l :: outer) : a.ActsOn l := by
  obtain ⟨environment, cached, installed, layers⟩ := a
  cases h
  exact ⟨rfl, rfl, fun _ _ => rfl, fun _ => rfl⟩

/-! ## Moves whose brackets match -/

@[simp] theorem after_cons (a : Ambient) (m : Move) (moves : List Move) :
    a.after (m :: moves) = (a.move m).after moves := rfl

@[simp] theorem after_append (a : Ambient) (moves later : List Move) :
    a.after (moves ++ later) = (a.after moves).after later := List.foldl_append

/-- Every layer that is entered is left again, and of the layers around only the first `n` are
needed. -/
inductive Balanced : Nat → List Move → Prop
  | nil {n : Nat} : Balanced n []
  | call {n : Nat} {c : Call} {later : List Move} :
      c.reaches n = true → Balanced n later → Balanced n (.call c :: later)
  | layer {n : Nat} {l : Layer} {inside later : List Move} :
      Balanced (n + 1) inside → Balanced n later →
        Balanced n (.enter l :: inside ++ .leave :: later)

namespace Balanced

variable {n : Nat} {moves later : List Move}

theorem append (h : Balanced n moves) (h' : Balanced n later) : Balanced n (moves ++ later) := by
  induction h with
  | nil => exact h'
  | call reaches _ ih => exact .call reaches (ih h')
  | layer inside _ _ ih =>
    rw [List.append_assoc, List.cons_append]
    exact .layer inside (ih h')

theorem calls {calls : List Call} (h : ∀ c ∈ calls, c.reaches n = true) :
    Balanced n (calls.map .call) := by
  induction calls with
  | nil => exact .nil
  | cons c calls ih =>
    obtain ⟨reaches, rest⟩ := List.forall_mem_cons.mp h
    exact .call reaches (ih rest)

/-- A bracket leaves the layers that it has found. -/
theorem keeps_layer {l : Layer} {a inner : Ambient} (h : (a.bind l).Keeps (n + 1) inner) :
    a.Keeps n inner.release ∧ ∃ l', l.Evolves l' ∧ inner.layers = l' :: inner.release.layers := by
  obtain ⟨same, rest⟩ := h
  simp only [bind, release] at same rest ⊢
  generalize inner.layers = layers at same rest ⊢
  cases same with
  | cons evolves others => exact ⟨⟨others, rest⟩, _, evolves, rfl⟩

theorem keeps (h : Balanced n moves) (a : Ambient) : a.Keeps n (a.after moves) := by
  induction h generalizing a with
  | nil => exact .of_layers rfl
  | call reaches _ ih => exact (a.keeps_perform reaches).trans (ih _)
  | @layer n l inside later _ _ ih ih' =>
    rw [List.cons_append, after_cons, after_append, after_cons]
    exact (keeps_layer (ih (a.bind l))).1.trans (ih' _)

end Balanced

/-- The layer that was entered last and has not been left. -/
inductive Innermost : List Move → Layer → Prop
  | inside {n : Nat} {moves : List Move} (before : List Move) (l : Layer) :
      Balanced (n + 1) moves → Innermost (before ++ .enter l :: moves) l

/-- The translator of the layer entered last is the current one, whatever has happened before and
since. -/
theorem Innermost.current {moves : List Move} {l : Layer} (h : Innermost moves l) (a : Ambient) :
    ∃ l' outer, l.Evolves l' ∧ (a.after moves).layers = l' :: outer := by
  obtain ⟨before, _, balanced⟩ := h
  rw [after_append, after_cons]
  obtain ⟨_, l', evolves, layers⟩ := Balanced.keeps_layer (balanced.keeps _)
  exact ⟨l', _, evolves, layers⟩

theorem Innermost.prepend {moves : List Move} {l : Layer} (h : Innermost moves l)
    (earlier : List Move) : Innermost (earlier ++ moves) l := by
  obtain ⟨before, _, balanced⟩ := h
  rw [← List.append_assoc]
  exact .inside _ l balanced

/-- At every point of moves whose brackets match either all are closed or one is the innermost. -/
theorem Balanced.split {n : Nat} {moves before later : List Move} (h : Balanced n moves)
    (hs : moves = before ++ later) : Balanced n before ∨ ∃ l, Innermost before l := by
  induction h generalizing before later with
  | nil =>
    obtain ⟨rfl, _⟩ := List.append_eq_nil_iff.mp hs.symm
    exact .inl .nil
  | @call n c rest reaches _ ih =>
    cases before with
    | nil => exact .inl .nil
    | cons m before =>
      obtain ⟨rfl, rest⟩ := List.cons.inj hs
      rcases ih rest with closed | ⟨l, innermost⟩
      · exact .inl (.call reaches closed)
      · exact .inr ⟨l, innermost.prepend [_]⟩
  | @layer n l inside rest balanced _ ih ih' =>
    cases before with
    | nil => exact .inl .nil
    | cons m before =>
      obtain ⟨rfl, shape⟩ := List.cons.inj hs
      rcases List.append_eq_append_iff.mp shape with ⟨more, rfl, behind⟩ | ⟨more, within, _⟩
      · -- The point lies behind the bracket, or right before it closes.
        cases more with
        | nil => exact .inr ⟨l, by simpa using Innermost.inside [] l balanced⟩
        | cons m more =>
          obtain ⟨rfl, tail⟩ := List.cons.inj behind
          rcases ih' tail with closed | ⟨l', innermost⟩
          · exact .inl (.layer balanced closed)
          · have inner := innermost.prepend (.enter l :: inside ++ [.leave])
            rw [List.append_assoc] at inner
            exact .inr ⟨l', inner⟩
      · rcases ih within with closed | ⟨l', innermost⟩
        · exact .inr ⟨l, .inside [] l closed⟩
        · exact .inr ⟨l', innermost.prepend [.enter l]⟩

end Ambient

end RequestLocale
