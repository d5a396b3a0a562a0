import RequestLocale.Proofs.Delivery
import RequestLocale.Proofs.Nesting

/-! # The translator that is bound while code runs

Code opens layers by scopes and by the middleware, and both close them in every case. So a run of
code makes moves whose brackets match (`Code.accounts_run`), however deep it nests and however its
parts end. What is known about such moves is then known about a middleware that serves a connection
with any application at all (`Middleware.call_restores`). A list of actions behind the middleware is
such an application, whose calls go to the translator of the request (`Serving.ambient_run`). -/
namespace RequestLocale

open Ambient (Move Call Balanced Innermost)

/-! ## Runs -/

/-- A run that has made the moves that it tells of, and has closed what it opened. -/
structure Run.Accounts (n : Nat) (a : Ambient) (r : Run) : Prop where
  balanced : Balanced n r.moves
  after : r.after = a.after r.moves

namespace Run.Accounts

variable {n : Nat} {a : Ambient}

theorem andThen {r : Run} (h : r.Accounts n a) {next : Outcome → Ambient → Run}
    (h' : (next r.outcome r.after).Accounts n r.after) : (r.andThen next).Accounts n a := by
  refine ⟨h.balanced.append h'.balanced, ?_⟩
  show (next r.outcome r.after).after = a.after (r.moves ++ (next r.outcome r.after).moves)
  rw [Ambient.after_append, ← h.after, h'.after]

theorem around {l : Layer} {body : Ambient → Run}
    (h : (body (a.bind l)).Accounts (n + 1) (a.bind l)) : (Run.around l body a).Accounts n a := by
  refine ⟨.layer h.balanced .nil, ?_⟩
  show (body (a.bind l)).after.release =
    a.after (.enter l :: (body (a.bind l)).moves ++ [.leave])
  rw [List.cons_append, Ambient.after_cons, Ambient.after_append, h.after]
  rfl

end Run.Accounts

namespace Connection

/-- The layer of a connection. -/
def layer (c : Connection) (ls : Locales) : Layer :=
  ⟨ls, .ofChannel (.http (.ofRequest c.query c.headers))⟩

/-- The connection as the middleware passes it on. -/
def exposing (c : Connection) (ls : Locales) : Connection :=
  { c with entries := Middleware.stateEntries ls c.entries }

variable {c : Connection} (ls : Locales) (app : Connection → Ambient → Run)

theorem call_of_handles (h : Middleware.handles c.kind = true) :
    Middleware.call ls c app = Run.around (c.layer ls) (app (c.exposing ls)) := by
  funext a
  simp only [Middleware.call, begin, Serving.start, h]
  rfl

theorem call_of_not_handles (h : Middleware.handles c.kind = false) :
    Middleware.call ls c app = app c := by
  funext a
  simp only [Middleware.call, begin, Serving.start, h]
  rfl

end Connection

theorem Middleware.accounts_call {n : Nat} (ls : Locales) (c : Connection)
    {app : Connection → Ambient → Run} (h : ∀ c' a, (app c' a).Accounts (n + c.layers) a)
    (a : Ambient) : (call ls c app a).Accounts n a := by
  cases handled : handles c.kind with
  | true =>
    have one : c.layers = 1 := by simp [Connection.layers, handled]
    rw [one] at h
    rw [Connection.call_of_handles ls app handled]
    exact .around (h _ _)
  | false =>
    have none : c.layers = 0 := by simp [Connection.layers, handled]
    rw [none] at h
    rw [Connection.call_of_not_handles ls app handled]
    exact h c a

/-- Every run of code accounts for its moves. -/
theorem Code.accounts_run {n : Nat} (code : Code n) (a : Ambient) : (code.run a).Accounts n a := by
  induction code generalizing a with
  | done outcome => exact ⟨.nil, rfl⟩
  | call c reaches next ih =>
    obtain ⟨balanced, after⟩ := ih (a.perform c).result (a.perform c).state
    exact ⟨.call reaches balanced, after⟩
  | scope ls locale body next ihBody ihNext =>
    exact .andThen (.around (ihBody _)) (ihNext _ _)
  | serve ls c app next ihApp ihNext =>
    exact .andThen (Middleware.accounts_call ls c (fun c' a => ihApp c' a) a) (ihNext _ _)

/-! ## Actions behind the middleware -/

namespace Serving

/-- The calls that an action comes down to. All of them go to the translator of the request. -/
def calls (s : Serving) : Action → List Call
  | .act a => (s.reached? a).elim [] fun b => [.use 0 b]
  | .call key args => [.use 0 (.translate key args)]
  | .send f => [.pass 0 s.path f]
  | .locale | .templateEntries =>
    if s.installed && s.keepsContext then [.use 0 .getLocale] else []
  | .entryNames | .hasLocales | .hasContext => []

/-- The moves of a list of actions. -/
def moves (s : Serving) : List Action → List Move
  | [] => []
  | a :: actions => (s.calls a).map .call ++ moves (s.perform a).state actions

theorem ambient_within {s : Serving} {l : Layer} (h : s.layer = some l) (a : Session.Action) :
    (s.within a).state.session.ambient = (s.session.ambient.use 0 a).state ∧
      (s.within a).state.outer = s.outer := by
  have here : s.session = ⟨l, true, s.outer⟩ := by rw [session, h]
  have current : (s.session.perform a).state.isCurrent = true := by
    rw [(s.session.follows_perform a).isCurrent, here]
  have below : (s.session.perform a).state.outer = s.outer := by
    rw [s.session.outer_perform (by rw [here]), here]
  refine ⟨?_, below⟩
  have used : (s.session.ambient.use 0 a).state =
      { (s.session.perform a).state.ambient with
        layers := (s.session.perform a).state.ambient.layers.set 0
          (s.session.perform a).state.layer } := by
    rw [here]
    rfl
  rw [used, Session.ambient, Session.ambient, current]
  simp [within, withSession, session, h, Ambient.bind]

theorem ambient_locale {s : Serving} {l : Layer} (h : s.layer = some l) :
    s.locale.state.session.ambient = s.session.ambient.after
        ((if s.installed && s.keepsContext then [.use 0 .getLocale] else []).map .call) ∧
      s.locale.state.outer = s.outer := by
  have here : s.session = ⟨l, true, s.outer⟩ := by rw [session, h]
  cases found : s.installed && s.keepsContext with
  | false =>
    obtain ⟨e, still⟩ := locale_of_barred found
    rw [still]
    exact ⟨rfl, rfl⟩
  | true =>
    obtain ⟨l', hl', after⟩ := locale_of_open found
    cases h.symm.trans hl'
    rw [after, here]
    exact ⟨rfl, rfl⟩

theorem ambient_perform {s : Serving} {l : Layer} (h : s.layer = some l) (a : Action) :
    (s.perform a).state.session.ambient = s.session.ambient.after ((s.calls a).map .call) ∧
      (s.perform a).state.outer = s.outer := by
  cases a with
  | act a =>
    show (s.act a).state.session.ambient = _ ∧ (s.act a).state.outer = s.outer
    rw [state_act, calls]
    cases s.reached? a with
    | none => exact ⟨rfl, rfl⟩
    | some b => exact ambient_within h b
  | call key args =>
    show (s.call key args).state.session.ambient = _ ∧ (s.call key args).state.outer = s.outer
    rw [call, h]
    exact ambient_within h _
  | send f =>
    have here : s.session = ⟨l, true, s.outer⟩ := by rw [session, h]
    have sent : (s.perform (.send f)).state =
        { s with
          layer := some { l with context := (Middleware.deliver l.context s.path f).1 }
          sent := s.sent ++ [(Middleware.deliver l.context s.path f).2.2] } := by
      simp only [perform, send, h]
    rw [sent, here]
    exact ⟨rfl, rfl⟩
  | entryNames | hasLocales | hasContext => exact ⟨rfl, rfl⟩
  | locale | templateEntries => exact ambient_locale h

theorem reaches_calls (s : Serving) (a : Action) : ∀ c ∈ s.calls a, c.reaches 1 = true := by
  cases a with
  | act a =>
    rw [calls]
    cases s.reached? a <;> simp [Ambient.Call.reaches]
  | locale | templateEntries =>
    rw [calls]
    split <;> simp [Ambient.Call.reaches]
  | _ => simp [calls, Ambient.Call.reaches]

/-- The application of a request makes calls of its translator, and does nothing to what surrounds
the middleware. -/
theorem ambient_run {s : Serving} (h : s.layer.isSome = true) (actions : List Action) :
    (s.run actions).1.session.ambient = s.session.ambient.after (s.moves actions) ∧
      Balanced 1 (s.moves actions) ∧ (s.run actions).1.outer = s.outer := by
  induction actions generalizing s with
  | nil => exact ⟨rfl, .nil, rfl⟩
  | cons a actions ih =>
    obtain ⟨l, hl⟩ := Option.isSome_iff_exists.mp h
    obtain ⟨next, hn, _⟩ := (s.follows_perform a).layer l hl
    obtain ⟨ambient, balanced, outer⟩ := ih (s := (s.perform a).state) (by rw [hn]; rfl)
    obtain ⟨first, same⟩ := ambient_perform hl a
    refine ⟨?_, .append (.calls (s.reaches_calls a)) balanced, outer.trans same⟩
    show ((s.perform a).state.run actions).1.session.ambient = _
    rw [moves, Ambient.after_append, ← first, ambient]

end Serving

/-! ## What helpers act on -/

/-- After some moves the helpers act on the translator that was bound last, as calls have left it
since. -/
def Ambient.ActsOnInnermost (a : Ambient) (moves : List Move) : Prop :=
  (∃ l, Innermost moves l) ∧
    ∀ l, Innermost moves l → ∃ l', l.Evolves l' ∧ (a.after moves).ActsOn l'

theorem Ambient.actsOnInnermost {moves : List Move} (h : ∃ l, Innermost moves l) (a : Ambient) :
    a.ActsOnInnermost moves := by
  refine ⟨h, fun l innermost => ?_⟩
  obtain ⟨l', outer, evolves, layers⟩ := innermost.current a
  exact ⟨l', evolves, actsOn_of_layers layers⟩

/-- **The translator that is bound around a call of the middleware.** Whatever the application does
and however it ends, the call leaves the layers that it has found, and ends as the application does.
While it serves a request, the helpers act on the layer opened last; other connections it passes on
as they are. -/
theorem Middleware.call_restores {n : Nat} (ls : Locales) (c : Connection)
    (app : Connection → Code (n + c.layers)) (a : Ambient) :
    let run := call ls c (fun c => (app c).run) a
    run.after = a.after run.moves ∧ a.Keeps n run.after ∧
      (handles c.kind = true →
        let inner := (app (c.exposing ls)).run (a.bind (c.layer ls))
        run.moves = .enter (c.layer ls) :: inner.moves ++ [.leave] ∧
          run.outcome = inner.outcome ∧
          ∀ before later, inner.moves = before ++ later →
            a.ActsOnInnermost (.enter (c.layer ls) :: before)) ∧
      (handles c.kind = false →
        run = (app c).run a ∧
          ∀ before later, run.moves = before ++ later →
            a.Keeps n (a.after before) ∨ a.ActsOnInnermost before) := by
  intro run
  have accounts : run.Accounts n a :=
    accounts_call ls c (fun c' a => (app c').accounts_run a) a
  refine ⟨accounts.after, accounts.after ▸ accounts.balanced.keeps a, fun handled => ?_,
    fun handled => ⟨?_, fun before later split => ?_⟩⟩
  · have opened : run = Run.around (c.layer ls) (app (c.exposing ls)).run a :=
      congrFun (Connection.call_of_handles ls _ handled) a
    refine ⟨by rw [opened]; rfl, by rw [opened]; rfl, fun before later split => ?_⟩
    have balanced := ((app (c.exposing ls)).accounts_run (a.bind (c.layer ls))).balanced
    have one : c.layers = 1 := by simp [Connection.layers, handled]
    refine a.actsOnInnermost ?_
    generalize ((app (c.exposing ls)).run (a.bind (c.layer ls))).moves = moves at split balanced
    rw [one] at balanced
    rcases balanced.split split with closed | ⟨l, innermost⟩
    · exact ⟨_, .inside [] _ closed⟩
    · exact ⟨l, innermost.prepend [_]⟩
  · exact congrFun (Connection.call_of_not_handles ls _ handled) a
  · rcases accounts.balanced.split split with closed | innermost
    · exact .inl (closed.keeps a)
    · exact .inr (a.actsOnInnermost innermost)

/-- Code that asks for the locale and in a scope for another language serves a client again, where
it fails after it has asked once more. -/
def nestedApp (c : Connection) : Code 1 :=
  .call .getLocale rfl fun _ =>
    .scope Serving.sampleLocales (some "de")
      (.serve Serving.sampleLocales ⟨"websocket", "locale=fr", "/", [], c.entries⟩
        (fun _ => .call .getLocale rfl fun answer =>
          match answer with
          | .ok (.text locale) => .done (.error (.application "Stopped" locale))
          | _ => .done (.ok .none))
        .done)
      .done

/-- A client that wishes for nothing. -/
def plainConnection : Connection := ⟨"http", "", "/", [], {}⟩

def nestedRun : Run :=
  Middleware.call Serving.sampleLocales plainConnection (fun c => (nestedApp c).run) .empty

/-- The kind and the message of an error of the application's own. -/
def Outcome.ownError? : Outcome → Option (String × String)
  | .error (.application kind message) => some (kind, message)
  | _ => none

/-- The failure comes out as it was, with the locale of the inner request, and nothing stays
bound. -/
theorem nested_stopped :
    Middleware.handles plainConnection.kind = true ∧
      nestedRun.outcome.ownError? = some ("Stopped", "fr") ∧ nestedRun.moves.length = 8 ∧
      nestedRun.after.layers = [] := by
  have handled : Middleware.handles plainConnection.kind = true := by decide
  obtain ⟨_, keeps, during, _⟩ :=
    Middleware.call_restores (n := 0) Serving.sampleLocales plainConnection nestedApp .empty
  obtain ⟨moves, outcome, _⟩ := during handled
  have stopped := congrArg Outcome.ownError? outcome
  have length := congrArg List.length moves
  exact ⟨handled, stopped.trans (by decide +kernel), length.trans (by decide +kernel), keeps.rest⟩

end RequestLocale
