import RequestLocale.Proofs.Division
import RequestLocale.Proofs.Rendering

/-! # What a text with directives becomes

The directives that take an argument take them in turn: the one before which `k` others stand takes
the `k`-th (`dealt`). What they leave over follows the text. So every argument is used once, and the
text is the pieces one after the other, each written on its own (`Directive.format_of_directives`).
-/
namespace RequestLocale.Template.Directive

/-! ## Directives -/

/-- The letters that stand for a directive. -/
def letters : Directive → List Char
  | percent => ['%']
  | plain => ['s']
  | integer => ['d', 'i']
  | float => ['f']
  | json => ['j']
  | quoted => ['o', 'O']
  | nothing => ['c']

/-- A percent sign and one of the letters. -/
inductive IsDirective : Directive → List Char → Prop
  | mk {d : Directive} {c : Char} : c ∈ d.letters → IsDirective d ['%', c]

theorem ofLetter?_eq_some_iff {c : Char} {d : Directive} :
    ofLetter? c = some d ↔ c ∈ d.letters := by
  constructor
  · intro h
    unfold ofLetter? at h
    split at h <;> cases h <;> decide
  · intro h
    cases d <;> simp only [letters, List.mem_cons, List.not_mem_nil, or_false] at h
    all_goals first | subst h; rfl | rcases h with rfl | rfl <;> rfl

theorem finds : Finds slotAt IsDirective where
  iff := by
    intro text d more
    constructor
    · intro h
      unfold slotAt at h
      split at h
      case h_2 => cases h
      case h_1 c rest =>
        obtain ⟨_, letter, pair⟩ := Option.map_eq_some_iff.mp h
        cases pair
        exact ⟨['%', c], rest, .mk (ofLetter?_eq_some_iff.mp letter), rfl, rfl⟩
    · rintro ⟨source, rest, ⟨letter⟩, length, rfl⟩
      have found := ofLetter?_eq_some_iff.mpr letter
      obtain rfl : 1 = more := Nat.succ.inj length
      simp [slotAt, found]
  ne_nil hs := by
    cases hs
    exact List.cons_ne_nil _ _

/-! ## Dealing the arguments -/

/-- All directives but the doubled percent sign take an argument. -/
def takesArgument : Piece Directive → Bool
  | .plain _ | .slot percent _ => false
  | .slot _ _ => true

/-- Each piece with the argument that it takes, if one is left: as many arguments are taken as
there are takers before it. -/
def dealt (row : List (Piece Directive)) (args : List Value) :
    List (Piece Directive × Option Value) :=
  row.mapIdx fun i piece =>
    (piece, if takesArgument piece then args[(takers (row.take i)).length]? else none)

/-- How a piece is written with what it takes. -/
def written : Piece Directive × Option Value → Except FormatError (List Char)
  | (.plain c, _) => .ok [c]
  | (.slot percent _, _) => .ok ['%']
  | (.slot d _, some v) => d.convert v
  | (.slot _ source, none) => .ok source

theorem takesArgument_slot {d : Directive} (h : d ≠ percent) (source : List Char) :
    takesArgument (.slot d source) = true := by
  cases d <;> first | rfl | exact absurd rfl h

theorem written_of_none {d : Directive} (h : d ≠ percent) (source : List Char) :
    written (.slot d source, none) = .ok source := by
  cases d <;> first | rfl | exact absurd rfl h

theorem written_of_some (d : Directive) (source : List Char) (v : Value) :
    written (.slot d source, some v) = d.convert v := by
  cases d <;> rfl

theorem takers_of_not_takes {piece : Piece Directive} (h : takesArgument piece = false)
    (row : List (Piece Directive)) : takers (piece :: row) = takers row := by
  cases piece with
  | plain c => rfl
  | slot d source => cases d <;> first | rfl | cases h

theorem exists_takers_of_takes {piece : Piece Directive} (h : takesArgument piece = true)
    (row : List (Piece Directive)) : ∃ d, takers (piece :: row) = d :: takers row := by
  cases piece with
  | plain c => cases h
  | slot d source => exact ⟨d, takers_slot (by rintro rfl; cases h) source row⟩

theorem dealt_of_not_takes {piece : Piece Directive} (h : takesArgument piece = false)
    (row : List (Piece Directive)) (args : List Value) :
    dealt (piece :: row) args = (piece, none) :: dealt row args := by
  unfold dealt
  rw [List.mapIdx_cons, h]
  simp only [List.take_succ_cons, takers_of_not_takes h, Bool.false_eq_true, if_false]

theorem dealt_of_takes {piece : Piece Directive} (h : takesArgument piece = true)
    (row : List (Piece Directive)) (args : List Value) :
    dealt (piece :: row) args = (piece, args.head?) :: dealt row args.tail := by
  have later : ∀ i, (takers ((piece :: row).take (i + 1))).length =
      (takers (row.take i)).length + 1 := by
    intro i
    obtain ⟨d, taken⟩ := exists_takers_of_takes h (row.take i)
    rw [List.take_succ_cons, taken, List.length_cons]
  unfold dealt
  rw [List.mapIdx_cons, h, List.head?_eq_getElem?]
  simp only [later, List.getElem?_tail, if_true, List.take_zero]
  rfl

/-- What the directives take in turn, and what they leave over, are the arguments in order. -/
theorem filterMap_dealt (row : List (Piece Directive)) (args : List Value) :
    (dealt row args).filterMap Prod.snd ++ args.drop (takers row).length = args := by
  induction row generalizing args with
  | nil => rfl
  | cons piece row ih =>
    cases h : takesArgument piece with
    | false =>
      rw [dealt_of_not_takes h, takers_of_not_takes h, List.filterMap_cons_none rfl]
      exact ih args
    | true =>
      obtain ⟨d, taken⟩ := exists_takers_of_takes h row
      rw [dealt_of_takes h, taken]
      cases args with
      | nil =>
        rw [List.filterMap_cons_none rfl, List.drop_nil, List.append_nil]
        exact (List.append_eq_nil_iff.mp (ih [])).1
      | cons arg args =>
        rw [List.head?_cons, List.tail_cons, List.length_cons, List.drop_succ_cons]
        exact congrArg (arg :: ·) (ih args)

/-! ## Writing the pieces -/

/-- Filling a row in turn is writing each piece with what it is dealt. -/
theorem fillAll_eq_mapM (row : List (Piece Directive)) (args : List Value) :
    fillAll row args =
      (do
        let parts ← (dealt row args).mapM written
        return (parts.flatten, args.drop (takers row).length)) := by
  fun_induction fillAll row args with
  | case1 args => rfl
  | case2 c row args ih =>
    rw [dealt_of_not_takes rfl, takers_of_not_takes rfl, List.mapM_cons, ih]
    cases (dealt row args).mapM written <;> rfl
  | case3 source row args ih =>
    rw [dealt_of_not_takes rfl, takers_of_not_takes rfl, List.mapM_cons, ih]
    cases (dealt row args).mapM written <;> rfl
  | case4 d source row hd ih =>
    obtain ⟨_, taken⟩ := exists_takers_of_takes (takesArgument_slot hd source) row
    rw [dealt_of_takes (takesArgument_slot hd source), taken, List.head?_nil, List.tail_nil,
      List.mapM_cons, written_of_none hd, ih, List.drop_nil, List.drop_nil]
    cases (dealt row []).mapM written <;> rfl
  | case5 d source row arg args hd ih =>
    obtain ⟨_, taken⟩ := exists_takers_of_takes (takesArgument_slot hd source) row
    rw [dealt_of_takes (takesArgument_slot hd source), taken, List.head?_cons, List.tail_cons,
      List.mapM_cons, written_of_some, ih, List.length_cons, List.drop_succ_cons]
    cases d.convert arg with
    | error e => rfl
    | ok converted => cases (dealt row args).mapM written <;> rfl

theorem trailingAll_eq_mapM (args : List Value) :
    trailingAll args = (args.mapM trailing).map (·.flatMap (' ' :: ·)) := by
  induction args with
  | nil => rfl
  | cons arg args ih =>
    rw [trailingAll, List.mapM_cons, ih]
    cases trailing arg with
    | error e => rfl
    | ok shown => cases args.mapM trailing <;> rfl

/-- **What a text with directives becomes.** It has one row of pieces. The directives in it take the
arguments in turn, and those that are left over follow, each behind a blank, so that every argument
is used once; where none is left a directive stays as it is. A doubled percent sign is written
once, and every other character is copied. -/
theorem format_of_directives (text : List Char) :
    ∃ row, (∀ other, Divides IsDirective text other ↔ other = row) ∧ ∀ args,
      format text args =
        (do
          let parts ← (dealt row args).mapM written
          let rest ← (args.drop (takers row).length).mapM trailing
          return parts.flatten ++ rest.flatMap (' ' :: ·)) ∧
      (dealt row args).filterMap Prod.snd ++ args.drop (takers row).length = args := by
  refine ⟨pieces slotAt text, fun _ => finds.divides_iff, fun args => ⟨?_, filterMap_dealt _ args⟩⟩
  unfold format
  rw [fillAll_eq_mapM]
  cases (dealt (pieces slotAt text) args).mapM written with
  | error e => rfl
  | ok parts =>
    show (trailingAll _ >>= fun rest => _) = _
    rw [trailingAll_eq_mapM]
    cases (args.drop _).mapM trailing <;> rfl

end RequestLocale.Template.Directive
