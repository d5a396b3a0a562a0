/-! # Results that are no errors

How a result that came about settles the steps before it. -/
namespace RequestLocale

variable {ε α β : Type}

theorem ok_of_bind {r : Except ε α} {k : α → Except ε β} {b : β} (h : r >>= k = .ok b) :
    ∃ a, r = .ok a ∧ k a = .ok b := by
  cases r with
  | error e => cases h
  | ok a => exact ⟨a, rfl, h⟩

theorem eq_ok_of_toOption {r : Except ε α} {a : α} (h : r.toOption = some a) : r = .ok a := by
  cases r with
  | error e => cases h
  | ok b => cases h; rfl

theorem eq_some_of_elim {x : Option α} {e : ε} {a : α} (h : x.elim (.error e) Except.ok = .ok a) :
    x = some a := by
  cases x with
  | none => cases h
  | some b => cases h; rfl

theorem exists_ok_iff {r : Except ε α} : (∃ a, r = .ok a) ↔ r.isOk = true := by
  cases r with
  | error e => simp [Except.isOk, Except.toBool]
  | ok a => simp [Except.isOk, Except.toBool]

end RequestLocale
