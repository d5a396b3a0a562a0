import RequestLocale.Table
import RequestLocale.Value.Text

/-! Messages in nested records. The key of a message is the path to it with points between the
names; of two messages with one key the later stays, in the place of the first. -/
namespace RequestLocale.Messages

mutual
/-- The messages of a record in depth-first order, the given text before every key. -/
def leaves (pre : String) : Entries → List (String × String)
  | [] => []
  | (key, value) :: entries => leavesOf (pre ++ key.toText) value ++ leaves pre entries
  termination_by structural entries => entries

/-- The messages of the value at one path. -/
def leavesOf (path : String) : Value → List (String × String)
  | .record entries => leaves (path ++ ".") entries
  | .none => [(path, "")]
  | value => [(path, value.toText)]
  termination_by structural value => value
end

mutual
/-- Whether every record that is reached through records alone is finite. -/
def isFinite : Entries → Bool
  | [] => true
  | (_, value) :: entries => isFiniteAt value && isFinite entries
  termination_by structural entries => entries

def isFiniteAt : Value → Bool
  | .record entries => isFinite entries
  | .enclosing keyed => !keyed
  | _ => true
  termination_by structural value => value
end

inductive FlattenError where
  /-- A whole number has too many digits to be written. -/
  | digitLimit
  /-- A record contains itself. -/
  | endless
  deriving DecidableEq, Repr

def flatten (entries : Entries) (pre : String) : Except FlattenError Messages :=
  if !isFinite entries then .error .endless
  else if Value.entriesExceedDigits entries then .error .digitLimit
  else .ok (Table.ofList (leaves pre entries))

end RequestLocale.Messages
