/-!
# Failures

What a caller is told when a request cannot be answered: one of eight kinds, a message, and the
details that belong to the kind. The wording of each kind is here; the modules that find a cause
word the cause.
-/
namespace SymbolTables

/-- The part of a query in which reading stopped. -/
inductive Clause
  | select
  | source
  | condition
deriving DecidableEq

def Clause.name : Clause → String
  | .select => "SELECT"
  | .source => "FROM"
  | .condition => "WHERE"

inductive FailureKind
  | malformedQuery
  | fieldNotFound
  | unsupportedFilter
  | tableNotFound
  | ambiguousSpecialValue
  | storage
  | connect
  | internal
deriving DecidableEq

inductive Failure
  /-- The text is no query; `clause` names the part where reading stopped. -/
  | malformedQuery (clause cause : String)
  /-- A reference to a column that does not exist, or two references that exclude each other. -/
  | fieldNotFound (cause field : String)
  /-- A condition on a column that holds no labels. -/
  | unsupportedFilter (cause field : String)
  | tableNotFound (table : String)
  /-- A special value in a number column whose text column is not selected. -/
  | ambiguousSpecialValue (numberField textField : String)
  /-- A store that cannot be opened or read. -/
  | storage (cause : String) (path context : Option String)
  /-- A locator that leads to no accessible file. -/
  | connect (cause path : String)
  /-- A request that the caller should not have made. -/
  | internal (cause : String) (context : Option String)
deriving DecidableEq

namespace Failure

def kind : Failure → FailureKind
  | .malformedQuery .. => .malformedQuery
  | .fieldNotFound .. => .fieldNotFound
  | .unsupportedFilter .. => .unsupportedFilter
  | .tableNotFound .. => .tableNotFound
  | .ambiguousSpecialValue .. => .ambiguousSpecialValue
  | .storage .. => .storage
  | .connect .. => .connect
  | .internal .. => .internal

/-- The whole message shown to the user. -/
def message : Failure → String
  | .malformedQuery clause cause => s!"Error in the {clause} section: {cause}"
  | .fieldNotFound cause _ => s!"Field not found: {cause}"
  | .unsupportedFilter cause _ => s!"Unsupported filter: {cause}"
  | .tableNotFound table => s!"Table not found: The symbol \"{table}\" is not valid"
  | .ambiguousSpecialValue numberField textField =>
    s!"Ambiguous special value: The field \"{numberField}\" contains special values, "
      ++ s!"so the field \"{textField}\" has to be selected"
  | .storage cause _ _ => s!"Storage IO error: {cause}"
  | .connect cause _ => s!"Connect error: {cause}"
  | .internal cause _ => s!"Internal error: {cause}"

/-- Say what was going on. Only storage and internal failures keep it, and only the last one. -/
def inContext (text : String) : Failure → Failure
  | .storage cause path _ => .storage cause path (some text)
  | .internal cause _ => .internal cause (some text)
  | f => f

/-- A storage failure at a path. -/
def storageAt (path cause : String) : Failure := .storage cause (some path) none

theorem kind_inContext (text : String) (f : Failure) : (f.inContext text).kind = f.kind := by
  cases f <;> rfl

theorem message_inContext (text : String) (f : Failure) : (f.inContext text).message = f.message := by
  cases f <;> rfl

theorem inContext_inContext (first second : String) (f : Failure) :
    (f.inContext first).inContext second = f.inContext second := by
  cases f <;> rfl

end Failure
end SymbolTables
