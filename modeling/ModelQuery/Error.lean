import ModelQuery.Kind
import ModelQuery.Text.Shown

/-!
# What can go wrong

Every failure is named by its cause. The causes that a caller is expected to read carry what their
message needs; `Error.message?` holds the wording of all of them. The remaining causes are misuses
that have no wording of their own: a value of the wrong sort, a missing key, a statement that cannot
be written in the wanted dialect.
-/

namespace ModelQuery

/-- The cause of a failure. -/
inductive Error where
  /-- A query was started without a model or without a kind. -/
  | missingModelOrKind
  /-- A value is no statement kind. -/
  | unknownKind (shown : String)
  /-- A connection group is not configured. -/
  | unknownGroup (shown : String) (available : List String)
  /-- A sort direction is not one of the known ones. -/
  | unknownDirection (text : String)
  /-- A join type is not one of the known ones. -/
  | unsupportedJoin (shown : String)
  /-- A query without a database was asked to run. -/
  | noDatabase
  /-- A condition group was closed while none is open. -/
  | noOpenGroup
  /-- A join condition was given before any join. -/
  | onWithoutJoin
  /-- A changing statement has no table to change. -/
  | noTarget (kind : Kind)
  /-- Records cannot be replaced or removed. -/
  | readOnly
  /-- A many-to-many relationship names no association table. -/
  | throughMissing (field : String)
  /-- A value of the wrong sort where only some sorts make sense. -/
  | wrongType
  /-- A value that holds no items was asked for its items. -/
  | notIterable
  /-- A value that can be no key was used as one. -/
  | unhashable
  /-- An operation the value does not have. -/
  | noSuchOperation
  /-- A key, field or column that is not there. -/
  | unknownKey
  /-- A position outside the items. -/
  | outOfRange
  /-- A value of the right sort that cannot be used: no number, no pair, no such item. -/
  | badValue
  /-- A number that is no whole number because it has no end. -/
  | tooLarge
  /-- An operand that cannot stand at its place in an expression. -/
  | invalidOperand
  /-- A statement that has no text. -/
  | unrenderable
  /-- A statement that the dialect does not have. -/
  | unsupported
  /-- Two things that have to be told apart and cannot be. -/
  | conflict
  /-- The database refused the statement. -/
  | databaseFailed
  /-- Classes were not read from a proper base. -/
  | notABase
  /-- A relationship names a class or a table that is not there. -/
  | unknownTarget
  /-- A name of a table, a class or an attribute that is taken already. -/
  | nameTaken
  /-- A table has two columns of one name. -/
  | duplicateColumn
  /-- Two tables are not connected by a foreign key. -/
  | noForeignKey
  /-- Two tables are connected by several foreign keys, and none is named. -/
  | ambiguousKeys
  /-- A foreign key points to a column that its table does not have. -/
  | noReferredColumn
  /-- A foreign key points to a table that is not there. -/
  | noReferredTable
  /-- Settings that do not validate. -/
  | invalidSettings
  /-- Settings whose text is no document. -/
  | malformedSettings
  /-- An address of a database nobody knows. -/
  | unknownScheme
  /-- An address of a database that cannot be reached from here. -/
  | missingDriver
deriving DecidableEq, Repr

/-- The wording of a failure that has one. -/
def Error.message? : Error → Option String
  | .missingModelOrKind =>
    some "Builder requires `model` and `kind` to be set in the constructor"
  | .unknownKind shown =>
    some ("Builder compiled without a statement kind specified (got " ++ shown ++ ")")
  | .unknownGroup shown available =>
    some ("Unknown connection group " ++ shown ++ ". Available: " ++ Text.shownList available)
  | .unknownDirection text => some ("Unknown sort direction: " ++ Text.shown text)
  | .unsupportedJoin shown => some ("Unsupported join type: " ++ shown)
  | .noDatabase => some "Builder has no database to execute against"
  | .noOpenGroup => some "No condition group is open"
  | .onWithoutJoin => some "on() requires a preceding join()"
  | .noTarget kind => some ("Cannot compile " ++ kind.word ++ " without a table")
  | .readOnly => some "Results are read-only"
  | .throughMissing field =>
    some ("ManyToMany field " ++ Text.shown field ++ " requires `through`")
  | _ => none

end ModelQuery
