import StoreTasks.Calendar.Written
import StoreTasks.Field.Type
import StoreTasks.Json.Shape

/-!
# Refusal

Why a specification is refused.  A refusal is its cause, with the values that caused it; `kind`
sorts the causes and `message` words them.
-/

namespace StoreTasks

open Calendar

/-- The two ends of a timeframe, as they are named in its specification. -/
inductive Bound where
  | finish
  | start
deriving DecidableEq, Repr

/-- The key of a bound. -/
def Bound.key : Bound → String
  | .finish => "to"
  | .start => "from"

/-- The causes for which a specification is refused. -/
inductive Refusal where
  /- Timeframes -/
  | timeframeMissing
  | timeframeNotObject (found : Json)
  | boundMissing (bound : Bound)
  | intervalNotPositive (found : Json)
  | unknownIntervalUnit (found : Json)
  | unknownDayWithinPeriod (found : Json)
  | finishNotDate (found : Json)
  | startNotText (found : Json)
  | unrecognisedDate (bound : Bound) (text : String)
  | noPreviousDay (finish : Date)
  /- Fields -/
  | fieldMissing
  | fieldNotObject (found : Json)
  | fieldWithoutName (found : Json)
  | fieldNameNotText (found : Json)
  | blankFieldName
  | fieldWithoutType (field : String)
  | fieldTypeNotText (field : String) (found : Json)
  | unknownFieldType (field type : String)
  | hidWithoutEntity
  | hidWithoutFields (source : String)
  /- Entities -/
  | entityNotObject (found : Json)
  | entityNameMissing
  | entityNameNotText
  | blankEntityName
  | fileMissing (entity : String)
  | fileNotText (entity : String)
  | blankFile (entity : String)
  | fieldsMissing (entity : String)
  | fieldsNotList (entity : String)
  | noFields (entity : String)
  | repeatedField (entity field : String)
  | fieldExists (entity field : String)
  /- Loads -/
  | loadNotList (found : Json)
  | unableToMerge (entity : String)
  /- Extracts -/
  | extractMalformed (fault : Json.ShapeError)
  | noEntities
  | selectionWithoutEntity
  | selectionWithoutFields (entity : String)
  | hidNotAlone (entity : String) (found : Json)
  | hidMalformed (entity : String) (fault : Json.ShapeError)
  | hidWithoutFromEntity (entity : String)
  | hidWithoutFromFields (entity : String)
  | unresolvedField (entity : String) (found : Json)
  /- Rendering -/
  | missingIdentifier (entity : String)
  | unmappedType (field : String) (type : FieldType) (table : FieldType.Table)
  | timeframeUndefined (entity : String)
deriving DecidableEq

namespace Refusal

/-- The kinds of refusals. -/
inductive Kind where
  /-- Something that is required is missing. -/
  | insufficient
  /-- Something is there, but of the wrong shape, type or content. -/
  | incorrect
  /-- No entity of the name is declared. -/
  | unableToMerge
  | missingIdentifier
  | unmappedType
  | timeframeUndefined
deriving DecidableEq, Repr

/-- The kind of a refusal. -/
def kind : Refusal → Kind
  | .boundMissing _ | .fieldMissing | .fieldNotObject _ | .fieldWithoutName _
  | .hidWithoutEntity | .hidWithoutFields _ | .noEntities | .selectionWithoutEntity
  | .selectionWithoutFields _ | .hidWithoutFromEntity _ | .hidWithoutFromFields _
  | .unresolvedField _ _ => .insufficient
  | .unableToMerge _ => .unableToMerge
  | .missingIdentifier _ => .missingIdentifier
  | .unmappedType _ _ _ => .unmappedType
  | .timeframeUndefined _ => .timeframeUndefined
  | _ => .incorrect

/-- A requested field in a message: a name as it is, another value as JSON. -/
def requestText : Json → String
  | .str name => name
  | value => value.shown

/-- What a refusal says about the specification. -/
def detail : Refusal → String
  | .timeframeMissing => "Timeframe should have a specification"
  | .timeframeNotObject found =>
    "Timeframe specification should be an object or \"latest\", got " ++ found.shown
  | .boundMissing .finish => "To key was not specified during the Timeframe creation"
  | .boundMissing .start => "From key was not specified during the Timeframe creation"
  | .intervalNotPositive found =>
    "Interval key should be a positive integer, got " ++ found.shown
  | .unknownIntervalUnit found =>
    "Interval_unit key should be one of day, week, month, year, got " ++ found.shown
  | .unknownDayWithinPeriod found =>
    "Day within period should be one of first, last, got " ++ found.shown
  | .finishNotDate found => "Timeframe key to should be a non-empty date, got " ++ found.shown
  | .startNotText found => "Timeframe key from should be a date string, got " ++ found.shown
  | .unrecognisedDate bound text =>
    "Timeframe key " ++ bound.key ++ " has an unrecognised date: " ++ Text.quoted text
  | .noPreviousDay finish => "Timeframe to " ++ finish.text ++ " has no previous day"
  | .fieldMissing => "Field specification is empty"
  | .fieldNotObject found => "Field specification should be an object, got " ++ found.shown
  | .fieldWithoutName found => "Field specification " ++ found.shown ++ " does not have a name"
  | .fieldNameNotText found => "Field name should be a string, got " ++ found.shown
  | .blankFieldName => "Field name should not be empty."
  | .fieldWithoutType field =>
    "The field name \"" ++ field ++ "\" does not have type specified. Type should be one of ["
      ++ FieldType.vocabularyText ++ "]"
  | .fieldTypeNotText field found =>
    "The type of field name \"" ++ field ++ "\" should be a string, got " ++ found.shown
  | .unknownFieldType field type =>
    "The field name \"" ++ field ++ "\" does have wrong type specified. Specified \"" ++ type
      ++ "\" should be one of [" ++ FieldType.vocabularyText ++ "]"
  | .hidWithoutEntity => "Entity has to be specified for a HID field"
  | .hidWithoutFields source =>
    "Fields have to be specified for the HID field of entity " ++ source
  | .entityNotObject found => "Entity specification should be an object, got " ++ found.shown
  | .entityNameMissing => "Entity name is not specified."
  | .entityNameNotText => "Entity name should be a string."
  | .blankEntityName => "Entity name should not be empty."
  | .fileMissing entity => "File of entity " ++ entity ++ " is not specified."
  | .fileNotText entity => "File of entity " ++ entity ++ " should be a string."
  | .blankFile entity => "File of entity " ++ entity ++ " should not be empty."
  | .fieldsMissing entity => "Fields of entity " ++ entity ++ " are not specified."
  | .fieldsNotList entity => "Fields of entity " ++ entity ++ " should be a list."
  | .noFields entity => "Entity " ++ entity ++ " should contain at least one field."
  | .repeatedField entity field =>
    "Entity " ++ entity ++ " should not contain multiple fields with the same name (" ++ field
      ++ ")."
  | .fieldExists entity field =>
    "There already is a field with name " ++ field ++ " in entity " ++ entity
  | .loadNotList found =>
    "Load specification should be a list of entities, got " ++ found.shown
  | .unableToMerge entity => "there is no entity " ++ entity ++ " in current load object"
  | .extractMalformed fault => "Extract specification is malformed: " ++ fault.message
  | .noEntities => "Extract specification has no entities"
  | .selectionWithoutEntity => "Extract entity selection has no entity name"
  | .selectionWithoutFields entity => "Extract entity " ++ entity ++ " does not list any fields"
  | .hidNotAlone entity found =>
    "HID field of entity " ++ entity ++ " should only contain the hid key, got " ++ found.shown
  | .hidMalformed entity fault =>
    "HID field of entity " ++ entity ++ " is malformed: " ++ fault.message
  | .hidWithoutFromEntity entity => "HID field of entity " ++ entity ++ " has no from_entity"
  | .hidWithoutFromFields entity => "HID field of entity " ++ entity ++ " has no from_fields"
  | .unresolvedField entity found =>
    "The field " ++ requestText found ++ " of entity " ++ entity
      ++ " was not found in either the loading specification nor was recognized as a special column"
  | .missingIdentifier entity =>
    "entity " ++ entity ++ " needs at least one of Id, HID or autoincrement fields"
  | .unmappedType field type table =>
    "type " ++ type.name ++ " has no " ++ table.name ++ " mapping (field " ++ field ++ ")"
  | .timeframeUndefined entity => "timeframe has to be defined for entity " ++ entity

/-- The opening of the messages of a kind. -/
def Kind.opening : Kind → String
  | .insufficient => "insufficient specification: "
  | .incorrect => "incorrect specification: "
  | .unableToMerge => "unable to merge: "
  | .missingIdentifier | .unmappedType | .timeframeUndefined => ""

/-- The text of a refusal. -/
def message (refusal : Refusal) : String :=
  refusal.kind.opening ++ refusal.detail

end Refusal

end StoreTasks
