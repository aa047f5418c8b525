import SkillBoard.Decimal.Layout
import SkillBoard.Student

/-!
# What can go wrong while loading

A load fails as a whole, for one cause. `Fault` is what is wrong with one field of a record, `LoadError`
any cause; both say it in words. The words of the readers and the system below are not fixed here: they
come as a parameter, `Wording`.
-/

namespace SkillBoard

/-- Kinds of source cells that hold neither a number nor a text. -/
inductive CellKind
  | null
  | boolean
  | list
  | record
  | unsupportedColumn
  deriving DecidableEq, Repr

def CellKind.name : CellKind → String
  | null => "null"
  | boolean => "a boolean"
  | list => "an array"
  | record => "an object"
  | unsupportedColumn => "an unsupported column type"

/-- What is wrong with a field. -/
inductive Fault
  | missing
  | empty
  | notNumber (text : String)
  | notFinite (value : Float)
  | notInteger (value : Float)
  | notPositive (id : Int)
  | duplicate (id : Int)
  | kindForNumber (kind : CellKind)
  | kindForText (kind : CellKind)
  deriving DecidableEq

/-- The fault in words, as they follow the field's name. -/
def Fault.reason : Fault → String
  | missing => "is missing"
  | empty => "is empty"
  | notNumber s => "'" ++ s ++ "' is not a number"
  | notFinite x => Decimal.Layout.plain.render x ++ " is not finite"
  | notInteger x => Decimal.Layout.plain.render x ++ " is not an integer"
  | notPositive id => toString id ++ " is not a positive id"
  | duplicate id => "duplicates id " ++ toString id
  | kindForNumber kind => "is " ++ kind.name ++ ", expected a number"
  | kindForText kind => "is " ++ kind.name ++ ", expected text"

/-- How far the reader of columnar files comes with one that it refuses. -/
inductive ColumnsStep
  | metadata
  | reader
  | batch
  deriving DecidableEq, Repr

def ColumnsStep.name : ColumnsStep → String
  | metadata => "reading parquet metadata"
  | reader => "building parquet reader"
  | batch => "reading parquet record batch"

/-- Why a dataset could not be loaded. Rows count from zero. Where a reader or the system below refuses,
its own words are the cause. -/
inductive LoadError
  | malformed (row : Nat) (field : Field) (fault : Fault)
  | unsupportedFormat (extension : String)
  | jsonNotRead (cause : String)
  | jsonNotParsed (cause : String)
  | jsonNotList
  | jsonNotRecord (row : Nat)
  | csvNotOpened (cause : String)
  | csvHeader (cause : String)
  | csvRow (row : Nat) (cause : String)
  | columnsNotOpened (cause : String)
  | columnsNotRead (step : ColumnsStep) (cause : String)
  /-- It is the sample that could not be loaded. -/
  | inSample (error : LoadError)
  deriving DecidableEq

namespace LoadError

/-- The chain of messages, from the outermost down to the cause. -/
def messages : LoadError → List String
  | malformed row field fault =>
    ["malformed record at row " ++ toString row ++ ": field '" ++ field.key ++ "' " ++ fault.reason]
  | unsupportedFormat extension => ["unsupported file extension: ." ++ extension]
  | jsonNotRead cause => ["reading JSON file", cause]
  | jsonNotParsed cause => ["parsing JSON", cause]
  | jsonNotList => ["Expected top-level JSON array"]
  | jsonNotRecord row => ["Row " ++ toString row ++ " is not a JSON object"]
  | csvNotOpened cause => ["opening CSV", cause]
  | csvHeader cause => ["reading CSV headers", cause]
  | csvRow row cause => ["CSV row " ++ toString row, cause]
  | columnsNotOpened cause => ["opening parquet file", cause]
  | columnsNotRead step cause => [step.name, cause]
  | inSample error => "loading embedded student data" :: error.messages

/-- The chain in one line. -/
def chain (e : LoadError) : String := String.intercalate ": " e.messages

end LoadError

/-- What the readers and the system below say of an input that they refuse, each with its own causes. -/
structure Wording where
  /-- Octets that are no text. -/
  notText : List UInt8 → String
  /-- A text that is no JSON. -/
  notJson : String → String
  /-- A CSV file whose header is no text. -/
  csvHeader : List UInt8 → String
  /-- A CSV file with a row that is no text, or not as long as the header. -/
  csvRow : List UInt8 → Nat → String
  /-- A file that holds no columns. -/
  notColumns : List UInt8 → ColumnsStep × String

/-- Plain words, the same for every input. -/
def Wording.plain : Wording where
  notText _ := "not a text"
  notJson _ := "not JSON"
  csvHeader _ := "not a text"
  csvRow _ _ := "not a text, or not as long as the header"
  notColumns _ := (.metadata, "not a columnar file")

end SkillBoard
