import LuaGlobals.Files.Path
import LuaGlobals.Number.Binary
import LuaGlobals.Number.Spelling

/-! # Settings before validation

A setting comes from a configuration file, from the command line or from a caller, and may be of
any type. Validation turns it into the type of its field or tells why it cannot.

* `Setting` is a value of any type.
* `FieldError` is what is wrong with one field.
* `Setting.asFlag`, `asText`, `asPaths`, `asTexts` and `asLine` read a value of one type.
-/

namespace LuaGlobals

/-- A value that was set, of any type. -/
inductive Setting where
  /-- Nothing. -/
  | null
  /-- A truth value. -/
  | flag (value : Bool)
  /-- An integer. -/
  | integer (value : Int)
  /-- A floating point number. -/
  | float (value : FloatValue)
  /-- A text. -/
  | text (value : String)
  /-- A path. -/
  | path (value : FilePath)
  /-- A date or time. -/
  | moment
  /-- Several values. -/
  | items (values : List Setting)
  /-- Values by name. -/
  | table (entries : List (String × Setting))
deriving Repr

/-- What is wrong with the value of a field. -/
inductive FieldCause where
  /-- It is not of a type that can say yes or no. -/
  | notFlag
  /-- It says neither yes nor no. -/
  | unclearFlag
  /-- It is no text. -/
  | notText
  /-- It is no path. -/
  | notPath
  /-- It is no list. -/
  | notList
  /-- There is no whitelist for the version. -/
  | unsupportedVersion (version : String)
  /-- It is not there. -/
  | missing
  /-- It is none of the permitted words. -/
  | notAChoice
  /-- It is not of a type that can be a line number. -/
  | notInteger
  /-- It does not spell an integer. -/
  | unclearInteger
  /-- It is a number with a fraction. -/
  | fractional
  /-- It is an infinity, or no number. -/
  | notFinite
  /-- It is a number of too many digits. -/
  | tooLarge
deriving DecidableEq, Repr

/-- The word that names a cause. -/
def FieldCause.label : FieldCause → String
  | .notFlag => "bool_type"
  | .unclearFlag => "bool_parsing"
  | .notText => "string_type"
  | .notPath => "path_type"
  | .notList => "list_type"
  | .unsupportedVersion _ => "value_error"
  | .missing => "missing"
  | .notAChoice => "enum"
  | .notInteger => "int_type"
  | .unclearInteger => "int_parsing"
  | .fractional => "int_from_float"
  | .notFinite => "finite_number"
  | .tooLarge => "int_parsing_size"

/-- The versions of Lua that have a whitelist. -/
def supportedVersions : List String :=
  ["5.1", "5.2", "5.3", "5.4"]

/-- The message for a cause that has one of its own. -/
def FieldCause.message? : FieldCause → Option String
  | .unsupportedVersion version =>
    some ("Value error, Unsupported Lua version: '" ++ version ++ "'. Supported versions: ["
      ++ ", ".intercalate (supportedVersions.map fun known => "'" ++ known ++ "'") ++ "]")
  | _ => none

/-- What is wrong with one field. -/
structure FieldError where
  /-- The name of the field, and the place in its list. -/
  location : List String
  /-- What is wrong. -/
  cause : FieldCause
deriving DecidableEq, Repr

/-! ## Collecting errors -/

/-- A value, or all errors in its fields. -/
abbrev Validated (α : Type) := Except (List FieldError) α

namespace Validated

/-- Applies a function to a value; the errors of both are collected. -/
def apply {α β : Type} (function : Validated (α → β)) (value : Validated α) : Validated β :=
  match function, value with
  | .ok function, .ok value => .ok (function value)
  | .ok _, .error errors => .error errors
  | .error errors, .ok _ => .error errors
  | .error errors, .error more => .error (errors ++ more)

/-- The values of a list, or all errors in it. -/
def sequence {α : Type} : List (Validated α) → Validated (List α)
  | [] => .ok []
  | value :: rest => apply (apply (.ok List.cons) value) (sequence rest)

/-- A value that is wrong for one reason. -/
def fail {α : Type} (location : List String) (cause : FieldCause) : Validated α :=
  .error [⟨location, cause⟩]

end Validated

namespace Setting

/-! ## Numbers -/

/-- The first integer that needs more than 64 binary digits, one of which is its sign. -/
def wordBound : Int := 9223372036854775808

/-- Whether an integer fits into 64 binary digits with a sign. -/
def fitsWord (value : Int) : Bool :=
  -wordBound ≤ value && value < wordBound

/-- The integer that a floating point number is, or why there is none. It must lie strictly between
`-wordBound` and `wordBound`. -/
def integerOfFloat : FloatValue → Except FieldCause Int
  | .notFinite => .error .notFinite
  | .fraction => .error .fractional
  | .integer value =>
    if -wordBound < value ∧ value < wordBound then .ok value else .error .tooLarge

/-! ## Flags and texts -/

/-- A text with the capitals of ASCII made small. -/
def lowerCase (text : String) : String :=
  String.ofList (text.toList.map Char.toLower)

/-- The words that say yes. -/
def yesWords : List String :=
  ["1", "on", "t", "true", "y", "yes"]

/-- The words that say no. -/
def noWords : List String :=
  ["0", "off", "f", "false", "n", "no"]

/-- An integer as a flag: one or zero. -/
def integerAsFlag (field : String) (value : Int) : Validated Bool :=
  if value = 1 then .ok true
  else if value = 0 then .ok false
  else .fail [field] .unclearFlag

/-- A setting as a flag: a truth value, one or zero, or a word that says yes or no. An integer
that does not fit and a number with a fraction are of no type that can say either. -/
def asFlag (field : String) : Setting → Validated Bool
  | .flag value => .ok value
  | .integer value => if fitsWord value then integerAsFlag field value else .fail [field] .notFlag
  | .float value =>
    match integerOfFloat value with
    | .ok value => integerAsFlag field value
    | .error _ => .fail [field] .notFlag
  | .text value =>
    if yesWords.contains (lowerCase value) then .ok true
    else if noWords.contains (lowerCase value) then .ok false
    else .fail [field] .unclearFlag
  | _ => .fail [field] .notFlag

/-- A setting as a text. -/
def asText (location : List String) : Setting → Validated String
  | .text value => .ok value
  | _ => .fail location .notText

/-- A setting as a version of Lua that has a whitelist; blanks around it do not count. -/
def asVersion (field : String) (setting : Setting) : Validated String :=
  match setting.asText [field] with
  | .error errors => .error errors
  | .ok value =>
    let version := Text.trimString value
    if supportedVersions.contains version then .ok version
    else .fail [field] (.unsupportedVersion version)

/-- A setting as a path; a text spells one. -/
def asPath (location : List String) : Setting → Validated FilePath
  | .path value => .ok value
  | .text value => .ok (.ofString value)
  | _ => .fail location .notPath

/-- A setting as a list of values of one type. -/
def asList {α : Type} (field : String) (item : List String → Setting → Validated α) :
    Setting → Validated (List α)
  | .items values =>
    .sequence (values.zipIdx.map fun (value, index) => item [field, toString index] value)
  | _ => .fail [field] .notList

/-- A setting as a list of texts. -/
def asTexts (field : String) : Setting → Validated (List String) :=
  asList field asText

/-- A setting as a list of paths. -/
def asPaths (field : String) : Setting → Validated (List FilePath) :=
  asList field asPath

/-! ## Line numbers -/

/-- A setting as a line number: an integer, also as a floating point number, a truth value or a
text. -/
def asLine (field : String) : Setting → Validated Int
  | .flag value => .ok (if value then 1 else 0)
  | .integer value => .ok value
  | .float value =>
    match integerOfFloat value with
    | .ok line => .ok line
    | .error cause => .fail [field] cause
  | .text value =>
    match SpelledInteger.ofText value.toList with
    | .integer line => .ok line
    | .tooLong => .fail [field] .tooLarge
    | .unclear => .fail [field] .unclearInteger
  | _ => .fail [field] .notInteger

end Setting

end LuaGlobals
