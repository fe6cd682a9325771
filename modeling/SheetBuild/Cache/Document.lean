import SheetBuild.Entry
import SheetBuild.Json.Printer
import SheetBuild.Json.Reader
import SheetBuild.Text.Newline
set_option autoImplicit false

/-!
# Documents of entries

An entry is persisted as one compact JSON object with a version, so that documents of another layout
are recognized and refused.  `serialize` writes it, unless a number in the entry has too many digits,
and `deserialize` reads it; `ofBytes` reads the content of a file.
-/

namespace SheetBuild.Cache

open SheetBuild.Json (Value)

/-- The version of the layout. -/
def documentVersion : String := "1"

/-- A field that is written only where it has a value. -/
def presentField (name : String) (v : Option Value) : List (String × Value) :=
  match v with
  | some w => [(name, w)]
  | none => []

/-- The object of a diagnostic. -/
def diagnosticDocument (d : Diagnostic) : Value :=
  .object ([("k", .text d.kind.word), ("msg", .ofLoose d.message)]
    ++ presentField "file" (d.sourceFile.map .ofLoose)
    ++ presentField "line" (d.line.map .int)
    ++ presentField "col" (d.column.map .int))

/-- The object of an entry. -/
def document (e : Entry) : Value :=
  .object ([("v", .text documentVersion), ("deps", .array (e.dependencies.map .ofLoose))]
    ++ presentField "css" (e.css?.map .ofLoose)
    ++ presentField "map" (e.sourceMap.map .ofLoose)
    ++ presentField "diag" (e.diagnostic?.map diagnosticDocument))

/-- The text of an entry's document. -/
def serialize (e : Entry) : Except Json.WriteError String :=
  (Json.write (document e)).map String.ofList

/-- Why a text is no document of an entry. -/
inductive DocumentError where
  /-- the text is not read as JSON -/
  | notRead (e : Json.ReadError)
  | notObject
  /-- the version is another; null where none is given -/
  | version (found : Value)
  | missing (field : String)
  /-- the dependencies are a value that has no items -/
  | notIterable (found : Value)
  /-- the diagnostic is a value that has no fields -/
  | noFields (found : Value)
  | unknownKind (found : Value)
  | invalid (errors : List Record.FieldError)

/-- The name of a value's type in messages. -/
def typeName : Value → String
  | .null => "NoneType"
  | .bool _ => "bool"
  | .int _ => "int"
  | .real _ => "float"
  | .text _ => "str"
  | .broken _ => "str"
  | .array _ => "list"
  | .object _ => "dict"
  | .torn _ => "dict"

/-- The wording of a document error; the faults of fields have their own. -/
def DocumentError.message : DocumentError → String
  | .notRead .malformed => "Cache artifact is not JSON"
  | .notRead (.longInteger digits) => Number.Integer.limitMessage digits
  | .notRead (.tooDeep e) => e.message
  | .notObject => "Cache artifact must be a JSON object"
  | .version v => "Unsupported artifact format version: " ++ String.ofList (Json.describe v)
  | .missing f => "Malformed cache artifact: '" ++ f ++ "'"
  | .notIterable v => "Malformed cache artifact: '" ++ typeName v ++ "' object is not iterable"
  | .noFields v =>
    "Malformed cache artifact: " ++
      match v with
      | .array _ => "list indices must be integers or slices, not str"
      | .text _ => "string indices must be integers, not 'str'"
      | .broken _ => "string indices must be integers, not 'str'"
      | v => "'" ++ typeName v ++ "' object is not subscriptable"
  | .unknownKind v => String.ofList (Json.describe v) ++ " is not a valid DiagnosticKind"
  | .invalid _ => "Invalid cache artifact"

/-- The items of a value: those of an array, the characters of a text, the names of an object. -/
def itemsOf : Value → Option (List Value)
  | .array vs => some vs
  | .text s => some (s.toList.map fun c => .text (String.singleton c))
  | .broken t => some (t.points.map fun p => .ofLoose (.ofPoints [p]))
  | .object fs => some (fs.map fun f => .text f.1)
  | .torn fs => some (fs.map (·.1))
  | _ => none

/-- The diagnostic that a value writes. -/
def diagnosticOf (v : Value) : Except DocumentError Diagnostic :=
  match v.fields? with
  | some fields =>
    match Value.lookup fields "k" with
    | none => .error (.missing "k")
    | some k =>
      match k with
      | .text word =>
        match DiagnosticKind.ofWord? word, Value.lookup fields "msg" with
        | none, _ => .error (.unknownKind k)
        | some _, none => .error (.missing "msg")
        | some _, some msg =>
          let field name := Record.Raw.value ((Value.lookup fields name).getD .null)
          match Diagnostic.ofFields [("kind", .value k), ("message", .value msg),
              ("source_file", field "file"), ("line", field "line"), ("column", field "col")] with
          | .ok d => .ok d
          | .error es => .error (.invalid es)
      | k => .error (.unknownKind k)
  | none => .error (.noFields v)

/-- The entry that the fields of a document of this version write. -/
def entryOf (fields : List (String × Value)) : Except DocumentError Entry :=
  let field name := (Value.lookup fields name).getD .null
  match Value.lookup fields "deps" with
  | none => .error (.missing "deps")
  | some deps =>
    match itemsOf deps with
    | none => .error (.notIterable deps)
    | some items =>
      let diagnostic : Except DocumentError (Option Diagnostic) :=
        match field "diag" with
        | .null => .ok none
        | v => (diagnosticOf v).map some
      match diagnostic with
      | .error e => .error e
      | .ok d =>
        match Entry.ofFields [("css", .value (field "css")), ("source_map", .value (field "map")),
            ("dependencies", .value (.array items))] d with
        | .ok e => .ok e
        | .error es => .error (.invalid es)

/-- The entry that a value writes. -/
def ofDocument (v : Value) : Except DocumentError Entry :=
  match v.fields? with
  | some fields =>
    match Value.lookup fields "v" with
    | some (.text version) =>
      if version = documentVersion then entryOf fields else .error (.version (.text version))
    | some v => .error (.version v)
    | none => .error (.version .null)
  | none => .error .notObject

/-- The entry that a text writes. -/
def deserialize (data : String) : Except DocumentError Entry :=
  match Json.read data.toList with
  | .error e => .error (.notRead e)
  | .ok v => ofDocument v

/-- What the content of a file is. -/
inductive Content where
  | entry (e : Entry)
  /-- no text, or no document -/
  | unreadable
  /-- brackets beyond the depth that is read, which may be a document or not -/
  | tooDeep (e : Json.TooDeep)
  deriving DecidableEq, Repr

/-- What the bytes of a file are. -/
def Content.ofBytes (content : Bytes) : Content :=
  match Text.Utf8.decode? content with
  | none => .unreadable
  | some cs =>
    match deserialize (String.ofList (Text.unifyNewlines cs)) with
    | .ok e => .entry e
    | .error (.notRead (.tooDeep e)) => .tooDeep e
    | .error _ => .unreadable

end SheetBuild.Cache
