import UniShare.Lib.Strconv

/-!
# JSON values and the `gjson` reader

`Json` is the syntax of JSON documents. `Gjson` is the interface of the third-party `gjson`
package: its `Result` is an `Option Json`, where `none` is a value that does not exist. The laws
are the documented behaviour that the program relies on: in a path an unescaped dot separates
keys and an escaped character is literal. Other path syntax (wildcards, queries, modifiers, array
indices) is left unspecified by `PlainPath`.
-/

namespace UniShare.Lib

/-- A JSON document. Numbers keep their text. -/
inductive Json where
  | null
  | bool (value : Bool)
  | number (text : String)
  | string (text : String)
  | array (items : List Json)
  | object (members : List (String × Json))

namespace Json

/-- The member of an object under a key, `none` when there is none or the value is no object. -/
def member : Option Json → String → Option Json
  | some (.object members), key => members.lookup key
  | _, _ => none

@[simp] theorem member_none (key : String) : member none key = none := rfl

@[simp] theorem member_string (text key : String) : member (some (.string text)) key = none := rfl

@[simp] theorem member_object (members : List (String × Json)) (key : String) :
    member (some (.object members)) key = members.lookup key := rfl

/-- The member list of a string field tagged `omitempty`. -/
def omitEmpty (key text : String) : List (String × Json) :=
  if text = "" then [] else [(key, .string text)]

/-- Looking a key up behind an `omitempty` field. -/
theorem lookup_omit_empty (key text other : String) (rest : List (String × Json)) :
    (omitEmpty key text ++ rest).lookup other =
      if other = key then
        (if text = "" then rest.lookup other else some (.string text))
      else rest.lookup other := by
  unfold omitEmpty
  by_cases htext : text = ""
  · simp [htext]
  · by_cases hkey : other = key
    · subst hkey
      simp [htext]
    · have hbeq : (other == key) = false := by simpa using hkey
      simp [hkey, htext, List.lookup, hbeq]

/-- Looking a key up in a single `omitempty` field. -/
theorem lookup_omit_empty_last (key text other : String) :
    (omitEmpty key text).lookup other =
      if other = key then (if text = "" then none else some (.string text)) else none := by
  simpa using lookup_omit_empty key text other []

end Json

/-- Put a character in front of the first key. -/
def consKey (c : Char) : List (List Char) → List (List Char)
  | [] => [[c]]
  | key :: keys => (c :: key) :: keys

/-- The keys of a path: an unescaped dot separates keys, a backslash makes the next character
literal. -/
def splitPath : List Char → List (List Char)
  | [] => [[]]
  | '\\' :: c :: rest => consKey c (splitPath rest)
  | '.' :: rest => [] :: splitPath rest
  | c :: rest => consKey c (splitPath rest)

/-- The keys of a path, as texts. -/
def pathKeys (path : String) : List String :=
  (splitPath path.toList).map String.ofList

/-- A path of letters, digits, `-`, `_`, `/`, dots and escapes, with no empty and no numeric
key. -/
def PlainPath (path : String) : Prop :=
  (∀ c ∈ path.toList, c.isAlphanum ∨ c ∈ ['-', '_', '/', '.', '\\']) ∧
    ∀ key ∈ splitPath path.toList, ∃ c ∈ key, ¬ c.isDigit

instance (path : String) : Decidable (PlainPath path) :=
  decidable_of_iff
    ((path.toList.all fun c => c.isAlphanum ∨ c ∈ ['-', '_', '/', '.', '\\']) ∧
      (splitPath path.toList).all fun key => key.any fun c => ¬ c.isDigit)
    (by simp [PlainPath])

/-- The interface of the `gjson` package, with the documented behaviour of its operations. -/
class Gjson where
  /-- `Result.Get` -/
  get : Option Json → String → Option Json
  /-- The values that `Result.ForEach` passes to its callback, in order. -/
  forEach : Option Json → List Json
  /-- `Result.String` -/
  string : Option Json → String
  /-- `Result.Int` -/
  int : Option Json → Int64
  get_path (result : Option Json) {path : String} :
    PlainPath path → get result path = (pathKeys path).foldl Json.member result
  forEach_none : forEach none = []
  forEach_array (items : List Json) : forEach (some (.array items)) = items
  string_none : string none = ""
  string_string (text : String) : string (some (.string text)) = text
  int_none : int none = 0
  int_decimal (n : Int64) : int (some (.string (formatInt n))) = n

attribute [simp] Gjson.forEach_none Gjson.forEach_array Gjson.string_none Gjson.string_string
  Gjson.int_none Gjson.int_decimal

namespace Gjson

/-- A path that is a single key. -/
def IsKey (key : String) : Prop :=
  PlainPath key ∧ pathKeys key = [key]

instance (key : String) : Decidable (IsKey key) :=
  inferInstanceAs (Decidable (_ ∧ _))

/-- Getting a single key is looking the member up. -/
theorem get_key [Gjson] {key : String} (h : IsKey key) (result : Option Json) :
    get result key = Json.member result key := by
  rw [get_path result h.1, h.2, List.foldl_cons, List.foldl_nil]

/-- A reader that meets the laws: paths are split at unescaped dots, texts are read as decimal
numbers. -/
@[reducible] def reader : Gjson where
  get result path := (pathKeys path).foldl Json.member result
  forEach
    | some (.array items) => items
    | some (.object members) => members.map Prod.snd
    | some scalar => [scalar]
    | none => []
  string
    | some (.string text) => text
    | some (.number text) => text
    | some (.bool value) => toString value
    | _ => ""
  int
    | some (.string text) => parseInt text
    | some (.number text) => parseInt text
    | some (.bool true) => 1
    | _ => 0
  get_path _ _ _ := rfl
  forEach_none := rfl
  forEach_array _ := rfl
  string_none := rfl
  string_string _ := rfl
  int_none := rfl
  int_decimal := parse_format

end Gjson

end UniShare.Lib
