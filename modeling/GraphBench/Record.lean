import GraphBench.Component.Basic
import GraphBench.Json.Printer
import GraphBench.Json.Reader

/-!
The record of a component: one line `Key-<index>-<fields>` with the fields as a JSON object.
-/

namespace GraphBench

inductive RecordError where
  | missingKey
  | badIndex (text : String)
  | indexMismatch (expected found : UInt64)
  | badPayload
  deriving DecidableEq

def RecordError.message : RecordError → String
  | .missingKey => "record does not start with " ++ quoted "Key-"
  | .badIndex text => "record index " ++ quoted text ++ " is not an unsigned integer"
  | .indexMismatch expected found =>
    "record index " ++ Decimal.ofUInt64 found ++ " found at position " ++ Decimal.ofUInt64 expected
  | .badPayload => "record payload is not a map of fields"

namespace Record

def encode (index : UInt64) (fields : FieldMap) : String :=
  String.ofList
    (['K', 'e', 'y', '-'] ++ Decimal.digits index.toNat ++ '-' :: fields.toJson.compact)

/-- The text up to the first `-` and the text behind it. -/
def splitAtDash? : List Char → Option (List Char × List Char)
  | [] => none
  | c :: cs =>
    if c = '-' then some ([], cs)
    else (splitAtDash? cs).map fun (before, behind) => (c :: before, behind)

/-- Reads what follows the key: the index, and the fields behind the next `-`. -/
def decodeKeyed (rest : List Char) : Except RecordError (UInt64 × FieldMap) :=
  match splitAtDash? rest with
  | none => .error (.badIndex (String.ofList (rest.take 20)))
  | some (index, payload) =>
    match Decimal.read UInt64.size index with
    | .error _ => .error (.badIndex (String.ofList index))
    | .ok n =>
      match (Json.ofChars? payload).bind FieldMap.ofJson? with
      | none => .error .badPayload
      | some fields => .ok (UInt64.ofNat n, fields)

def decode (line : String) : Except RecordError (UInt64 × FieldMap) :=
  match line.toList with
  | 'K' :: 'e' :: 'y' :: '-' :: rest => decodeKeyed rest
  | _ => .error .missingKey

/-- The fields of a record whose index must be its position in the file. -/
def decodeAt (position : UInt64) (line : String) : Except RecordError FieldMap :=
  match decode line with
  | .error e => .error e
  | .ok (index, fields) =>
    if index = position then .ok fields else .error (.indexMismatch position index)

end Record

end GraphBench
