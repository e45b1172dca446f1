import DocumentStore.Number.Numeral
import DocumentStore.Text.Base64
import DocumentStore.Text.Uuid
import DocumentStore.Value.Basic
import DocumentStore.Value.DateTime

/-!
# Extended JSON

A value of a kind that JSON lacks is written as a document with one reserved key.  Only
a document that has exactly such a form stands for that value, and any other stands for
itself.
-/

namespace DocumentStore.Value.Extended

/-! ## Values from text -/

def objectId? (digits : String) : Option Value :=
  (ObjectId.ofHex? digits.toList).map .objectId

def int32? (digits : String) : Option Value := do
  let n ← Numeral.integer? digits.toList
  if Int32.minValue.toInt ≤ n ∧ n ≤ Int32.maxValue.toInt then return .int32 (Int32.ofInt n)
  else none

def int64? (digits : String) : Option Value := do
  let n ← Numeral.integer? digits.toList
  if Int64.minValue.toInt ≤ n ∧ n ≤ Int64.maxValue.toInt then return .int64 (Int64.ofInt n)
  else none

def double? (numeral : String) : Option Value :=
  (Binary64.ofText? numeral.toList).map .double

def decimal? (numeral : String) : Option Value :=
  (Decimal128.read? numeral.toList).map .decimal

/-- The bytes of a universally unique identifier have the subtype 4. -/
def uuid? (text : String) : Option Value :=
  (Text.Uuid.bytes? text.toList).map (.binary 4)

/-- The options stand in order.  Neither text may hold a NUL. -/
def regularExpression? (pattern options : String) : Option Value :=
  if pattern.toList.contains '\x00' || options.toList.contains '\x00' then none
  else
    let ordered := options.toList.mergeSort fun a b => a.toNat ≤ b.toNat
    some (.regularExpression pattern (String.ofList ordered))

def dateTime? (text : String) : Option Value :=
  (DateTime.read? text.toList).map fun t => .dateTime (Int64.ofInt t.milliseconds)

/-! ## Values from the content of a reserved key -/

def ofText (read : String → Option Value) : Value → Option Value
  | .string s => read s
  | _ => none

/-- Bytes in base 64 and a subtype of two hexadecimal digits, or bytes and a narrow
integer. -/
def binary? : Value → Option Value
  | .document body =>
    match Fields.get? "base64" body, Fields.get? "bytes" body, Fields.get? "subType" body with
    | some (.string letters), _, some (.string digits) => do
      let bytes ← Text.Base64.decode? letters.toList
      let [subtype] ← Text.Hex.decodeBytes? digits.toList | none
      return .binary subtype bytes
    | some (.string _), _, _ => none
    | _, some (.binary 0 bytes), some (.int32 subtype) =>
      if 0 ≤ subtype.toInt ∧ subtype.toInt < UInt8.size then
        some (.binary (UInt8.ofNat subtype.toInt.toNat) bytes)
      else none
    | _, _, _ => none
  | _ => none

def decimalBytes? : Value → Option Value
  | .binary 0 bytes => (Decimal128.ofBytes? bytes).map .decimal
  | _ => none

def expression? : Value → Option Value
  | .document body =>
    match Fields.get? "pattern" body, Fields.get? "options" body with
    | some (.string pattern), some (.string options) => regularExpression? pattern options
    | _, _ => none
  | _ => none

def pointer? : Value → Option Value
  | .document body =>
    match Fields.get? "$ref" body, Fields.get? "$id" body with
    | some (.string collection), some (.objectId id) => some (.pointer collection id)
    | _, _ => none
  | _ => none

/-- Two integers of one width; wide ones must fit 32 bits unsigned, and narrow ones are
taken as bits. -/
def timestamp? : Value → Option Value
  | .document body =>
    match Fields.get? "t" body, Fields.get? "i" body with
    | some (.int32 time), some (.int32 increment) =>
      some (.timestamp time.toUInt32 increment.toUInt32)
    | some (.int64 time), some (.int64 increment) =>
      if 0 ≤ time.toInt ∧ time.toInt < UInt32.size
          ∧ 0 ≤ increment.toInt ∧ increment.toInt < UInt32.size then
        some (.timestamp (UInt32.ofNat time.toInt.toNat) (UInt32.ofNat increment.toInt.toNat))
      else none
    | _, _ => none
  | _ => none

def date? : Value → Option Value
  | .int64 milliseconds => some (.dateTime milliseconds)
  | .string text => dateTime? text
  | _ => none

/-- A value without content stands behind the number 1. -/
def marker (value : Value) (content : Value) : Option Value :=
  if content.integer? = some 1 then some value else none

def undefined? : Value → Option Value
  | .bool true => some .undefined
  | _ => none

def forms : Fields (Value → Option Value) :=
  [ ("$oid", ofText objectId?),
    ("$symbol", ofText fun name => some (.symbol name)),
    ("$numberInt", ofText int32?),
    ("$numberLong", ofText int64?),
    ("$numberDouble", ofText double?),
    ("$numberDecimal", ofText decimal?),
    ("$numberDecimalBytes", decimalBytes?),
    ("$binary", binary?),
    ("$code", ofText fun code => some (.javaScript code)),
    ("$timestamp", timestamp?),
    ("$regularExpression", expression?),
    ("$dbPointer", pointer?),
    ("$date", date?),
    ("$minKey", marker .minKey),
    ("$maxKey", marker .maxKey),
    ("$undefined", undefined?) ]

/-- The value of a reserved form.  Code may have a scope beside it, in either order. -/
def ofForm? : Document → Option Value
  | [(key, content)] => (Fields.get? key forms).bind (· content)
  | [first, second] =>
    match Fields.get? "$code" [first, second], Fields.get? "$scope" [first, second] with
    | some (.string code), some (.document scope) => some (.scopedJavaScript code scope)
    | _, _ => none
  | _ => none

end Extended

def ofDocument (fields : Document) : Value :=
  (Extended.ofForm? fields).getD (.document fields)

end DocumentStore.Value
