import Redisdal.Serialization

/-! # Command replies

`cmd_reply` of `common.hpp`, a tag next to five independent optional payloads, and its decoders in
`cmd_reply.cpp`. Each unchecked access of the code (`*array_value`, `*get_signed_integer()`,
`items[i + 1]`) is a `deref` or a case that ends in `undefinedBehavior`. -/

namespace Redisdal

inductive ReplyType where
  | string | array | integer | nil | status | error | double | bool
deriving DecidableEq, Repr

structure CmdReply where
  type : ReplyType
  strValue : Option Bytes
  intValue : Option UInt64
  doubleValue : Option Double
  boolValue : Option Bool
  arrayValue : Option (List CmdReply)

/-- A stream entry: its id and its fields, in order and with repeats. -/
structure StreamEntry (K V : Type) where
  id : Bytes
  fields : List (K × V)

/-- A stream key and the entries returned for it. -/
structure StreamBatch (K V : Type) where
  key : K
  entries : List (StreamEntry K V)

namespace CmdReply

/-! ### Constructors and factories -/

/-- `cmd_reply()`. -/
def makeNil : CmdReply := ⟨.nil, none, none, none, none, none⟩
def makeError (message : Bytes) : CmdReply := { makeNil with type := .error, strValue := some message }
def makeString (value : Bytes) : CmdReply := ⟨.string, some value, none, none, none, none⟩
def makeInteger (value : UInt64) : CmdReply := ⟨.integer, none, some value, none, none, none⟩
/-- `static_cast<uint64_t>(value)` of a signed value is its residue modulo `2^64`. -/
def makeSignedInteger (value : Int) : CmdReply := makeInteger (UInt64.ofInt value)
def makeDouble (value : Double) : CmdReply := ⟨.double, none, none, some value, none, none⟩
def makeBool (value : Bool) : CmdReply := ⟨.bool, none, none, none, some value, none⟩
def makeArray (value : List CmdReply) : CmdReply := ⟨.array, none, none, none, none, some value⟩
def makeStatus (value : Bytes) : CmdReply := { makeNil with type := .status, strValue := some value }

/-! ### Accessors -/

/-- The signed view of the unsigned storage; no intermediate value leaves the range of `int64_t`. -/
def getSignedInteger (r : CmdReply) : Option Int :=
  r.intValue.map fun v =>
    if v.toNat ≤ 2 ^ 63 - 1 then (v.toNat : Int) else -1 - ((2 ^ 64 - 1 - v.toNat : Nat) : Int)

def isNil (r : CmdReply) : Bool := r.type == .nil

def isError (r : CmdReply) : Bool := r.type == .error

def typeName (r : CmdReply) : Bytes :=
  match r.type with
  | .string => "string"
  | .array => "array"
  | .integer => "integer"
  | .nil => "nil"
  | .status => "status"
  | .error => "error"
  | .double => "double"
  | .bool => "bool"

def asText (r : CmdReply) (command : Bytes) : Outcome Bytes :=
  match r.strValue with
  | none => throw (.unexpectedReplyType command "text" r.typeName)
  | some text => pure text

def asString (r : CmdReply) (command : Bytes) : Outcome Bytes :=
  if r.type ≠ .string then throw (.unexpectedReplyType command "string" r.typeName) else r.asText command

def asStatus (r : CmdReply) (command : Bytes) : Outcome Bytes :=
  if r.type ≠ .status then throw (.unexpectedReplyType command "status" r.typeName) else r.asText command

def asArray (r : CmdReply) (command : Bytes) : Outcome (List CmdReply) :=
  if r.type ≠ .array then throw (.unexpectedReplyType command "array" r.typeName) else deref r.arrayValue

def asInteger (r : CmdReply) (command : Bytes) : Outcome Int :=
  if r.type ≠ .integer then throw (.unexpectedReplyType command "integer" r.typeName)
  else deref r.getSignedInteger

def statusIsOk (r : CmdReply) (command : Bytes) : Outcome Bool := do
  let status ← r.asStatus command
  pure (status == "OK")

/-! ### Decoders -/

def optionalString (r : CmdReply) (command : Bytes) : Outcome (Option Bytes) :=
  if r.isNil then pure none else do
    let text ← r.asString command
    pure (some text)

def strings (r : CmdReply) (command : Bytes) : Outcome (List Bytes) :=
  if r.isNil then pure [] else do
    let items ← r.asArray command
    items.mapM fun item => item.asString command

/-- The loop `for (i = 0; i < items.size(); i += 2)` over `items[i]` and `items[i + 1]`. -/
def pairwise {α : Type} (pair : CmdReply → CmdReply → Outcome α) : List CmdReply → Outcome (List α)
  | [] => pure []
  | [_] => .error .undefinedBehavior
  | x :: y :: rest => do
    let a ← pair x y
    let l ← pairwise pair rest
    pure (a :: l)

/-- A field and its value, both strings: the arguments of one `emplace`. -/
def fieldValue [Platform] (command : Bytes) (field value : CmdReply) : Outcome (Bytes × Bytes) :=
  bothArguments (field.asString command) (value.asString command)

def hash [Platform] (r : CmdReply) (command : Bytes) : Outcome (UnorderedMap Bytes Bytes) := do
  let items ← r.asArray command
  if items.length % 2 ≠ 0 then
    throw (.runtimeError (command ++ ": expected an even number of field-value elements"))
  let fields ← pairwise (fieldValue command) items
  pure (UnorderedMap.emplaceAll ∅ fields)

def optionalScore [Platform] (r : CmdReply) (command : Bytes) : Outcome (Option Double) := do
  let text ← r.optionalString command
  match text with
  | none => pure none
  | some text =>
    match doubleFromString text with
    | .ok score => pure (some score)
    | .error _ => throw (.runtimeError (command ++ ": failed to convert score to double"))

/-- `optional::value()`. -/
def optionalValue {α : Type} : Option α → Outcome α
  | some a => pure a
  | none => throw .badOptionalAccess

def memberScore [Platform] (command : Bytes) (member score : CmdReply) : Outcome (Bytes × Double) :=
  bothArguments (member.asString command) (score.optionalScore command >>= optionalValue)

def scores [Platform] (r : CmdReply) (command : Bytes) : Outcome (List (Bytes × Double)) :=
  if r.isNil then pure [] else do
    let items ← r.asArray command
    if items.length % 2 ≠ 0 then
      throw (.runtimeError (command ++ ": expected an even number of member-score elements"))
    pairwise (memberScore command) items

def scanCursor (r : CmdReply) (command : Bytes) : Outcome UInt64 := do
  let parts ← r.asArray command
  if parts.length ≠ 2 then
    throw (.runtimeError (command ++ ": expected a cursor and result array"))
  let results ← deref parts[1]?
  let _ ← results.asArray command
  let cursor ← deref parts[0]?
  let text ← cursor.asString command
  let value ← integralFromString .uint64 text
  pure (UInt64.ofInt value)

def streamEntry [Platform] (command : Bytes) (entry : CmdReply) : Outcome (StreamEntry Bytes Bytes) := do
  let parts ← entry.asArray command
  if parts.length ≠ 2 then
    throw (.runtimeError (command ++ ": expected a two-element stream entry"))
  let first ← deref parts[0]?
  let id ← first.asString command
  let second ← deref parts[1]?
  if second.isNil then pure ⟨id, []⟩ else do
    let fields ← second.asArray command
    if fields.length % 2 ≠ 0 then
      throw (.runtimeError (command ++ ": expected an even number of field-value elements"))
    let pairs ← pairwise (fieldValue command) fields
    pure ⟨id, pairs⟩

def streamEntries [Platform] (r : CmdReply) (command : Bytes) : Outcome (List (StreamEntry Bytes Bytes)) :=
  if r.isNil then pure [] else do
    let entries ← r.asArray command
    entries.mapM (streamEntry command)

def streamBatch [Platform] (command : Bytes) (batch : CmdReply) : Outcome (StreamBatch Bytes Bytes) := do
  let parts ← batch.asArray command
  if parts.length ≠ 2 then
    throw (.runtimeError (command ++ ": expected a two-element stream batch"))
  let first ← deref parts[0]?
  let key ← first.asString command
  let second ← deref parts[1]?
  let entries ← second.streamEntries command
  pure ⟨key, entries⟩

def streamBatches [Platform] (r : CmdReply) (command : Bytes) : Outcome (List (StreamBatch Bytes Bytes)) :=
  if r.isNil then pure [] else do
    let batches ← r.asArray command
    batches.mapM (streamBatch command)

def throwIfError (r : CmdReply) : Outcome Unit :=
  if r.isError then do
    let message ← r.asText "Redis command"
    throw (.redisError message)
  else pure ()

def orThrow (r : CmdReply) : Outcome CmdReply := do
  r.throwIfError
  pure r

end CmdReply

/-! ### Reply trees

The payloads of a `cmd_reply` are private, so that code outside the class builds a reply from the public
constructors and factories only: it builds a tree. -/

/-- A reply as the public constructors and factories build it. -/
inductive Reply where
  | string (value : Bytes)
  | status (value : Bytes)
  | error (message : Bytes)
  | integer (value : UInt64)
  | nil
  | double (value : Double)
  | bool (value : Bool)
  | array (items : List Reply)

namespace Reply

def kind : Reply → ReplyType
  | string _ => .string
  | status _ => .status
  | error _ => .error
  | integer _ => .integer
  | nil => .nil
  | double _ => .double
  | bool _ => .bool
  | array _ => .array

mutual

def toCmdReply : Reply → CmdReply
  | string value => .makeString value
  | status value => .makeStatus value
  | error message => .makeError message
  | integer value => .makeInteger value
  | nil => .makeNil
  | double value => .makeDouble value
  | bool value => .makeBool value
  | array items => .makeArray (toCmdReplies items)

def toCmdReplies : List Reply → List CmdReply
  | [] => []
  | item :: items => toCmdReply item :: toCmdReplies items

end

@[simp] theorem toCmdReplies_eq_map : ∀ items : List Reply, toCmdReplies items = items.map toCmdReply
  | [] => rfl
  | item :: items => by rw [toCmdReplies, toCmdReplies_eq_map items, List.map_cons]

end Reply

end Redisdal
