import Redisdal.CmdOps
import Redisdal.Config

/-! # The synchronous connection

`sync_connection` over hiredis: the conversion of its replies, the handshake of the constructor, and
`cmd_execv`. The calls of hiredis are a parameter; its replies are data. -/

namespace Redisdal

/-! ### Replies of hiredis -/

/-- A pointer next to a count: null, or the objects that it points to. -/
inductive Block (α : Type) where
  | null (count : Nat)
  | items (values : List α)

namespace Block
variable {α : Type}

def isNull : Block α → Bool
  | null _ => true
  | items _ => false

def count : Block α → Nat
  | null count => count
  | items values => values.length

/-- The objects, as far as there are any. -/
def values : Block α → List α
  | null _ => []
  | items values => values

end Block

/-- `redisReply::type`. -/
inductive RedisReplyType where
  | string | array | integer | nil | status | error
  | other (code : Nat)
deriving DecidableEq

/-- `redisReply`: `str` stands next to `len`, and `element` next to `elements`. -/
inductive RedisReply where
  | mk (type : RedisReplyType) (integer : Int64) (str : Block UInt8) (element : Block (Option RedisReply))

namespace RedisReply

def type : RedisReply → RedisReplyType
  | mk type _ _ _ => type

def str : RedisReply → Block UInt8
  | mk _ _ str _ => str

end RedisReply

namespace SyncConnection

mutual

def convertReply : RedisReply → Outcome Reply
  | .mk type integer str element =>
    if (type = .string ∨ type = .status ∨ type = .error) ∧ str.isNull = true ∧ str.count ≠ 0 then
      throw (.runtimeError "Malformed Redis text reply")
    else
      match type with
      | .string => pure (.string str.values)
      | .status => pure (.status str.values)
      | .error => pure (.error str.values)
      | .integer => pure (.integer integer.toUInt64)  -- `make_signed_integer`
      | .nil => pure .nil
      | .array =>
        match element with
        | .null elements =>
          if elements ≠ 0 then throw (.runtimeError "Malformed Redis array reply") else pure (.array [])
        | .items elements => do
          let items ← convertElements elements
          pure (.array items)
      | .other _ => pure (.error "Unknown reply type")

/-- The loop over `element[i]`. -/
def convertElements : List (Option RedisReply) → Outcome (List Reply)
  | [] => pure []
  | none :: _ => throw (.runtimeError "Null Redis array element")
  | some reply :: elements => do
    let item ← convertReply reply
    let items ← convertElements elements
    pure (item :: items)

end

def validateOkReply (reply : CmdReply) (command : Bytes) : Outcome Unit :=
  if reply.isError then throw (.redisError (reply.strValue.getD "Unknown Redis error"))
  else if reply.type ≠ .status ∨ reply.strValue ≠ some ("OK" : Bytes) then
    throw (.runtimeError (command ++ ": expected OK"))
  else pure ()

end SyncConnection

/-! ### Contexts -/

/-- The calls of hiredis that the code makes, on contexts of type `τ`. A context is all that a call can change: the
    socket, and what the server at its other end has done. -/
structure Hiredis (τ : Type) where
  connect (host : Bytes) (port : UInt16) : Option τ
  connectUnix (path : Bytes) : Option τ
  err (context : τ) : Bool
  errstr (context : τ) : Bytes
  /-- `redisCommandArgv`; no reply on a transport error. -/
  commandArgv (context : τ) (argv : List Bytes) : Option RedisReply × τ

namespace SyncConnection
variable {τ : Type} (H : Hiredis τ)

def intMax : Nat := 2 ^ 31 - 1

/-- `c_str()`, as far as a reader of C strings sees it. -/
def cStr (s : Bytes) : Bytes := s.takeWhile (· ≠ 0)

/-- `std::string(str, len)`, for which a null pointer next to a length is undefined. -/
def stringOf (str : Block UInt8) : Outcome Bytes :=
  if str.isNull = true ∧ str.count ≠ 0 then .error .undefinedBehavior else pure str.values

/-- `execv` on the `context` of the connection. -/
def execv (argv : List Bytes) : Program Exn (Option τ) RedisReply := do
  if argv = [] then Program.throw (.invalidArgument "Invalid Redis command argument arrays")
  if argv.length > intMax then Program.throw (.lengthError "Too many Redis command arguments")
  match ← Program.get with
  | none => Program.throw (.logicError "Redis connection is not available")
  | some context =>
    let answer := H.commandArgv context argv
    Program.modify fun _ => some answer.2
    match answer.1 with
    | none => Program.throw (.runtimeError ("Redis command failed: " ++ H.errstr answer.2))
    | some reply =>
      if reply.type = .error then do
        let message ← Program.ofExcept (stringOf reply.str)
        Program.throw (.redisError message)
      else pure reply

def execArgs (args : List Bytes) : Program Exn (Option τ) RedisReply := do
  if args = [] then Program.throw (.invalidArgument "Redis command must not be empty")
  if args.length > intMax then Program.throw (.lengthError "Too many Redis command arguments")
  execv H args

/-- `convert_reply(*exec_args(args))`. -/
def execConverted (args : List Bytes) : Program Exn (Option τ) Reply := (execArgs H args).decode convertReply

def cmdExecv : Executor (Option τ) := fun args =>
  Program.tryCatch (execConverted H args) fun e =>
    match e with
    | .redisError message => pure (.error message)
    | e => Program.throw e

/-- A command of the handshake: `validate_ok_reply(convert_reply(*exec_args(args)), command)`. -/
def execOk (args : List Bytes) (command : Bytes) : Program Exn (Option τ) Unit :=
  (execConverted H args).decode fun reply => validateOkReply reply.toCmdReply command

/-- `redisConnect` or `redisConnectUnix`. -/
def connect (config : RedisConfig) : Option τ :=
  match config.scheme with
  | .tcp | .redis => H.connect (cStr config.host) config.port
  | .unix => H.connectUnix (cStr config.host)

/-- The check of a context that has just been connected. -/
def checkContext : Option τ → Outcome Unit
  | none => throw (.runtimeError (("Redis connect failed: " : Bytes) ++ "could not allocate context"))
  | some context =>
    if H.err context = true then throw (.runtimeError (("Redis connect failed: " : Bytes) ++ H.errstr context))
    else pure ()

/-- The constructor, from `AUTH` on. -/
def handshake (config : RedisConfig) : Program Exn (Option τ) Unit := do
  if config.password ≠ [] then
    if config.username ≠ [] then execOk H ["AUTH", config.username, config.password] "AUTH"
    else execOk H ["AUTH", config.password] "AUTH"
  if config.index ≠ 0 then execOk H ["SELECT", Bytes.decimal config.index.toNat] "SELECT"

/-- The constructor. -/
def construct (url : Bytes) : Program Exn (Option τ) Unit := do
  let config ← Program.ofExcept (Config.parseRedisUrl url)
  Program.modify fun _ => connect H config
  Program.ofExcept (checkContext H (connect H config))
  handshake H config

end SyncConnection

end Redisdal
