import Redisdal.Lib.Regex
import Redisdal.Serialization

/-! # Connection URLs

`parse_query_params` and `parse_redis_url` of `redis_config.cpp`, cut into the steps that its comments
name. -/

namespace Redisdal

inductive RedisScheme where
  | tcp | unix | redis
deriving DecidableEq, Repr

structure RedisConfig where
  scheme : RedisScheme := .tcp
  host : Bytes := "127.0.0.1"
  port : UInt16 := 6379
  username : Bytes := []
  password : Bytes := []
  index : UInt32 := 0

structure QueryInfo where
  username : Bytes := []
  password : Bytes := []
  index : UInt32 := 0

namespace Config

/-- `([^=&]+)=([^&]*)`. -/
def paramRegex : Regex UInt8 :=
  .seq (.group (.plus fun c => c != Bytes.ofChar '=' && c != Bytes.ofChar '&'))
    (.seq (.one (· == Bytes.ofChar '=')) (.group (.star (· != Bytes.ofChar '&'))))

def uint32 : IntegralType := ⟨false, 32⟩

/-- The body of the loop over the matches. -/
def applyParam (info : QueryInfo) (key value : Bytes) : Outcome QueryInfo :=
  if key = "index" then
    let result := fromChars uint32 value
    match result.value with
    | .ok index =>
      if result.rest ≠ [] then throw (.invalidArgument "Invalid Redis database index")
      else pure { info with index := UInt32.ofInt index }
    | .error _ => throw (.invalidArgument "Invalid Redis database index")
  else if key = "db" then throw (.invalidArgument "Redis URL parameter 'db' was renamed to 'index'")
  else if key = "password" ∨ key = "auth" then pure { info with password := value }
  else if key = "username" then pure { info with username := value }
  else pure info

def applyMatch (info : QueryInfo) (captures : List Bytes) : Outcome QueryInfo := do
  let key ← deref captures[0]?
  let value ← deref captures[1]?
  applyParam info key value

def parseQueryParams (query : Bytes) : Outcome QueryInfo :=
  (paramRegex.findAll query).foldlM applyMatch {}

/-- `std::isspace` in the C locale. -/
def isSpace (b : UInt8) : Bool := b == 32 || (9 ≤ b && b ≤ 13)

/-- What `strtoul` reads after white space and an optional sign. -/
def afterSign (s : Bytes) : Bytes :=
  match s.dropWhile isSpace with
  | [] => []
  | c :: rest => if c = Bytes.ofChar '+' ∨ c = Bytes.ofChar '-' then rest else c :: rest

def hasMinus (s : Bytes) : Bool := (s.dropWhile isSpace).head? == some (Bytes.ofChar '-')

/-- `std::stoul` in base 10 where `unsigned long` has 64 bits: it stops at the first character that is no
    digit, and a minus sign negates the value modulo `2^64`. -/
def stoul (s : Bytes) : Outcome Nat :=
  let digits := (afterSign s).takeWhile Bytes.isDigit
  if digits = [] then throw (.invalidArgument "stoul")
  else if Bytes.natValue digits ≥ 2 ^ 64 then throw (.outOfRange "stoul")
  else pure (if hasMinus s then (2 ^ 64 - Bytes.natValue digits) % 2 ^ 64 else Bytes.natValue digits)

/-- `config.port = std::stoul(text)`: the value is narrowed to an `unsigned short`. -/
def parsePort (text : Bytes) : Outcome UInt16 := do
  let value ← stoul text
  pure (UInt16.ofNat value)

/-- Scheme. -/
def parseScheme (url : Bytes) : Outcome (RedisConfig × Bytes) :=
  if Bytes.ofString "tcp://" <+: url then pure ({ scheme := .tcp }, url.drop 6)
  else if Bytes.ofString "redis://" <+: url then pure ({ scheme := .redis }, url.drop 8)
  else if Bytes.ofString "unix://" <+: url then pure ({ scheme := .unix, port := 0 }, url.drop 7)
  else throw (.invalidArgument "Invalid Redis URL scheme.")

/-- The index of the query, and its credentials where it has any. -/
def applyQuery (config : RedisConfig) (info : QueryInfo) : RedisConfig :=
  { config with
    index := info.index
    username := if info.username ≠ [] then info.username else config.username
    password := if info.password ≠ [] then info.password else config.password }

/-- Query parameters. -/
def parseQuery (config : RedisConfig) (remaining : Bytes) : Outcome (RedisConfig × Bytes) :=
  match Bytes.cut (Bytes.ofChar '?') remaining with
  | none => pure (config, remaining)
  | some (before, query) => do
    let info ← parseQueryParams query
    pure (applyQuery config info, before)

/-- The credentials of a userinfo part. -/
def applyUserinfo (config : RedisConfig) (userPass : Bytes) : RedisConfig :=
  match Bytes.cut (Bytes.ofChar ':') userPass with
  | some (user, pass) => { config with username := user, password := pass }
  | none => { config with username := userPass }

/-- User:Pass. -/
def parseUserinfo (config : RedisConfig) (remaining : Bytes) : RedisConfig × Bytes :=
  match Bytes.cut (Bytes.ofChar '@') remaining with
  | none => (config, remaining)
  | some (userPass, rest) => (applyUserinfo config userPass, rest)

/-- Host and Port. -/
def parseHostPort (config : RedisConfig) (remaining : Bytes) : Outcome RedisConfig :=
  match remaining with
  | [] => throw (.invalidArgument "Missing host in Redis URL.")
  | c :: inner =>
    if c = Bytes.ofChar '[' then  -- IPv6
      match Bytes.cut (Bytes.ofChar ']') inner with
      | none => throw (.invalidArgument "Invalid IPv6 address format in URL.")
      | some (host, after) =>
        match after with
        | d :: text =>
          if d = Bytes.ofChar ':' then do
            let port ← parsePort text
            pure { config with host, port }
          else pure { config with host }
        | [] => pure { config with host }
    else  -- IPv4 or hostname
      match Bytes.cut (Bytes.ofChar ':') remaining with
      | some (host, text) => do
        let port ← parsePort text
        pure { config with host, port }
      | none => pure { config with host := remaining }

def parseUnix (config : RedisConfig) (remaining : Bytes) : Outcome RedisConfig :=
  if remaining.head? ≠ some (Bytes.ofChar '/') then throw (.invalidArgument "Unix socket path must be absolute.")
  else pure { config with host := remaining }

/-- TCP/Redis specific parsing. -/
def parseTcp (config : RedisConfig) (remaining : Bytes) : Outcome RedisConfig :=
  parseHostPort (parseUserinfo config remaining).1 (parseUserinfo config remaining).2

def parseRedisUrl (url : Bytes) : Outcome RedisConfig := do
  let parsed ← parseScheme url
  let parsed ← parseQuery parsed.1 parsed.2
  if parsed.1.scheme = .unix then parseUnix parsed.1 parsed.2 else parseTcp parsed.1 parsed.2

end Config

end Redisdal
