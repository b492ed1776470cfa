import Redisdal.Client

/-! # The typed facade

`redis_template`: the serializers, the key set of `keys`, the script cache of `script_load` and `eval_sha1`,
and the commands on keys. A method that changes an out-parameter or the cache is a program over it next to the
state of the connection. -/

namespace Redisdal

/-- The injected serializers of a `redis_template<K, V>`. -/
structure Template (K V : Type) where
  keySerializer : Serializer K
  valueSerializer : Serializer V

/-- `string_redis_template`. -/
def stringTemplate : Template Bytes Bytes := ⟨stringSerializer, stringSerializer⟩

/-- `sha1_cache`: the script behind each digest that `script_load` has returned. -/
abbrev Sha1Cache : Type := UnorderedMap Bytes Bytes

namespace Template
variable {K V σ : Type} (tpl : Template K V) (E : Executor σ)

def serializeKey (key : K) : Outcome Bytes := tpl.keySerializer.serialize key

def deserializeKey (data : Bytes) : Outcome K := tpl.keySerializer.deserialize data

def serializeValue (value : V) : Outcome Bytes := tpl.valueSerializer.serialize value

def deserializeValue (data : Bytes) : Outcome V := tpl.valueSerializer.deserialize data

def keys [Platform] [DecidableEq K] (pattern : Bytes) : Program Exn (UnorderedSet K × σ) Unit := do
  let found ← (Program.withLocal ∅ (Client.keys E pattern)).lift
  forM ((visit found.2).map Prod.fst) fun sKey => do
    let key ← Program.ofExcept (tpl.deserializeKey sKey)
    Program.modify fun s => (s.1.emplace key (), s.2)

def scriptLoad (script : Bytes) : Program Exn (Sha1Cache × σ) Bytes := do
  let sha ← (Client.scriptLoad E script).lift
  Program.modify fun s => (s.1.emplace sha script, s.2)
  pure sha

/-- The handler of `no_script_error` in `eval_sha1`: reload the cached script and retry. -/
def reload (sha1 : Bytes) (sKeys sArgs : List Bytes) (missing : Exn) : Program Exn (Sha1Cache × σ) CmdReply := do
  let s ← Program.get
  match AList.lookup sha1 s.1 with
  | none => Program.throw missing
  | some script => do
    let newSha ← (Client.scriptLoad E script).lift
    Program.modify fun s => (s.1.emplace newSha script, s.2)
    (Client.evalSha1 E newSha sKeys sArgs).lift

def evalSha1 (sha1 : Bytes) (keys : List K) (args : List V) : Program Exn (Sha1Cache × σ) CmdReply := do
  let sKeys ← Program.ofExcept (keys.mapM tpl.serializeKey)
  let sArgs ← Program.ofExcept (args.mapM tpl.serializeValue)
  Program.tryCatch (Client.evalSha1 E sha1 sKeys sArgs).lift fun e =>
    if e.isNoScript then reload E sha1 sKeys sArgs e else Program.throw e

/-! ### Commands on keys, and commands as they are -/

def «exists» (key : K) : Program Exn σ Bool := do
  let serializedKey ← Program.ofExcept (tpl.serializeKey key)
  Client.exists E serializedKey

def scan [Platform] [DecidableEq K] (cursor : UInt64) (pattern : Bytes) (count : UInt32) :
    Program Exn σ (UInt64 × UnorderedSet K) :=
  (Client.scan E cursor pattern count).decode fun sResult => do
    let keys ← ((visit sResult.2).map Prod.fst).mapM tpl.deserializeKey
    pure (sResult.1, Client.insertKeys ∅ keys)

def type (key : K) : Program Exn σ Bytes := do
  let serializedKey ← Program.ofExcept (tpl.serializeKey key)
  Client.type E serializedKey

def expire (key : K) (seconds : Int) : Program Exn σ Bool := do
  let serializedKey ← Program.ofExcept (tpl.serializeKey key)
  Client.expire E serializedKey seconds

def pexpire (key : K) (milliseconds : Int) : Program Exn σ Bool := do
  let serializedKey ← Program.ofExcept (tpl.serializeKey key)
  Client.pexpire E serializedKey milliseconds

def del (key : K) : Program Exn σ Int := do
  let serializedKey ← Program.ofExcept (tpl.serializeKey key)
  Client.del E serializedKey

def delMany (keys : List K) : Program Exn σ Int := do
  let sKeys ← Program.ofExcept (keys.mapM tpl.serializeKey)
  Client.delMany E sKeys

def ttl (key : K) : Program Exn σ Int := do
  let serializedKey ← Program.ofExcept (tpl.serializeKey key)
  Client.ttl E serializedKey

def pttl (key : K) : Program Exn σ Int := do
  let serializedKey ← Program.ofExcept (tpl.serializeKey key)
  Client.pttl E serializedKey

def persist (key : K) : Program Exn σ Bool := do
  let serializedKey ← Program.ofExcept (tpl.serializeKey key)
  Client.persist E serializedKey

def ping : Program Exn σ Bytes := Client.ping E

def pingMessage (message : Bytes) : Program Exn σ Bytes := Client.pingMessage E message

def eval (script : Bytes) (keys : List K) (args : List V) : Program Exn σ CmdReply := do
  let sKeys ← Program.ofExcept (keys.mapM tpl.serializeKey)
  let sArgs ← Program.ofExcept (args.mapM tpl.serializeValue)
  Client.eval E script sKeys sArgs

def execCmd (cmd : Bytes) (args : List Bytes) : Program Exn σ CmdReply := Client.command E cmd args

end Template

end Redisdal
