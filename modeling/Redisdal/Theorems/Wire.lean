import Redisdal.Theorems.RedisServer
import Redisdal.Theorems.ReplyConversion

/-! # A service and the way to it

The server and hiredis as parameters. All that is known of the server is what its commands are documented to do, over
some view of its state; all that is known of hiredis is that it hands over a command and what comes back, unless one of
them is lost. -/

namespace Redisdal

/-! ### Replies on the wire -/

/-- The `redisReply` carries the reply: the kind, the text or the number, and the elements. -/
inductive Reply.Carried : Reply → RedisReply → Prop where
  | string {value integer str element} (h : Block.Holds str value) :
    Carried (.string value) (.mk .string integer str element)
  | status {value integer str element} (h : Block.Holds str value) :
    Carried (.status value) (.mk .status integer str element)
  | error {message integer str element} (h : Block.Holds str message) :
    Carried (.error message) (.mk .error integer str element)
  | integer {n : Int64} {str element} : Carried (.integer n.toUInt64) (.mk .integer n str element)
  | nil {integer str element} : Carried .nil (.mk .nil integer str element)
  | array {items : List Reply} {trees : List RedisReply} {integer str element}
    (h : Block.Holds element (trees.map some)) (length : items.length = trees.length)
    (all : ∀ p ∈ items.zip trees, Carried p.1 p.2) : Carried (.array items) (.mk .array integer str element)

theorem convertElements_of_carried {items : List Reply} {trees : List RedisReply}
    (hlength : items.length = trees.length)
    (h : ∀ p ∈ items.zip trees, SyncConnection.convertReply p.2 = .ok p.1) :
    SyncConnection.convertElements (trees.map some) = .ok items := by
  induction items generalizing trees with
  | nil => cases trees with
    | nil => rfl
    | cons => cases hlength
  | cons item items ih => cases trees with
    | nil => cases hlength
    | cons tree trees =>
      obtain ⟨hitem, hitems⟩ := List.forall_mem_cons.mp h
      rw [List.map_cons, SyncConnection.convertElements, hitem, Except.ok_bind, ih (Nat.succ.inj hlength) hitems]
      rfl

/-- What is carried is what the connection converts. -/
theorem convertReply_of_carried {reply : Reply} {tree : RedisReply} (h : reply.Carried tree) :
    SyncConnection.convertReply tree = .ok reply := by
  induction h with
  | string h | status h | error h => cases h <;> rfl
  | integer | nil => rfl
  | @array items trees integer str element h hlength _ ih =>
    have helements := convertElements_of_carried hlength ih
    generalize trees.map some = elements at h helements
    cases h with
    | empty =>
      cases helements
      rfl
    | items =>
      rw [SyncConnection.convertReply_array, helements]
      rfl

/-- The same reply, but for the text of an error. -/
def Reply.Alike (reply reply' : Reply) : Prop :=
  reply = reply' ∨ ∃ message message', reply = .error message ∧ reply' = .error message'

/-! ### Services -/

/-- What becomes of a command. A loss is an error of the connection, of which `errstr` is the text. -/
inductive Delivery where
  | delivered
  | requestLost (errstr : Bytes)
  | replyLost (errstr : Bytes)

/-- A server, and hiredis on connections to it. -/
structure Service (σ : Type) where
  start : σ
  /-- The reply to a command, and the server after it. -/
  command : List Bytes → σ → Reply × σ
  /-- Milliseconds pass. -/
  wait : Nat → σ → σ
  hiredis : Delivery → Hiredis σ

namespace Service
variable {σ : Type} (S : Service σ)

section Documented
variable [ServerTexts] (holds : σ → ServerMap → Prop)

/-- The commands of a group do to the data what they are documented to do, whatever the order in which they list what
    has no order. -/
def Does (group : CommandGroup) : Prop :=
  ∀ r : Request, r.group = group → r.WellFormed → r.Plain → ∀ s m, holds s m → ∃ (o : ListingOrder) (clock : Nat),
    (S.command r.argv s).1.Alike (m.command o clock r).1 ∧ holds (S.command r.argv s).2 (m.command o clock r).2

/-- The server begins without data, its keys expire as time passes, and its commands do what they are documented to
    do. -/
structure Documented : Prop where
  start : ∃ time, holds S.start (ExpiringMap.empty.advance time)
  wait : ∀ s m, holds s m → ∀ time, holds (S.wait time s) (m.advance time)
  keys : S.Does holds .keys
  texts : S.Does holds .texts
  hashes : S.Does holds .hashes
  lists : S.Does holds .lists
  sets : S.Does holds .sets
  zsets : S.Does holds .zsets
  streams : S.Does holds .streams

end Documented

/-- hiredis hands over what the server makes of a command, or nothing and an error of the connection. -/
structure Transports : Prop where
  delivered : ∀ argv s, argv ≠ [] → ∃ tree,
    (S.hiredis .delivered).commandArgv s argv = (some tree, (S.command argv s).2) ∧ (S.command argv s).1.Carried tree
  requestLost : ∀ errstr argv s, argv ≠ [] → (S.hiredis (.requestLost errstr)).commandArgv s argv = (none, s) ∧
    (S.hiredis (.requestLost errstr)).errstr s = errstr
  replyLost : ∀ errstr argv s, argv ≠ [] →
    (S.hiredis (.replyLost errstr)).commandArgv s argv = (none, (S.command argv s).2) ∧
      (S.hiredis (.replyLost errstr)).errstr (S.command argv s).2 = errstr

variable {S}

theorem Documented.does [ServerTexts] {holds : σ → ServerMap → Prop} (h : S.Documented holds) (r : Request)
    (hgroup : r.group ≠ .others) (hr : r.WellFormed) (hplain : r.Plain) {s : σ} {m : ServerMap} (hs : holds s m) :
    ∃ (o : ListingOrder) (clock : Nat),
      (S.command r.argv s).1.Alike (m.command o clock r).1 ∧ holds (S.command r.argv s).2 (m.command o clock r).2 := by
  cases hg : r.group with
  | keys => exact h.keys r hg hr hplain s m hs
  | texts => exact h.texts r hg hr hplain s m hs
  | hashes => exact h.hashes r hg hr hplain s m hs
  | lists => exact h.lists r hg hr hplain s m hs
  | sets => exact h.sets r hg hr hplain s m hs
  | zsets => exact h.zsets r hg hr hplain s m hs
  | streams => exact h.streams r hg hr hplain s m hs
  | others => exact absurd hg hgroup

end Service

/-! ### Commands on a connection -/

/-- What a connection throws for a command without a reply. -/
def transportError (errstr : Bytes) : Exn := .runtimeError (("Redis command failed: " : Bytes) ++ errstr)

section Commands
variable {σ : Type} {S : Service σ} (hT : S.Transports) {argv : List Bytes} {s : σ} (hne : argv ≠ [])
  (hlen : argv.length ≤ SyncConnection.intMax)

include hT hne hlen in
theorem cmdExecv_delivered : (SyncConnection.cmdExecv (S.hiredis .delivered) argv).run (some s) =
    (.ok (S.command argv s).1, some (S.command argv s).2) := by
  obtain ⟨tree, hanswer, hcarried⟩ := hT.delivered argv s hne
  exact (SyncConnection.run_cmdExecv_iff hne hlen hanswer _).mpr (convertReply_of_carried hcarried)

include hne hlen in
/-- A command that hiredis has no reply for. -/
theorem cmdExecv_lost {H : Hiredis σ} {s' : σ} (hlost : H.commandArgv s argv = (none, s')) :
    (SyncConnection.cmdExecv H argv).run (some s) = (.error (transportError (H.errstr s')), some s') := by
  unfold SyncConnection.cmdExecv SyncConnection.execConverted
  show Program.recover _ (((SyncConnection.execArgs H argv).decode SyncConnection.convertReply).run (some s)) = _
  rw [Program.run_decode, SyncConnection.run_execArgs _ hne hlen, hlost]
  rfl

include hT hne hlen in
theorem cmdExecv_requestLost (errstr : Bytes) :
    (SyncConnection.cmdExecv (S.hiredis (.requestLost errstr)) argv).run (some s) =
      (.error (transportError errstr), some s) := by
  obtain ⟨hlost, herrstr⟩ := hT.requestLost errstr argv s hne
  rw [cmdExecv_lost hne hlen hlost, herrstr]

include hT hne hlen in
theorem cmdExecv_replyLost (errstr : Bytes) :
    (SyncConnection.cmdExecv (S.hiredis (.replyLost errstr)) argv).run (some s) =
      (.error (transportError errstr), some (S.command argv s).2) := by
  obtain ⟨hlost, herrstr⟩ := hT.replyLost errstr argv s hne
  rw [cmdExecv_lost hne hlen hlost, herrstr]

/-- A command with more arguments than an `int` counts is not sent. -/
theorem cmdExecv_tooLong (H : Hiredis σ) (hlong : SyncConnection.intMax < argv.length) (s : σ) :
    (SyncConnection.cmdExecv H argv).run (some s) =
      (.error (.lengthError "Too many Redis command arguments"), some s) := by
  have hne : argv ≠ [] := List.ne_nil_of_length_pos (Nat.zero_lt_of_lt hlong)
  unfold SyncConnection.cmdExecv SyncConnection.execConverted SyncConnection.execArgs
  rw [if_neg hne, if_pos hlong]
  rfl

end Commands

end Redisdal
