import Redisdal.Theorems.Numbers
import Redisdal.Theorems.Query
import Redisdal.Theorems.Url

/-! # Rendered URLs

The parts of a connection URL, the text that they render to, and the configuration that they mean. Parsing the text
gives this configuration, although the delimiters of one part may occur in another. -/

namespace Redisdal.Config

/-! ### The parts -/

/-- None of these characters occurs in the text. -/
def Lacks (s : Bytes) (chars : List Char) : Prop := ∀ c ∈ chars, Bytes.ofChar c ∉ s

instance (s : Bytes) (chars : List Char) : Decidable (Lacks s chars) :=
  List.decidableBAll (fun c => Bytes.ofChar c ∉ s) chars

namespace Lacks
variable {s t : Bytes} {chars chars' : List Char}

theorem append (hs : Lacks s chars) (ht : Lacks t chars) : Lacks (s ++ t) chars := fun c hc h =>
  (List.mem_append.mp h).elim (hs c hc) (ht c hc)

theorem cons {b : UInt8} (hb : Lacks [b] chars) (hs : Lacks s chars) : Lacks (b :: s) chars := hb.append hs

theorem mono (h : Lacks s chars) (hsub : ∀ c ∈ chars', c ∈ chars) : Lacks s chars' := fun c hc => h c (hsub c hc)

theorem digits (hs : ∀ b ∈ s, Bytes.isDigit b = true)
    (hchars : (chars.all fun c => !Bytes.isDigit (Bytes.ofChar c)) = true) : Lacks s chars := fun c hc h => by
  have hnot := List.all_eq_true.mp hchars c hc
  rw [hs _ h] at hnot
  cases hnot

end Lacks

/-- A user, and a password where one is given. -/
structure Userinfo where
  user : Bytes
  password : Option Bytes
  user_lacks : Lacks user [':', '@', '?']
  password_lacks : ∀ text ∈ password, Lacks text ['@', '?']

/-- A plain host, or one in brackets. -/
inductive Host where
  | plain (name : Bytes) (nonempty : name ≠ []) (bracket : name.head? ≠ some (Bytes.ofChar '['))
      (lacks : Lacks name [':', '@', '?'])
  | bracketed (name : Bytes) (lacks : Lacks name [']', '@', '?'])

/-- A database index as it should be written: decimal digits of a value that an `unsigned int` holds. -/
structure WellFormedIndex (text : Bytes) : Prop where
  digits : Bytes.DigitString text
  bound : Bytes.natValue text < 2 ^ 32

/-- The names that `parse_query_params` knows. -/
def knownNames : List Bytes := ["index", "db", "password", "auth", "username"]

/-- A parameter of the query. -/
inductive Param where
  | index (text : Bytes) (wellFormed : WellFormedIndex text)
  | username (text : Bytes) (lacks : Lacks text ['&'])
  | password (text : Bytes) (lacks : Lacks text ['&'])
  | auth (text : Bytes) (lacks : Lacks text ['&'])
  | unknown (name text : Bytes) (nonempty : name ≠ []) (name_lacks : Lacks name ['=', '&'])
      (notKnown : name ∉ knownNames) (lacks : Lacks text ['&'])

inductive TcpScheme where
  | tcp | redis

/-- A `tcp://` or `redis://` URL. -/
structure TcpUrl where
  scheme : TcpScheme
  userinfo : Option Userinfo
  host : Host
  port : Option {text : Bytes // WellFormedPort text}
  query : Option (List Param)

/-- A `unix://` URL. -/
structure UnixUrl where
  path : Bytes
  absolute : path.head? = some (Bytes.ofChar '/')
  lacks : Lacks path ['?']
  query : Option (List Param)

/-! ### The text -/

/-- The text before the at sign. -/
def Userinfo.text (u : Userinfo) : Bytes := u.user ++ (u.password.map (Bytes.ofChar ':' :: ·)).getD []

def Userinfo.render (u : Userinfo) : Bytes := u.text ++ [Bytes.ofChar '@']

def Host.name : Host → Bytes
  | plain name .. | bracketed name .. => name

def Host.render : Host → Bytes
  | plain name .. => name
  | bracketed name .. => Bytes.ofChar '[' :: (name ++ [Bytes.ofChar ']'])

namespace Param

def name : Param → Bytes
  | index .. => "index"
  | username .. => "username"
  | password .. => "password"
  | auth .. => "auth"
  | unknown name .. => name

def text : Param → Bytes
  | index text _ | username text _ | password text _ | auth text _ | unknown _ text .. => text

def render (p : Param) : Bytes := p.name ++ Bytes.ofChar '=' :: p.text

end Param

/-- The parameters, joined by ampersands. -/
def renderParams (params : List Param) : Bytes := [Bytes.ofChar '&'].intercalate (params.map Param.render)

def renderQuery (query : Option (List Param)) : Bytes :=
  (query.map fun params => Bytes.ofChar '?' :: renderParams params).getD []

def renderPort (port : Option {text : Bytes // WellFormedPort text}) : Bytes :=
  (port.map fun text => Bytes.ofChar ':' :: text.1).getD []

def TcpScheme.render : TcpScheme → Bytes
  | tcp => Bytes.ofString "tcp://"
  | redis => Bytes.ofString "redis://"

def TcpUrl.render (url : TcpUrl) : Bytes :=
  url.scheme.render ++
    ((url.userinfo.map Userinfo.render).getD [] ++ (url.host.render ++ renderPort url.port) ++ renderQuery url.query)

def UnixUrl.render (url : UnixUrl) : Bytes := Bytes.ofString "unix://" ++ (url.path ++ renderQuery url.query)

/-! ### The configuration -/

/-- The last of the values that `f` takes from the parameters. -/
def lastOf {α : Type} (f : Param → Option α) (params : List Param) : Option α := (params.filterMap f).getLast?

namespace Param

def indexValue : Param → Option UInt32
  | index text wellFormed => some (UInt32.ofNatLT (Bytes.natValue text) wellFormed.bound)
  | _ => none

def usernameValue : Param → Option Bytes
  | username text _ => some text
  | _ => none

/-- The value of a `password` or `auth` parameter. -/
def passwordValue : Param → Option Bytes
  | password text _ | auth text _ => some text
  | _ => none

end Param

/-- What the parameters say: the last index, user name and password. -/
def queryInfo (params : List Param) : QueryInfo where
  username := (lastOf Param.usernameValue params).getD []
  password := (lastOf Param.passwordValue params).getD []
  index := (lastOf Param.indexValue params).getD 0

def portNumber (port : Option {text : Bytes // WellFormedPort text}) : UInt16 :=
  match port with
  | none => 6379
  | some text => UInt16.ofNatLT (Bytes.natValue text.1) (Nat.lt_succ_of_le text.2.bound)

def TcpScheme.config : TcpScheme → RedisScheme
  | tcp => .tcp
  | redis => .redis

/-- The userinfo goes before the query. -/
def TcpUrl.config (url : TcpUrl) : RedisConfig where
  scheme := url.scheme.config
  host := url.host.name
  port := portNumber url.port
  username := (url.userinfo.map Userinfo.user).getD (queryInfo (url.query.getD [])).username
  password := (url.userinfo.bind Userinfo.password).getD (queryInfo (url.query.getD [])).password
  index := (queryInfo (url.query.getD [])).index

def UnixUrl.config (url : UnixUrl) : RedisConfig where
  scheme := .unix
  host := url.path
  port := 0
  username := (queryInfo (url.query.getD [])).username
  password := (queryInfo (url.query.getD [])).password
  index := (queryInfo (url.query.getD [])).index

/-! ### The query -/

theorem Param.name_ne_nil (p : Param) : p.name ≠ [] := by
  cases p with
  | unknown name text nonempty => exact nonempty
  | _ => exact List.cons_ne_nil _ _

theorem Param.name_lacks (p : Param) : Lacks p.name ['=', '&'] := by
  cases p with
  | index => exact (by decide : Lacks "index" ['=', '&'])
  | username => exact (by decide : Lacks "username" ['=', '&'])
  | password => exact (by decide : Lacks "password" ['=', '&'])
  | auth => exact (by decide : Lacks "auth" ['=', '&'])
  | unknown name text nonempty lacks => exact lacks

theorem Param.text_lacks (p : Param) : Lacks p.text ['&'] := by
  cases p with
  | index text wellFormed =>
    intro c hc h
    rw [List.mem_singleton.mp hc] at h
    exact absurd (wellFormed.digits.digits _ h) (by decide)
  | unknown name text nonempty name_lacks notKnown lacks => exact lacks
  | username text lacks | password text lacks | auth text lacks => exact lacks

theorem Param.render_lacks (p : Param) : Bytes.ofChar '&' ∉ p.render := by
  unfold Param.render
  rw [List.mem_append, List.mem_cons, not_or, not_or]
  exact ⟨p.name_lacks '&' (by simp), by decide, p.text_lacks '&' (by simp)⟩

theorem parameters_renderParams (params : List Param) :
    parameters (renderParams params) = params.map fun p => (p.name, p.text) := by
  have hsegment (p : Param) : segmentParam p.render = some (p.name, p.text) :=
    segmentParam_pair p.name_ne_nil (p.name_lacks '=' (by simp)) p.text
  by_cases hne : params = []
  · subst hne
    rfl
  · have hlacks : ∀ segment ∈ params.map Param.render, Bytes.ofChar '&' ∉ segment := fun segment h => by
      obtain ⟨p, -, rfl⟩ := List.mem_map.mp h
      exact p.render_lacks
    unfold parameters renderParams
    rw [List.splitOn_intercalate _ hlacks (by simpa using hne), List.filterMap_map]
    exact (List.filterMap_congr fun p _ => hsegment p).trans (congrFun List.filterMap_eq_map _)

/-- What one parameter makes of the information. -/
def Param.assign (info : QueryInfo) (p : Param) : QueryInfo where
  username := p.usernameValue.getD info.username
  password := p.passwordValue.getD info.password
  index := p.indexValue.getD info.index

theorem fromChars_index {text : Bytes} (h : WellFormedIndex text) :
    fromChars uint32 text = ⟨.ok (Bytes.natValue text), []⟩ := by
  have hrange : uint32.InRange (Bytes.natValue text) := by
    have hbound := h.bound
    show (0 : Int) ≤ _ ∧ _ ≤ (2 ^ 32 - 1 : Int)
    omega
  rw [fromChars_of_numeral (.plain h.digits), if_pos hrange]

theorem applyParam_assign (info : QueryInfo) (p : Param) : applyParam info p.name p.text = .ok (p.assign info) := by
  cases p with
  | index text wellFormed =>
    have hindex : UInt32.ofInt (Bytes.natValue text) = UInt32.ofNatLT (Bytes.natValue text) wellFormed.bound := by
      have hbound := wellFormed.bound
      have hmod : ((Bytes.natValue text : Int) % 2 ^ 32).toNat = Bytes.natValue text := by omega
      rw [UInt32.ofInt, hmod, UInt32.ofNatLT_eq_ofNat]
    show applyParam info "index" text = _
    unfold applyParam
    rw [if_pos rfl, fromChars_index wellFormed]
    dsimp only
    rw [if_neg (by simp), hindex]
    rfl
  | username text => rfl
  | password text => rfl
  | auth text => rfl
  | unknown name text nonempty name_lacks notKnown =>
    simp only [knownNames, List.mem_cons, List.not_mem_nil, or_false, not_or] at notKnown
    obtain ⟨hindex, hdb, hpassword, hauth, husername⟩ := notKnown
    show applyParam info name text = _
    unfold applyParam
    rw [if_neg hindex, if_neg hdb, if_neg (not_or.mpr ⟨hpassword, hauth⟩), if_neg husername]
    rfl

theorem lastOf_cons {α : Type} (f : Param → Option α) (p : Param) (params : List Param) (a : α) :
    (lastOf f (p :: params)).getD a = (lastOf f params).getD ((f p).getD a) := by
  unfold lastOf
  cases h : f p with
  | none => rw [List.filterMap_cons_none h]; rfl
  | some b => rw [List.filterMap_cons_some h, List.getLast?_cons]; rfl

theorem foldl_assign (params : List Param) (info : QueryInfo) :
    params.foldl Param.assign info =
      ⟨(lastOf Param.usernameValue params).getD info.username, (lastOf Param.passwordValue params).getD info.password,
        (lastOf Param.indexValue params).getD info.index⟩ := by
  induction params generalizing info with
  | nil => rfl
  | cons p params ih =>
    rw [List.foldl_cons, ih, lastOf_cons, lastOf_cons, lastOf_cons]
    rfl

theorem parseQueryParams_renderParams (params : List Param) :
    parseQueryParams (renderParams params) = .ok (queryInfo params) := by
  have hfold (info : QueryInfo) : (params.map fun p => [p.name, p.text]).foldlM applyMatch info =
      .ok (params.foldl Param.assign info) := by
    induction params generalizing info with
    | nil => rfl
    | cons p params ih =>
      have hp : applyMatch info [p.name, p.text] = .ok (p.assign info) := applyParam_assign info p
      rw [List.map_cons, List.foldlM_cons, hp]
      exact ih _
  unfold parseQueryParams
  rw [findAll_paramRegex, parameters_renderParams, List.map_map]
  exact (hfold {}).trans (congrArg _ (foldl_assign params {}))

/-- A rendered query is cut off, and says what its parameters say. -/
theorem parseQuery_render {config : RedisConfig} {a : Bytes} (ha : Bytes.ofChar '?' ∉ a)
    (query : Option (List Param)) (husername : config.username = []) (hpassword : config.password = [])
    (hindex : config.index = 0) :
    parseQuery config (a ++ renderQuery query) =
      .ok ({ config with
        username := (queryInfo (query.getD [])).username
        password := (queryInfo (query.getD [])).password
        index := (queryInfo (query.getD [])).index }, a) := by
  unfold parseQuery renderQuery
  cases query with
  | none =>
    obtain ⟨scheme, host, port, username, password, index⟩ := config
    cases husername
    cases hpassword
    cases hindex
    rw [Option.map_none, Option.getD_none, List.append_nil, Bytes.cut_eq_none.mpr ha]
    rfl
  | some params =>
    rw [Option.map_some, Option.getD_some, Bytes.cut_append _ ha]
    dsimp only
    rw [parseQueryParams_renderParams]
    have hkeep (text : Bytes) : (if text ≠ [] then text else []) = text := by
      split
      · rfl
      · next h => exact (not_not.mp h).symm
    show Except.ok (applyQuery config (queryInfo params), a) = _
    unfold applyQuery
    rw [husername, hpassword, hkeep, hkeep]
    rfl

/-! ### The authority -/

theorem Userinfo.text_lacks (u : Userinfo) : Lacks u.text ['@', '?'] := by
  obtain ⟨user, password, huser, hpassword⟩ := u
  refine (huser.mono (by simp)).append ?_
  cases password with
  | none => exact (by decide : Lacks [] ['@', '?'])
  | some text => exact .cons (by decide) (hpassword text rfl)

theorem Host.render_lacks (h : Host) : Lacks h.render ['@', '?'] := by
  cases h with
  | plain name nonempty bracket lacks => exact lacks.mono (by simp)
  | bracketed name lacks => exact .cons (by decide) ((lacks.mono (by simp)).append (by decide))

theorem renderPort_lacks (port : Option {text : Bytes // WellFormedPort text}) :
    Lacks (renderPort port) ['@', '?'] := by
  cases port with
  | none => exact (by decide : Lacks [] ['@', '?'])
  | some text => exact .cons (by decide) (.digits text.2.digits (by decide))

/-- The userinfo is cut off, and gives the user and the password that it has. -/
theorem parseUserinfo_render (config : RedisConfig) (userinfo : Option Userinfo) {a : Bytes}
    (ha : Bytes.ofChar '@' ∉ a) :
    parseUserinfo config ((userinfo.map Userinfo.render).getD [] ++ a) =
      ({ config with
        username := (userinfo.map Userinfo.user).getD config.username
        password := (userinfo.bind Userinfo.password).getD config.password }, a) := by
  unfold parseUserinfo
  cases userinfo with
  | none =>
    rw [Option.map_none, Option.getD_none, List.nil_append, Bytes.cut_eq_none.mpr ha]
    rfl
  | some u =>
    have hcut := Bytes.cut_append a (u.text_lacks '@' (by simp))
    rw [Option.map_some, Option.getD_some, Userinfo.render, List.append_assoc, List.singleton_append, hcut]
    obtain ⟨user, password, huser, hpassword⟩ := u
    have hcolon : Bytes.ofChar ':' ∉ user := huser ':' (by simp)
    unfold applyUserinfo Userinfo.text
    cases password with
    | none =>
      dsimp only
      rw [Option.map_none, Option.getD_none, List.append_nil, Bytes.cut_eq_none.mpr hcolon]
      rfl
    | some text =>
      dsimp only
      rw [Option.map_some, Option.getD_some, Bytes.cut_append text hcolon]
      rfl

theorem parsePort_wellFormed_eq {text : Bytes} (h : WellFormedPort text) :
    parsePort text = .ok (portNumber (some ⟨text, h⟩)) := by
  obtain ⟨port, hport, hvalue⟩ := parsePort_wellFormed h
  rw [hport]
  refine congrArg Except.ok (UInt16.toNat_inj.mp ?_)
  rw [hvalue]
  exact (UInt16.toNat_ofNatLT ..).symm

theorem reading_render (host : Host) (port : Option {text : Bytes // WellFormedPort text}) :
    reading (host.render ++ renderPort port) = some ⟨host.name, port.map Subtype.val, []⟩ := by
  cases host with
  | plain name nonempty bracket lacks =>
    have hcolon : Bytes.ofChar ':' ∉ name := lacks ':' (by simp)
    cases port with
    | none =>
      rw [renderPort, Option.map_none, Option.getD_none, List.append_nil]
      exact reading_plain nonempty bracket hcolon
    | some text => exact reading_plainPort nonempty bracket hcolon text.1
  | bracketed name lacks =>
    have hclose : Bytes.ofChar ']' ∉ name := lacks ']' (by simp)
    have hreading := reading_bracketed hclose (renderPort port)
    rw [Host.render, List.cons_append, List.append_assoc, List.singleton_append, hreading]
    cases port with
    | none => rfl
    | some text => rfl

theorem parseHostPort_render (config : RedisConfig) (host : Host) (port : Option {text : Bytes // WellFormedPort text})
    (hport : config.port = 6379) :
    parseHostPort config (host.render ++ renderPort port) =
      .ok { config with host := host.name, port := portNumber port } := by
  have hreading := reading_render host port
  rcases parseHostPort_eq config (host.render ++ renderPort port) with ⟨hnone, -⟩ | ⟨r, hr, hparse⟩
  · rw [hreading] at hnone
    cases hnone
  · cases hreading.symm.trans hr
    rw [hparse]
    cases port with
    | none =>
      show Except.ok { config with host := host.name } = _
      rw [hport]
      rfl
    | some text =>
      show (parsePort text.1).map _ = _
      rw [parsePort_wellFormed_eq text.2]
      rfl

/-! ### The whole URL -/

theorem parseScheme_tcp (scheme : TcpScheme) (rest : Bytes) :
    parseScheme (scheme.render ++ rest) = .ok ({ scheme := scheme.config }, rest) := by
  unfold parseScheme
  cases scheme with
  | tcp => exact if_pos (List.prefix_append _ _)
  | redis =>
    have htcp : ¬Bytes.ofString "tcp://" <+: Bytes.ofString "redis://" ++ rest := fun hex => by
      obtain ⟨t, ht⟩ := hex
      exact absurd (List.cons.inj ht).1 (by decide)
    exact (if_neg htcp).trans (if_pos (List.prefix_append _ _))

theorem parseScheme_unix (rest : Bytes) :
    parseScheme (Bytes.ofString "unix://" ++ rest) = .ok ({ scheme := .unix, port := 0 }, rest) := by
  have htcp : ¬Bytes.ofString "tcp://" <+: Bytes.ofString "unix://" ++ rest := fun hex => by
    obtain ⟨t, ht⟩ := hex
    exact absurd (List.cons.inj ht).1 (by decide)
  have hredis : ¬Bytes.ofString "redis://" <+: Bytes.ofString "unix://" ++ rest := fun hex => by
    obtain ⟨t, ht⟩ := hex
    exact absurd (List.cons.inj ht).1 (by decide)
  unfold parseScheme
  exact (if_neg htcp).trans ((if_neg hredis).trans (if_pos (List.prefix_append _ _)))

theorem parseRedisUrl_tcp (url : TcpUrl) : parseRedisUrl url.render = .ok url.config := by
  obtain ⟨scheme, userinfo, host, port, query⟩ := url
  have hauthority : Lacks (host.render ++ renderPort port) ['@', '?'] :=
    host.render_lacks.append (renderPort_lacks port)
  have huserinfo : Lacks ((userinfo.map Userinfo.render).getD []) ['?'] := by
    cases userinfo with
    | none => exact (by decide : Lacks [] ['?'])
    | some u => exact (u.text_lacks.mono (by simp)).append (by decide)
  have hbefore : Bytes.ofChar '?' ∉ (userinfo.map Userinfo.render).getD [] ++ (host.render ++ renderPort port) :=
    huserinfo.append (hauthority.mono (by simp)) '?' (by simp)
  unfold parseRedisUrl TcpUrl.render
  dsimp only
  rw [parseScheme_tcp, Except.ok_bind]
  dsimp only
  rw [parseQuery_render hbefore query rfl rfl rfl, Except.ok_bind]
  dsimp only
  rw [if_neg (by cases scheme <;> decide), parseTcp, parseUserinfo_render _ _ (hauthority '@' (by simp))]
  exact parseHostPort_render _ host port rfl

theorem parseRedisUrl_unix (url : UnixUrl) : parseRedisUrl url.render = .ok url.config := by
  obtain ⟨path, absolute, lacks, query⟩ := url
  unfold parseRedisUrl UnixUrl.render
  dsimp only
  rw [parseScheme_unix, Except.ok_bind]
  dsimp only
  rw [parseQuery_render (lacks '?' (by simp)) query rfl rfl rfl, Except.ok_bind]
  dsimp only
  rw [if_pos rfl, parseUnix, if_neg (not_not.mpr absolute)]
  rfl

/-- A connection URL. -/
inductive Url where
  | tcp (url : TcpUrl)
  | unix (url : UnixUrl)

def Url.render : Url → Bytes
  | tcp url => url.render
  | unix url => url.render

def Url.config : Url → RedisConfig
  | tcp url => url.config
  | unix url => url.config

/-- Parsing undoes rendering: the configuration is what the parts of the URL mean. -/
theorem parseRedisUrl_render (url : Url) : parseRedisUrl url.render = .ok url.config := by
  cases url with
  | tcp url => exact parseRedisUrl_tcp url
  | unix url => exact parseRedisUrl_unix url

end Redisdal.Config
