import Redisdal.Theorems.QueryParams

/-! # The credentials of a connection URL

Which user name, password and database index a URL supplies, read from the text alone, and what
`parse_redis_url` keeps of them. -/

namespace Redisdal.Config

/-! ### What the text supplies -/

/-- The text after any scheme. -/
def afterAnyScheme (url : Bytes) : Option Bytes :=
  (afterScheme url).or (if Bytes.ofString "unix://" <+: url then some (url.drop 7) else none)

/-- The parameters of the text after the first question mark. -/
def paramsAfter (rest : Bytes) : List (Bytes × Bytes) :=
  ((Bytes.cut (Bytes.ofChar '?') rest).map fun p => parameters p.2).getD []

def queryParameters (url : Bytes) : List (Bytes × Bytes) := ((afterAnyScheme url).map paramsAfter).getD []

/-- The userinfo part, which a `unix://` URL has not. -/
def userinfo (url : Bytes) : Option Bytes :=
  (afterScheme url).bind fun rest => (Bytes.cut (Bytes.ofChar '@') (before (Bytes.ofChar '?') rest)).map (·.1)

/-- A user name and a password, empty where they are not there. -/
structure Credentials where
  username : Bytes
  password : Bytes

/-- The credentials of the userinfo part. -/
def userinfoCredentials (url : Bytes) : Credentials where
  username := ((userinfo url).map (before (Bytes.ofChar ':'))).getD []
  password := (((userinfo url).bind (Bytes.cut (Bytes.ofChar ':'))).map (·.2)).getD []

/-- The credentials of the query. -/
def queryCredentials (url : Bytes) : Credentials where
  username := (lastValue ["username"] (queryParameters url)).getD []
  password := (lastValue ["password", "auth"] (queryParameters url)).getD []

/-- What the URL supplies: the credentials of its userinfo part, and from its query what these lack. -/
def supplied (url : Bytes) : Credentials where
  username := if (userinfoCredentials url).username ≠ [] then (userinfoCredentials url).username
    else (queryCredentials url).username
  password := if (userinfoCredentials url).password ≠ [] then (userinfoCredentials url).password
    else (queryCredentials url).password

def databaseIndex (url : Bytes) : UInt32 := (queryValues (queryParameters url)).index

/-- An empty user name, or an empty password after a colon, stands in the userinfo part of a URL whose query supplies
    one. -/
def HidesQuery (url : Bytes) : Prop :=
  ((userinfo url).isSome = true ∧ (userinfoCredentials url).username = [] ∧ (queryCredentials url).username ≠ []) ∨
    (((userinfo url).bind (Bytes.cut (Bytes.ofChar ':'))).isSome = true ∧ (userinfoCredentials url).password = [] ∧
      (queryCredentials url).password ≠ [])

/-! ### What the parser keeps -/

/-- The credentials and the index of a configuration. -/
structure Keeps (config : RedisConfig) (username password : Bytes) (index : UInt32) : Prop where
  username : config.username = username
  password : config.password = password
  index : config.index = index

theorem keeps_parseHostPort {config config' : RedisConfig} {a : Bytes} (h : parseHostPort config a = .ok config') :
    Keeps config' config.username config.password config.index := by
  rcases parseHostPort_eq config a with ⟨-, what, he⟩ | ⟨r, -, hr⟩
  · rw [he] at h
    cases h
  · rw [hr] at h
    unfold applyReading at h
    split at h
    · cases h
      exact ⟨rfl, rfl, rfl⟩
    · obtain ⟨port, -, rfl⟩ := Except.map_eq_ok_iff.mp h
      exact ⟨rfl, rfl, rfl⟩

theorem keeps_parseQuery {config config' : RedisConfig} {rest rest' : Bytes} (hconfig : Keeps config [] [] 0)
    (h : parseQuery config rest = .ok (config', rest')) :
    config'.scheme = config.scheme ∧ rest' = before (Bytes.ofChar '?') rest ∧
      Keeps config' ((lastValue ["username"] (paramsAfter rest)).getD [])
        ((lastValue ["password", "auth"] (paramsAfter rest)).getD []) (queryValues (paramsAfter rest)).index := by
  unfold parseQuery at h
  unfold paramsAfter before
  cases hcut : Bytes.cut (Bytes.ofChar '?') rest with
  | none =>
    rw [hcut] at h
    cases h
    exact ⟨rfl, rfl, hconfig⟩
  | some p =>
    obtain ⟨a, q⟩ := p
    rw [hcut] at h
    obtain ⟨info, hinfo, heq⟩ := Except.bind_eq_ok_iff.mp h
    cases heq
    obtain ⟨-, rfl⟩ := ((parseQueryParams_eq_split q).2.2 info).mp hinfo
    refine ⟨rfl, rfl, ?_, ?_, rfl⟩
    · show (if _ ≠ [] then _ else config.username) = _
      rw [hconfig.username, ite_not]
      split
      · next hnil => exact hnil.symm
      · rfl
    · show (if _ ≠ [] then _ else config.password) = _
      rw [hconfig.password, ite_not]
      split
      · next hnil => exact hnil.symm
      · rfl

theorem keeps_parseUserinfo (config : RedisConfig) (rest : Bytes) :
    Keeps (parseUserinfo config rest).1
      ((((Bytes.cut (Bytes.ofChar '@') rest).map (·.1)).map (before (Bytes.ofChar ':'))).getD config.username)
      (((((Bytes.cut (Bytes.ofChar '@') rest).map (·.1)).bind (Bytes.cut (Bytes.ofChar ':'))).map (·.2)).getD
        config.password) config.index := by
  unfold parseUserinfo
  cases Bytes.cut (Bytes.ofChar '@') rest with
  | none => exact ⟨rfl, rfl, rfl⟩
  | some p =>
    dsimp only [Option.map_some, Option.bind_some, Option.getD_some]
    unfold applyUserinfo before
    cases Bytes.cut (Bytes.ofChar ':') p.1 <;> exact ⟨rfl, rfl, rfl⟩

theorem parseScheme_eq_ok {url rest : Bytes} {config : RedisConfig} (h : parseScheme url = .ok (config, rest)) :
    Keeps config [] [] 0 ∧ afterAnyScheme url = some rest ∧
      ((config.scheme = .unix ∧ afterScheme url = none) ∨ (config.scheme ≠ .unix ∧ afterScheme url = some rest)) := by
  unfold parseScheme at h
  unfold afterAnyScheme afterScheme
  split at h
  · next ht =>
    cases h
    rw [if_pos ht]
    exact ⟨⟨rfl, rfl, rfl⟩, rfl, Or.inr ⟨by decide, rfl⟩⟩
  · next ht =>
    split at h
    · next hr =>
      cases h
      rw [if_neg ht, if_pos hr]
      exact ⟨⟨rfl, rfl, rfl⟩, rfl, Or.inr ⟨by decide, rfl⟩⟩
    · next hr =>
      split at h
      · next hu =>
        cases h
        rw [if_neg ht, if_neg hr, if_pos hu]
        exact ⟨⟨rfl, rfl, rfl⟩, rfl, Or.inl ⟨rfl, rfl⟩⟩
      · cases h

/-- The userinfo part goes before the query, even where a part of it is empty. -/
theorem parseRedisUrl_keeps {url : Bytes} {config : RedisConfig} (h : parseRedisUrl url = .ok config) :
    Keeps config (((userinfo url).map (before (Bytes.ofChar ':'))).getD (queryCredentials url).username)
      ((((userinfo url).bind (Bytes.cut (Bytes.ofChar ':'))).map (·.2)).getD (queryCredentials url).password)
      (databaseIndex url) := by
  unfold parseRedisUrl at h
  obtain ⟨⟨config₀, rest⟩, hscheme, h⟩ := Except.bind_eq_ok_iff.mp h
  obtain ⟨⟨config₁, rest₁⟩, hquery, h⟩ := Except.bind_eq_ok_iff.mp h
  obtain ⟨hkeeps, hafter, hkind⟩ := parseScheme_eq_ok hscheme
  obtain ⟨hsame, rfl, hkeeps₁⟩ := keeps_parseQuery hkeeps hquery
  have hparams : queryParameters url = paramsAfter rest := by rw [queryParameters, hafter]; rfl
  unfold queryCredentials databaseIndex userinfo
  rw [hparams]
  dsimp only at h ⊢
  rcases hkind with ⟨hunix, hnone⟩ | ⟨hunix, hsome⟩
  · rw [if_pos (hsame.trans hunix)] at h
    rw [hnone]
    unfold parseUnix at h
    split at h
    · cases h
    · cases h
      exact ⟨hkeeps₁.username, hkeeps₁.password, hkeeps₁.index⟩
  · rw [if_neg (hsame ▸ hunix)] at h
    rw [hsome]
    have hport := keeps_parseHostPort h
    have huser := keeps_parseUserinfo config₁ (before (Bytes.ofChar '?') rest)
    rw [hkeeps₁.username, hkeeps₁.password, hkeeps₁.index] at huser
    exact ⟨hport.username.trans huser.username, hport.password.trans huser.password, hport.index.trans huser.index⟩

/-! ### What is kept of what is supplied -/

/-- A part of the userinfo, where it is there, instead of the part of the query: the two agree with what is supplied,
    unless the first is empty and the second is not. -/
theorem getD_eq_supplied_iff (part : Option Bytes) (query : Bytes) :
    part.getD query = (if part.getD [] ≠ [] then part.getD [] else query) ↔
      ¬(part.isSome = true ∧ part.getD [] = [] ∧ query ≠ []) := by
  cases part with
  | none => simp
  | some text =>
    by_cases htext : text = []
    · simp [htext, eq_comm]
    · simp [htext]

theorem parsed_eq_supplied_iff {url : Bytes} {config : RedisConfig} (h : parseRedisUrl url = .ok config) :
    (config.username = (supplied url).username ∧ config.password = (supplied url).password) ↔ ¬HidesQuery url := by
  have hkeeps := parseRedisUrl_keeps h
  have husername := getD_eq_supplied_iff ((userinfo url).map (before (Bytes.ofChar ':')))
    (queryCredentials url).username
  have hpassword := getD_eq_supplied_iff (((userinfo url).bind (Bytes.cut (Bytes.ofChar ':'))).map (·.2))
    (queryCredentials url).password
  rw [← hkeeps.username, Option.isSome_map] at husername
  rw [← hkeeps.password, Option.isSome_map] at hpassword
  rw [HidesQuery, not_or]
  exact and_congr husername hpassword

/-- A user name that is not kept is lost, not replaced. -/
theorem username_kept_or_nil {url : Bytes} {config : RedisConfig} (h : parseRedisUrl url = .ok config) :
    config.username = (supplied url).username ∨ config.username = [] := by
  rw [(parseRedisUrl_keeps h).username]
  show _ = (if _ ≠ [] then _ else _) ∨ _
  unfold userinfoCredentials
  cases (userinfo url).map (before (Bytes.ofChar ':')) with
  | none => simp
  | some text =>
    by_cases htext : text = []
    · exact Or.inr htext
    · exact Or.inl (by simp [htext])

end Redisdal.Config
