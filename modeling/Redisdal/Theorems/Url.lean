import Mathlib.Data.List.TakeWhile
import Redisdal.Config

/-! # The authority of a connection URL

What a `tcp://` or `redis://` URL says about its host and its port, read from the text alone, and what
`parse_redis_url` makes of it. -/

namespace Redisdal.Config

/-! ### The parts of a URL -/

/-- The text after a `tcp://` or `redis://` scheme. -/
def afterScheme (url : Bytes) : Option Bytes :=
  if Bytes.ofString "tcp://" <+: url then some (url.drop 6)
  else if Bytes.ofString "redis://" <+: url then some (url.drop 8)
  else none

/-- The query: the text after the first question mark. -/
def query (url : Bytes) : Option Bytes :=
  (afterScheme url).bind fun rest => (Bytes.cut (Bytes.ofChar '?') rest).map (·.2)

/-- The text before the first `c`, or all of it. -/
def before (c : UInt8) (s : Bytes) : Bytes := ((Bytes.cut c s).map (·.1)).getD s

/-- The text after the first `c`, or all of it. -/
def after (c : UInt8) (s : Bytes) : Bytes := ((Bytes.cut c s).map (·.2)).getD s

/-- The authority: neither scheme, nor query, nor userinfo. -/
def authority (url : Bytes) : Option Bytes :=
  (afterScheme url).map fun rest => after (Bytes.ofChar '@') (before (Bytes.ofChar '?') rest)

/-- The four forms of an authority with the host `host`; what follows the colon is the port text. -/
inductive AuthorityOf (host : Bytes) : Bytes → Prop where
  | plain (nonempty : host ≠ []) (bracket : host.head? ≠ some (Bytes.ofChar '[')) (colon : Bytes.ofChar ':' ∉ host) :
    AuthorityOf host host
  | plainPort (nonempty : host ≠ []) (bracket : host.head? ≠ some (Bytes.ofChar '['))
      (colon : Bytes.ofChar ':' ∉ host) (text : Bytes) :
    AuthorityOf host (host ++ Bytes.ofChar ':' :: text)
  | bracketed (nonempty : host ≠ []) (close : Bytes.ofChar ']' ∉ host) :
    AuthorityOf host (Bytes.ofChar '[' :: (host ++ [Bytes.ofChar ']']))
  | bracketedPort (nonempty : host ≠ []) (close : Bytes.ofChar ']' ∉ host) (text : Bytes) :
    AuthorityOf host (Bytes.ofChar '[' :: (host ++ Bytes.ofChar ']' :: Bytes.ofChar ':' :: text))

/-- An opening bracket that nothing closes. -/
def Unclosed (authority : Bytes) : Prop :=
  ∃ inner, authority = Bytes.ofChar '[' :: inner ∧ Bytes.ofChar ']' ∉ inner

/-- How an authority reads, well formed or not: its host, its port text, and the text that is neither. -/
structure Reading where
  host : Bytes
  port : Option Bytes
  ignored : Bytes

/-- The port text after a closing bracket, or the text that follows the bracket and is no port. -/
def readTail (host tail : Bytes) : Reading :=
  match tail with
  | [] => ⟨host, none, []⟩
  | d :: text => if d = Bytes.ofChar ':' then ⟨host, some text, []⟩ else ⟨host, none, tail⟩

def reading (authority : Bytes) : Option Reading :=
  match authority with
  | [] => none
  | c :: inner =>
    if c = Bytes.ofChar '[' then (Bytes.cut (Bytes.ofChar ']') inner).map fun p => readTail p.1 p.2
    else match Bytes.cut (Bytes.ofChar ':') authority with
      | some (host, text) => some ⟨host, some text, []⟩
      | none => some ⟨authority, none, []⟩

/-- The port text of an authority: what follows the colon after the host or after the closing bracket. -/
def portText (authority : Bytes) : Option Bytes := (reading authority).bind (·.port)

/-- A port as it should be written: decimal digits of value at most 65535. -/
structure WellFormedPort (text : Bytes) : Prop where
  nonempty : text ≠ []
  digits : ∀ b ∈ text, Bytes.isDigit b = true
  bound : Bytes.natValue text ≤ 65535

/-- Past white space and a sign, the text does not go on with a digit. -/
def NoNumber (text : Bytes) : Prop := (afterSign text).takeWhile Bytes.isDigit = []

/-- The query is one that `parse_query_params` rejects. -/
def QueryRejected (url : Bytes) : Prop := ∃ q e, query url = some q ∧ parseQueryParams q = .error e

/-! ### Numbers -/

theorem not_isSpace_of_isDigit {b : UInt8} (h : Bytes.isDigit b = true) : isSpace b = false := by
  simp only [Bytes.isDigit, isSpace, Bool.and_eq_true, decide_eq_true_eq, Bool.or_eq_false_iff, beq_eq_false_iff_ne,
    Bool.and_eq_false_iff, decide_eq_false_iff_not, UInt8.le_iff_toNat_le] at h ⊢
  have h48 : (48 : UInt8).toNat = 48 := rfl
  have h13 : (13 : UInt8).toNat = 13 := rfl
  have h32 : (32 : UInt8).toNat = 32 := rfl
  refine ⟨fun heq => ?_, Or.inr ?_⟩
  · rw [heq] at h
    omega
  · omega

theorem ne_sign_of_isDigit {b : UInt8} (h : Bytes.isDigit b = true) :
    b ≠ Bytes.ofChar '+' ∧ b ≠ Bytes.ofChar '-' :=
  ⟨fun heq => absurd (heq ▸ h) (by decide), fun heq => absurd (heq ▸ h) (by decide)⟩

theorem afterSign_of_isDigit {b : UInt8} {s : Bytes} (h : Bytes.isDigit b = true) :
    afterSign (b :: s) = b :: s ∧ hasMinus (b :: s) = false := by
  obtain ⟨hp, hm⟩ := ne_sign_of_isDigit h
  have hs : (b :: s).dropWhile isSpace = b :: s := by simp [not_isSpace_of_isDigit h]
  refine ⟨?_, ?_⟩
  · unfold afterSign
    rw [hs]
    simp [hp, hm]
  · unfold hasMinus
    rw [hs]
    simp [hm]

theorem takeWhile_eq_self {s : Bytes} (h : ∀ b ∈ s, Bytes.isDigit b = true) : s.takeWhile Bytes.isDigit = s :=
  List.takeWhile_eq_self_iff.mpr h

theorem stoul_wellFormed {text : Bytes} (h : WellFormedPort text) : stoul text = .ok (Bytes.natValue text) := by
  obtain ⟨hne, hd, hb⟩ := h
  obtain ⟨b, s, rfl⟩ := List.exists_cons_of_ne_nil hne
  obtain ⟨ha, hm⟩ := afterSign_of_isDigit (s := s) (hd b List.mem_cons_self)
  unfold stoul
  rw [ha, takeWhile_eq_self hd]
  simp only [reduceCtorEq, ↓reduceIte, hm, Bool.false_eq_true]
  rw [if_neg (by omega)]
  rfl

theorem stoul_noNumber {text : Bytes} (h : NoNumber text) : stoul text = .error (.invalidArgument "stoul") := by
  unfold stoul
  rw [h]
  rfl

/-- A text that goes on with a digit is read, or its number is too large for an `unsigned long`. -/
theorem stoul_number {text : Bytes} (h : ¬NoNumber text) :
    (∃ n, stoul text = .ok n) ∨ stoul text = .error (.outOfRange "stoul") := by
  unfold stoul
  rw [if_neg (show ¬(afterSign text).takeWhile Bytes.isDigit = [] from h)]
  split
  · exact Or.inr rfl
  · exact Or.inl ⟨_, rfl⟩

theorem parsePort_wellFormed {text : Bytes} (h : WellFormedPort text) :
    ∃ port, parsePort text = .ok port ∧ port.toNat = Bytes.natValue text := by
  refine ⟨UInt16.ofNat (Bytes.natValue text), ?_, ?_⟩
  · unfold parsePort
    rw [stoul_wellFormed h]
    rfl
  · rw [UInt16.toNat_ofNat']
    have := h.bound
    omega

theorem parsePort_noNumber {text : Bytes} (h : NoNumber text) :
    parsePort text = .error (.invalidArgument "stoul") := by
  unfold parsePort
  rw [stoul_noNumber h]
  rfl

theorem parsePort_number {text : Bytes} (h : ¬NoNumber text) :
    (∃ port, parsePort text = .ok port) ∨ parsePort text = .error (.outOfRange "stoul") := by
  unfold parsePort
  rcases stoul_number h with ⟨n, hn⟩ | hn
  · exact Or.inl ⟨_, by rw [hn]; rfl⟩
  · exact Or.inr (by rw [hn]; rfl)

/-! ### The query -/

/-- The error is a `std::invalid_argument`. -/
def IsInvalidArgument (e : Exn) : Prop := ∃ what, e = .invalidArgument what

theorem throws_applyParam (info : QueryInfo) (key value : Bytes) :
    Throws IsInvalidArgument (applyParam info key value) := by
  unfold applyParam
  split
  · dsimp only
    split
    · split
      · exact Throws.error_iff.mpr ⟨_, rfl⟩
      · exact .pure _
    · exact Throws.error_iff.mpr ⟨_, rfl⟩
  · split
    · exact Throws.error_iff.mpr ⟨_, rfl⟩
    · split
      · exact .pure _
      · split <;> exact .pure _

theorem throws_applyMatch {info : QueryInfo} {captures : List Bytes} (h : captures.length = 2) :
    Throws IsInvalidArgument (applyMatch info captures) := by
  obtain ⟨key, value, rfl⟩ := List.length_eq_two.mp h
  exact throws_applyParam info key value

theorem throws_foldlM_applyMatch (info : QueryInfo) (l : List (List Bytes)) (h : ∀ c ∈ l, c.length = 2) :
    Throws IsInvalidArgument (l.foldlM applyMatch info) := by
  induction l generalizing info with
  | nil => exact .pure _
  | cons c l ih =>
    rw [List.foldlM_cons]
    exact (throws_applyMatch (h c List.mem_cons_self)).bind fun info' _ =>
      ih info' fun c' hc => h c' (List.mem_cons_of_mem _ hc)

/-- A query is rejected with `std::invalid_argument` only; every match has its two captures. -/
theorem throws_parseQueryParams (q : Bytes) : Throws IsInvalidArgument (parseQueryParams q) :=
  throws_foldlM_applyMatch {} _ fun _ hc => Regex.length_of_mem_findAll hc

/-! ### From the URL to the authority -/

theorem parseQuery_eq (config : RedisConfig) (rest : Bytes) :
    (∃ q e, (Bytes.cut (Bytes.ofChar '?') rest).map (·.2) = some q ∧ parseQueryParams q = .error e ∧
        parseQuery config rest = .error e) ∨
      ∃ config', config'.scheme = config.scheme ∧ config'.port = config.port ∧
        parseQuery config rest = .ok (config', before (Bytes.ofChar '?') rest) ∧
        ∀ q, (Bytes.cut (Bytes.ofChar '?') rest).map (·.2) = some q → ∃ info, parseQueryParams q = .ok info := by
  unfold parseQuery before
  cases hcut : Bytes.cut (Bytes.ofChar '?') rest with
  | none => exact Or.inr ⟨config, rfl, rfl, rfl, fun _ h => by cases h⟩
  | some p =>
    obtain ⟨a, q⟩ := p
    cases hq : parseQueryParams q with
    | error e => exact Or.inl ⟨q, e, rfl, hq, by simp only [hq]; rfl⟩
    | ok info =>
      exact Or.inr ⟨applyQuery config info, rfl, rfl, by simp only [hq]; rfl, fun q' h => by cases h; exact ⟨info, hq⟩⟩

theorem parseUserinfo_eq (config : RedisConfig) (rest : Bytes) :
    ∃ config', config'.port = config.port ∧ parseUserinfo config rest = (config', after (Bytes.ofChar '@') rest) := by
  unfold parseUserinfo after
  cases hcut : Bytes.cut (Bytes.ofChar '@') rest with
  | none => exact ⟨config, rfl, rfl⟩
  | some p =>
    refine ⟨applyUserinfo config p.1, ?_, rfl⟩
    unfold applyUserinfo
    split <;> rfl

theorem parseScheme_eq {url rest : Bytes} (h : afterScheme url = some rest) :
    ∃ config : RedisConfig, config.scheme ≠ .unix ∧ config.port = 6379 ∧ parseScheme url = .ok (config, rest) := by
  unfold afterScheme at h
  unfold parseScheme
  split at h
  · next ht =>
    cases h
    exact ⟨{ scheme := .tcp }, by decide, rfl, by rw [if_pos ht]; rfl⟩
  · next ht =>
    split at h
    · next hr =>
      cases h
      exact ⟨{ scheme := .redis }, by decide, rfl, by rw [if_neg ht, if_pos hr]; rfl⟩
    · cases h

/-- A `tcp://` or `redis://` URL is rejected for its query, or parsed as its authority. -/
theorem parseRedisUrl_eq {url a : Bytes} (h : authority url = some a) :
    (QueryRejected url ∧ ∃ what, parseRedisUrl url = .error (.invalidArgument what)) ∨
      (¬QueryRejected url ∧
        ∃ config : RedisConfig, config.port = 6379 ∧ parseRedisUrl url = parseHostPort config a) := by
  obtain ⟨rest, hrest, rfl⟩ := Option.map_eq_some_iff.mp h
  obtain ⟨config, hscheme, hport, hs⟩ := parseScheme_eq hrest
  have hquery : query url = (Bytes.cut (Bytes.ofChar '?') rest).map (·.2) := by rw [query, hrest]; rfl
  unfold parseRedisUrl
  rw [hs]
  rcases parseQuery_eq config rest with ⟨q, e, hq, he, hp⟩ | ⟨config', hscheme', hport', hp, hok⟩
  · left
    obtain ⟨what, rfl⟩ := throws_parseQueryParams q e he
    refine ⟨⟨q, _, hquery.trans hq, he⟩, what, ?_⟩
    show (parseQuery config rest >>= _) = _
    rw [hp]
    rfl
  · right
    obtain ⟨config'', hport'', hu⟩ := parseUserinfo_eq config' (before (Bytes.ofChar '?') rest)
    refine ⟨?_, config'', hport''.trans (hport'.trans hport), ?_⟩
    · intro hex
      obtain ⟨q, e, hq, he⟩ := hex
      obtain ⟨info, hinfo⟩ := hok q (hquery ▸ hq)
      rw [hinfo] at he
      cases he
    · show (parseQuery config rest >>= _) = _
      rw [hp]
      show (if config'.scheme = .unix then _ else parseTcp config' (before (Bytes.ofChar '?') rest)) = _
      rw [if_neg (hscheme' ▸ hscheme), parseTcp, hu]

/-! ### From the authority to the host and the port -/

/-- The configuration with the host and the port text of a reading. -/
def applyReading (config : RedisConfig) (r : Reading) : Outcome RedisConfig :=
  match r.port with
  | none => .ok { config with host := r.host }
  | some text => (parsePort text).map fun port => { config with host := r.host, port }

theorem applyReading_host {config config' : RedisConfig} {r : Reading} (h : applyReading config r = .ok config') :
    config'.host = r.host := by
  unfold applyReading at h
  split at h
  · cases h
    rfl
  · next text _ =>
    cases hp : parsePort text with
    | error e => rw [hp] at h; cases h
    | ok port => rw [hp] at h; cases h; rfl

theorem applyReading_port (config : RedisConfig) (host text ignored : Bytes) :
    (do let port ← parsePort text; pure { config with host, port }) =
      applyReading config ⟨host, some text, ignored⟩ := by
  unfold applyReading
  dsimp only
  cases parsePort text <;> rfl

/-- The parser computes the reading, and rejects an authority that has none. -/
theorem parseHostPort_eq (config : RedisConfig) (a : Bytes) :
    (reading a = none ∧ ∃ what, parseHostPort config a = .error (.invalidArgument what)) ∨
      ∃ r, reading a = some r ∧ parseHostPort config a = applyReading config r := by
  unfold parseHostPort reading
  cases a with
  | nil => exact Or.inl ⟨rfl, _, rfl⟩
  | cons c inner =>
    dsimp only
    split
    · rcases Bytes.cut (Bytes.ofChar ']') inner with _ | ⟨host, tail⟩
      · exact Or.inl ⟨rfl, _, rfl⟩
      · refine Or.inr ⟨readTail host tail, rfl, ?_⟩
        cases tail with
        | nil => rfl
        | cons d text =>
          unfold readTail
          dsimp only
          split
          · exact applyReading_port config host text []
          · rfl
    · rcases Bytes.cut (Bytes.ofChar ':') (c :: inner) with _ | ⟨host, text⟩
      · exact Or.inr ⟨_, rfl, rfl⟩
      · exact Or.inr ⟨_, rfl, applyReading_port config host text []⟩

theorem reading_eq_none_iff {a : Bytes} : reading a = none ↔ a = [] ∨ Unclosed a := by
  unfold reading Unclosed
  cases a with
  | nil => simp
  | cons c inner =>
    dsimp only
    split
    · next hc => simp [hc, Bytes.cut_eq_none]
    · next hc =>
      cases Bytes.cut (Bytes.ofChar ':') (c :: inner) <;> simp [hc]

theorem readTail_eq {host host' tail : Bytes} {port : Option Bytes} (h : readTail host' tail = ⟨host, port, []⟩) :
    (host' = host ∧ tail = []) ∨ (host' = host ∧ ∃ text, tail = Bytes.ofChar ':' :: text) := by
  unfold readTail at h
  split at h
  · cases h
    exact Or.inl ⟨rfl, rfl⟩
  · split at h
    · next d text hd =>
      cases h
      exact Or.inr ⟨rfl, text, by rw [hd]⟩
    · cases h

section Reading
variable {host : Bytes}

theorem reading_of_not_bracket (hne : host ≠ []) (hbracket : host.head? ≠ some (Bytes.ofChar '[')) (rest : Bytes) :
    reading (host ++ rest) = match Bytes.cut (Bytes.ofChar ':') (host ++ rest) with
      | some (host', text) => some ⟨host', some text, []⟩
      | none => some ⟨host ++ rest, none, []⟩ := by
  obtain ⟨c, inner, rfl⟩ := List.exists_cons_of_ne_nil hne
  have hc : c ≠ Bytes.ofChar '[' := fun heq => hbracket (by rw [heq]; rfl)
  exact if_neg hc

theorem reading_plain (hne : host ≠ []) (hbracket : host.head? ≠ some (Bytes.ofChar '['))
    (hcolon : Bytes.ofChar ':' ∉ host) : reading host = some ⟨host, none, []⟩ := by
  have hreading := reading_of_not_bracket hne hbracket []
  rwa [List.append_nil, Bytes.cut_eq_none.mpr hcolon] at hreading

theorem reading_plainPort (hne : host ≠ []) (hbracket : host.head? ≠ some (Bytes.ofChar '['))
    (hcolon : Bytes.ofChar ':' ∉ host) (text : Bytes) :
    reading (host ++ Bytes.ofChar ':' :: text) = some ⟨host, some text, []⟩ := by
  rw [reading_of_not_bracket hne hbracket, Bytes.cut_append text hcolon]

theorem reading_bracketed (hclose : Bytes.ofChar ']' ∉ host) (tail : Bytes) :
    reading (Bytes.ofChar '[' :: (host ++ Bytes.ofChar ']' :: tail)) = some (readTail host tail) := by
  unfold reading
  dsimp only
  rw [if_pos rfl, Bytes.cut_append tail hclose]
  rfl

end Reading

/-- An authority has one of the four forms exactly when its reading has a host and ignores nothing. -/
theorem authorityOf_iff {host a : Bytes} :
    AuthorityOf host a ↔ ∃ port, host ≠ [] ∧ reading a = some ⟨host, port, []⟩ := by
  constructor
  · intro h
    cases h with
    | plain nonempty bracket colon => exact ⟨none, nonempty, reading_plain nonempty bracket colon⟩
    | plainPort nonempty bracket colon text =>
      exact ⟨some text, nonempty, reading_plainPort nonempty bracket colon text⟩
    | bracketed nonempty close => exact ⟨none, nonempty, reading_bracketed close []⟩
    | bracketedPort nonempty close text =>
      exact ⟨some text, nonempty, reading_bracketed close (Bytes.ofChar ':' :: text)⟩
  · intro hex
    obtain ⟨port, hne, h⟩ := hex
    unfold reading at h
    split at h
    · cases h
    · next c inner =>
      split at h
      · next hc =>
        obtain ⟨⟨host', tail⟩, hcut, heq⟩ := Option.map_eq_some_iff.mp h
        obtain ⟨rfl, hclose⟩ := Bytes.cut_eq_some hcut
        subst hc
        rcases readTail_eq heq with ⟨rfl, rfl⟩ | ⟨rfl, text, rfl⟩
        · exact .bracketed hne hclose
        · exact .bracketedPort hne hclose text
      · next hc =>
        split at h
        · next host' text hcut =>
          obtain ⟨ha, hcolon⟩ := Bytes.cut_eq_some hcut
          cases h
          rw [ha]
          refine .plainPort hne (fun hb => hc ?_) hcolon text
          obtain ⟨x, s, rfl⟩ := List.exists_cons_of_ne_nil hne
          cases ha
          exact Option.some.inj hb
        · next hcut =>
          cases h
          exact .plain hne (fun hb => hc (Option.some.inj hb)) (Bytes.cut_eq_none.mp hcut)

/-! ### The port -/

/-- The port text of an accepted URL is well formed and its value is the port; any other is rejected. -/
structure PortKept (url text : Bytes) : Prop where
  kept : ∀ config, parseRedisUrl url = .ok config → WellFormedPort text ∧ config.port.toNat = Bytes.natValue text
  rejected : ¬WellFormedPort text → ∃ what, parseRedisUrl url = .error (.invalidArgument what)

/-- The port survives exactly when it is well formed, or has no number to take for it, or the query is
    rejected before it is read. -/
theorem portKept_iff {url a text : Bytes} (ha : authority url = some a) (ht : portText a = some text) :
    PortKept url text ↔ WellFormedPort text ∨ NoNumber text ∨ QueryRejected url := by
  obtain ⟨r, hr, hrt⟩ := Option.bind_eq_some_iff.mp ht
  rcases parseRedisUrl_eq ha with ⟨hq, what, he⟩ | ⟨hq, config, -, hp⟩
  · refine iff_of_true ⟨fun config hok => ?_, fun _ => ⟨what, he⟩⟩ (Or.inr (Or.inr hq))
    rw [he] at hok
    cases hok
  rcases parseHostPort_eq config a with ⟨hnone, -⟩ | ⟨r', hr', hrun⟩
  · rw [hr] at hnone
    cases hnone
  cases hr.symm.trans hr'
  have hparse : parseRedisUrl url = (parsePort text).map fun port => { config with host := r.host, port } := by
    rw [hp, hrun, applyReading, hrt]
  by_cases hw : WellFormedPort text
  · obtain ⟨port, hport, hval⟩ := parsePort_wellFormed hw
    refine iff_of_true ⟨fun config' hok => ⟨hw, ?_⟩, fun h => absurd hw h⟩ (Or.inl hw)
    rw [hparse, hport] at hok
    cases hok
    exact hval
  by_cases hn : NoNumber text
  · have he : parseRedisUrl url = .error (.invalidArgument "stoul") := by rw [hparse, parsePort_noNumber hn]; rfl
    refine iff_of_true ⟨fun config' hok => ?_, fun _ => ⟨_, he⟩⟩ (Or.inr (Or.inl hn))
    rw [he] at hok
    cases hok
  · -- a number that is no port is narrowed, or leaves as `std::out_of_range`
    refine iff_of_false (fun h => ?_) (by simp [hw, hn, hq])
    obtain ⟨what, he⟩ := h.rejected hw
    rcases parsePort_number hn with ⟨port, hport⟩ | hport <;> (rw [hparse, hport] at he; cases he)

theorem portKept_ipv6 : PortKept "redis://[::1]:6380" "6380" :=
  (portKept_iff (a := "[::1]:6380") (by decide) (by decide)).mpr
    (Or.inl ⟨by decide, List.all_eq_true.mp rfl, by decide⟩)

/-- `redis://h:65537` is accepted with port 1. -/
theorem not_portKept_wrapped : ∃ a text : Bytes, authority "redis://h:65537" = some a ∧ portText a = some text ∧
    ¬PortKept "redis://h:65537" text := by
  refine ⟨"h:65537", "65537", by decide, by decide, fun h => ?_⟩
  obtain ⟨hw, -⟩ := h.kept { scheme := .redis, host := "h", port := 1 } rfl
  exact absurd hw.bound (by decide)

/-! ### The authority -/

/-- The authority of an accepted URL is one of the four forms around its host; any other is rejected. -/
structure AuthorityKept (url a : Bytes) : Prop where
  kept : ∀ config, parseRedisUrl url = .ok config → AuthorityOf config.host a
  rejected : (¬∃ host, AuthorityOf host a) → ∃ what, parseRedisUrl url = .error (.invalidArgument what)

/-- Every byte of an authority counts exactly when it has one of the four forms, or is rejected: it is
    empty, or its bracket is not closed, or its port text has no number, or the query is rejected first. -/
theorem authorityKept_iff {url a : Bytes} (ha : authority url = some a) :
    AuthorityKept url a ↔ (∃ host, AuthorityOf host a) ∨ a = [] ∨ Unclosed a ∨
      (∃ text, portText a = some text ∧ NoNumber text) ∨ QueryRejected url := by
  have of_error {what : Bytes} (he : parseRedisUrl url = .error (.invalidArgument what)) : AuthorityKept url a :=
    ⟨fun config hok => (by rw [he] at hok; cases hok), fun _ => ⟨what, he⟩⟩
  rcases parseRedisUrl_eq ha with ⟨hq, what, he⟩ | ⟨hq, config, -, hp⟩
  · exact iff_of_true (of_error he) (by simp [hq])
  rcases parseHostPort_eq config a with ⟨hnone, what, he⟩ | ⟨r, hr, hrun⟩
  · exact iff_of_true (of_error (hp.trans he)) (by rcases reading_eq_none_iff.mp hnone with h | h <;> simp [h])
  have hsome : ¬(a = [] ∨ Unclosed a) := fun h => by
    rw [reading_eq_none_iff.mpr h] at hr
    cases hr
  rw [not_or] at hsome
  have hport : portText a = r.port := by rw [portText, hr]; rfl
  by_cases hof : ∃ host, AuthorityOf host a
  · refine iff_of_true ⟨fun config' hok => ?_, fun h => absurd hof h⟩ (Or.inl hof)
    obtain ⟨host, hhost⟩ := hof
    obtain ⟨port, -, hr'⟩ := authorityOf_iff.mp hhost
    cases hr.symm.trans hr'
    rw [applyReading_host ((hp.trans hrun).symm.trans hok)]
    exact hhost
  by_cases hn : ∃ text, portText a = some text ∧ NoNumber text
  · obtain ⟨text, ht, hno⟩ := hn
    have he : parseRedisUrl url = .error (.invalidArgument "stoul") := by
      rw [hp, hrun, applyReading, ← hport, ht]
      show Except.map _ (parsePort text) = _
      rw [parsePort_noNumber hno]
      rfl
    exact iff_of_true (of_error he) (Or.inr (Or.inr (Or.inr (Or.inl ⟨text, ht, hno⟩))))
  · -- nothing stops the parser here but a number that is too large
    refine iff_of_false (fun h => ?_) (by simp only [hof, hsome, hn, hq, or_false, not_false_eq_true])
    obtain ⟨what, he⟩ := h.rejected hof
    rw [hp, hrun, applyReading, ← hport] at he
    cases ht : portText a with
    | none => rw [ht] at he; cases he
    | some text =>
      rw [ht] at he
      replace he : Except.map _ (parsePort text) = _ := he
      rcases parsePort_number fun hno => hn ⟨text, ht, hno⟩ with ⟨port, hok⟩ | hrange
      · rw [hok] at he; cases he
      · rw [hrange] at he; cases he

theorem authorityKept_ipv6 : AuthorityKept "tcp://user@[::1]:6380?index=2" "[::1]:6380" :=
  (authorityKept_iff (by decide)).mpr (Or.inl ⟨"::1", .bracketedPort (by decide) (by decide) "6380"⟩)

/-- `redis://[::1]x` is accepted and the `x` is dropped. -/
theorem not_authorityKept_junk :
    authority "redis://[::1]x" = some "[::1]x" ∧ ¬AuthorityKept "redis://[::1]x" "[::1]x" := by
  refine ⟨by decide, fun h => ?_⟩
  obtain ⟨port, -, hr⟩ := authorityOf_iff.mp (h.kept { scheme := .redis, host := "::1" } rfl)
  have hignored : (reading "[::1]x").map Reading.ignored = some [] := by
    rw [hr]
    rfl
  exact absurd hignored (by decide)

end Redisdal.Config
