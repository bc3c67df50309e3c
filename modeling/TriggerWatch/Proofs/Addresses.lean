import TriggerWatch.Proofs.PlainParts
import TriggerWatch.Proofs.UriReading
import TriggerWatch.Settings.Environment
import TriggerWatch.Store.Connection

/-!
# Addresses tell servers apart

The address of a server is made of its settings, written one after the other with a delimiter
between two of them. No setting is escaped, so a delimiter in one of them may be taken for the one
that follows. The address then reads as other settings, and it may lead to another host.

An address reads as the settings that it is made of as long as no setting contains what ends it. To
tell apart the addresses of different settings less is needed: a few parts have to be free of the
delimiter next to them, and a password may contain anything.

## Main definitions

- `Settings.Database.parts`, `Settings.Redis.parts` — the settings that an address is made of
- `Settings.Database.uri`, `Settings.Redis.uri` — where they are meant to stand
- `Settings.Database.partsOf?`, `Settings.Redis.partsOf?` — what is read in an address
- `Settings.Database.IsDelimited` — no part contains what ends it
- `Settings.Database.IsLiteral`, `Settings.Redis.IsLiteral` — no part is taken for an escaped one
- `Settings.Database.IsPlain`, `Settings.Redis.IsPlain` — no part can be taken for two

## Main statements

- `Settings.Database.ofText?_url_eq_iff`, `Settings.Redis.ofText?_connectionUrl_eq_iff` — when an
  address reads as the parts that it is made of
- `Settings.Database.parts_eq_of_url_eq`, `Settings.Redis.parts_eq_of_connectionUrl_eq` — addresses
  give back their parts
- `Settings.addresses_told_apart` — both kinds of addresses
- `Settings.addresses_mistaken` — addresses that lead elsewhere, or that several settings share
-/

namespace TriggerWatch.Settings

/-- A port is found back from its digits. -/
theorem eq_of_toList_repr_eq {m n : Nat} (h : m.repr.toList = n.repr.toList) : m = n := by
  have hdigits := congrArg (Decimal.natOfDigits 0) h
  rwa [Nat.toList_repr, Nat.toList_repr, Decimal.natOfDigits_toDigits,
    Decimal.natOfDigits_toDigits] at hdigits

namespace Database

variable {d d' : Database}

/-- The settings that an address is made of. -/
def parts (d : Database) : String × String × String × Nat × String × String :=
  (d.user, d.password, d.host, d.port, d.name, d.sslMode)

theorem parts_eq_iff : d.parts = d'.parts ↔ d.user = d'.user ∧ d.password = d'.password ∧
    d.host = d'.host ∧ d.port = d'.port ∧ d.name = d'.name ∧ d.sslMode = d'.sslMode := by
  simp only [parts, Prod.mk.injEq]

/-- The delimiters inside a part that is written next to one of its kind. -/
def misplaced (d : Database) : List Char :=
  [(':', d.user), ('@', d.host), ('/', d.name), ('?', d.sslMode)].filterMap fun p =>
    if p.1 ∈ p.2.toList then some p.1 else none

/-- No part is taken for two parts. The password may contain anything. -/
def IsPlain (d : Database) : Prop := d.misplaced = []

theorem isPlain_iff : d.IsPlain ↔ ':' ∉ d.user.toList ∧ '@' ∉ d.host.toList ∧
    '/' ∉ d.name.toList ∧ '?' ∉ d.sslMode.toList := by
  simp [IsPlain, misplaced]

theorem url_eq (d : Database) : d.url = "postgres://" ++ (d.user ++ ":" ++ d.password ++ "@" ++
    d.host ++ ":" ++ d.port.repr ++ "/" ++ d.name ++ "?" ++ ("sslmode=" ++ d.sslMode)) := by
  unfold url
  simp only [toString, String.append_assoc]
  rfl

theorem toList_url (d : Database) : d.url.toList = "postgres://".toList ++
    (d.user.toList ++ ':' :: d.password.toList ++ '@' :: d.host.toList ++ ':' :: d.port.repr.toList
      ++ '/' :: d.name.toList ++ '?' :: ("sslmode=".toList ++ d.sslMode.toList)) := by
  have hdelimiters : ":".toList = [':'] ∧ "@".toList = ['@'] ∧ "/".toList = ['/'] ∧
      "?".toList = ['?'] := ⟨rfl, rfl, rfl, rfl⟩
  obtain ⟨hcolon, hat, hslash, hmark⟩ := hdelimiters
  rw [url_eq]
  simp only [String.toList_append, hcolon, hat, hslash, hmark, List.append_assoc,
    List.cons_append, List.nil_append]

/-- The address of a database gives back the parts that it is made of. -/
theorem parts_eq_of_url_eq (hd : d.IsPlain) (hd' : d'.IsPlain) (h : d.url = d'.url) :
    d.parts = d'.parts := by
  have h := congrArg String.toList h
  rw [toList_url, toList_url] at h
  obtain ⟨hcolon, hat, hslash, hmark⟩ := isPlain_iff.mp hd
  obtain ⟨hcolon', hat', hslash', hmark'⟩ := isPlain_iff.mp hd'
  have hquery {mode : List Char} (hm : '?' ∉ mode) : '?' ∉ "sslmode=".toList ++ mode := by
    rw [List.mem_append, not_or]
    exact ⟨by decide, hm⟩
  -- from the end of the address to its beginning, so that the password comes last
  obtain ⟨h, hssl⟩ :=
    Text.eq_of_append_last (hquery hmark) (hquery hmark') (List.append_cancel_left h)
  obtain ⟨h, hname⟩ := Text.eq_of_append_last hslash hslash' h
  obtain ⟨h, hport⟩ := Text.eq_of_append_last (Uri.not_mem_repr rfl _) (Uri.not_mem_repr rfl _) h
  obtain ⟨h, hhost⟩ := Text.eq_of_append_last hat hat' h
  obtain ⟨huser, hpassword⟩ := Text.eq_of_append_first hcolon hcolon' h
  have hssl := List.append_cancel_left hssl
  have hport := eq_of_toList_repr_eq hport
  simp only [String.toList_inj] at hssl hname hhost huser hpassword
  rw [parts, parts, hssl, hname, hport, hhost, huser, hpassword]

/-- The parts of an address where they are meant to stand. -/
def uri (d : Database) : Uri where
  scheme := "postgres"
  user := d.user.toList
  password := d.password.toList
  host := some d.host
  port := some d.port
  path := '/' :: d.name.toList
  query := "sslmode=".toList ++ d.sslMode.toList

/-- No part contains what ends it. -/
structure IsDelimited (d : Database) : Prop where
  uri : d.uri.IsDelimited
  /-- The last part ends the address. -/
  sslMode : ∀ c ∈ d.sslMode.toList.getLast?, Uri.isControl c = false

/-- No part is taken for an escaped one. -/
structure IsLiteral (d : Database) : Prop where
  user : Uri.hasEscape d.user.toList = false
  password : Uri.hasEscape d.password.toList = false
  name : Uri.hasEscape d.name.toList = false
  sslMode : Uri.hasEscape d.sslMode.toList = false
  plus_not_mem_sslMode : '+' ∉ d.sslMode.toList
  and_not_mem_sslMode : '&' ∉ d.sslMode.toList

/-- The parts that are read in the address of a database. -/
def partsOf? (address : String) : Option (String × String × String × Nat × String × String) := do
  let u ← Uri.ofText? address
  let user ← Uri.unescape? u.user
  let password ← Uri.unescape? u.password
  let host ← u.host
  let port ← u.port
  let name ← Uri.unescape? (u.path.drop 1)
  let sslMode ← u.setting? "sslmode"
  return (user, password, host, port, name, sslMode)

/-- The user, the password and the place of a database. -/
def authority (d : Database) : List Char :=
  d.user.toList ++ ':' :: d.password.toList ++ '@' :: (d.host.toList ++ ':' :: d.port.repr.toList)

/-- What stands in an address between the scheme and the question mark. -/
def location (d : Database) : List Char := '/' :: '/' :: (d.authority ++ '/' :: d.name.toList)

/-- What stands in an address before the mode of protection. -/
def front (d : Database) : List Char :=
  "postgres".toList ++ ':' :: (d.location ++ '?' :: "sslmode=".toList)

theorem toList_sslMode_sign : "sslmode=".toList = "sslmode".toList ++ ['='] := by decide

theorem front_append (d : Database) (tail : List Char) : d.front ++ tail =
    "postgres".toList ++ ':' :: (d.location ++ '?' :: ("sslmode=".toList ++ tail)) := by
  unfold front
  simp only [List.append_assoc, List.cons_append]

theorem toList_url_eq_front (d : Database) : d.url.toList = d.front ++ d.sslMode.toList := by
  have hscheme : "postgres://".toList = "postgres".toList ++ [':', '/', '/'] := by decide
  rw [front_append, toList_url, hscheme]
  simp only [location, authority, List.append_assoc, List.cons_append, List.nil_append]

theorem not_mem_authority (h : d.uri.IsDelimited) :
    ∀ c ∈ '/' :: '?' :: '#' :: Uri.breaks, c ∉ d.authority := by
  have hends : ∀ c ∈ '/' :: '?' :: '#' :: Uri.breaks, c ≠ ':' ∧ c ≠ '@' :=
    List.all_iff_forall_prop.mp (by decide)
  intro c hc hm
  obtain ⟨hcolon, hat⟩ := hends c hc
  have hplace := Uri.not_mem_place (h.host d.host rfl).2 d.port c (List.mem_cons_of_mem _ hc)
  rw [authority, List.mem_append, List.mem_append] at hm
  rcases hm with (hm | hm) | hm
  · exact h.user c (List.mem_cons_of_mem _ hc) hm
  · exact (List.mem_cons.mp hm).elim hcolon (h.password c hc)
  · exact (List.mem_cons.mp hm).elim hat hplace

theorem not_mem_location (h : d.uri.IsDelimited) :
    ∀ c ∈ '?' :: '#' :: Uri.breaks, c ∉ d.location := by
  have hends : ∀ c ∈ '?' :: '#' :: Uri.breaks, c ≠ '/' :=
    List.all_iff_forall_prop.mp (by decide)
  intro c hc hm
  simp only [location, List.mem_cons, List.mem_append, hends c hc, false_or] at hm
  rcases hm with hm | hm
  · exact not_mem_authority h c (List.mem_cons_of_mem _ hc) hm
  · exact h.path c hc (List.mem_cons_of_mem _ hm)

/-- An address of delimited parts is cleaned at its end alone. -/
theorem cleaned_url (h : d.uri.IsDelimited) : Uri.cleaned d.url.toList =
    "postgres".toList ++ ':' :: (d.location ++
      '?' :: ("sslmode=".toList ++ d.sslMode.toList.rdropWhile Uri.isControl)) := by
  have hends : ∀ c ∈ Uri.breaks, c ∉ "postgres".toList ∧ c ≠ ':' ∧ c ≠ '?' :=
    List.all_iff_forall_prop.mp (by decide)
  have hbreaks : ∀ c ∈ Uri.breaks, c ∉ d.front ++ d.sslMode.toList := by
    intro c hc hm
    obtain ⟨hscheme, hcolon, hmark⟩ := hends c hc
    rw [front_append, List.mem_append, List.mem_cons, List.mem_append, List.mem_cons] at hm
    rcases hm with hm | hm | hm | hm | hm
    · exact hscheme hm
    · exact hcolon hm
    · exact not_mem_location h c (List.mem_cons_of_mem _ (List.mem_cons_of_mem _ hc)) hm
    · exact hmark hm
    · exact h.query c (List.mem_cons_of_mem _ hc) hm
  have hfirst : d.front.head? = some 'p' := by
    unfold front
    rw [List.head?_append]
    rfl
  have hlast : d.front.getLast? = some '=' := by
    unfold front
    rw [toList_sslMode_sign]
    simp only [← List.append_assoc, ← List.cons_append, List.getLast?_concat]
  rw [toList_url_eq_front, Uri.cleaned_append hfirst rfl hlast rfl hbreaks, front_append]

/-- Delimited parts are read as they are, up to blanks at the end of the address. -/
theorem ofText?_url (h : d.uri.IsDelimited) : Uri.ofText? d.url = some { d.uri with
    query := "sslmode=".toList ++ d.sslMode.toList.rdropWhile Uri.isControl } := by
  obtain ⟨hhost, hisHost⟩ := h.host d.host rfl
  have hlocation := not_mem_location h
  have hcut := Uri.upTo_append (hlocation '?' (by decide))
    ("sslmode=".toList ++ d.sslMode.toList.rdropWhile Uri.isControl)
  have hhash : '#' ∉ d.location ++
      '?' :: ("sslmode=".toList ++ d.sslMode.toList.rdropWhile Uri.isControl) := by
    intro hm
    rw [List.mem_append, List.mem_cons, List.mem_append] at hm
    rcases hm with hm | hm | hm | hm
    · exact hlocation '#' (by decide) hm
    · exact absurd hm (by decide)
    · exact absurd hm (by decide)
    · refine h.query '#' List.mem_cons_self (List.mem_append_right _ ?_)
      exact (List.rdropWhile_prefix Uri.isControl d.sslMode.toList).subset hm
  have huser : Uri.splitUser d.authority =
      (d.user.toList ++ ':' :: d.password.toList, d.host.toList ++ ':' :: d.port.repr.toList) :=
    Uri.splitUser_append (Uri.not_mem_place hisHost d.port '@' (by decide)) _
  have hscheme : String.ofList ("postgres".toList.map Char.toLower) = "postgres" := by decide
  have hpath : Uri.resolved ('/' :: d.name.toList) = '/' :: d.name.toList :=
    Uri.resolved_eq h.pieces
  rw [Uri.ofText?_of_cleaned (cleaned_url h) (by decide) (by decide) hhash hcut
    (not_mem_authority h '/' (by decide)) (fun c hc => (Option.some.inj hc).symm), hpath, hscheme,
    Uri.withAuthority?_eq huser (Uri.upTo_append (h.user ':' (by decide)) _) hisHost
      (by simpa using hhost) (h.port d.port rfl), String.ofList_toList]
  rfl

/-- An address reads as the parts that it is made of as long as no part contains what ends it. -/
theorem ofText?_url_eq_iff : Uri.ofText? d.url = some d.uri ↔ d.IsDelimited := by
  constructor
  · intro h
    have hu := Uri.isDelimited_of_ofText? h
    rw [ofText?_url hu] at h
    have hmode := List.append_cancel_left (congrArg Uri.query (Option.some.inj h))
    exact ⟨hu, Uri.rdropWhile_isControl_eq_self_iff.mp hmode⟩
  · rintro ⟨hu, hmode⟩
    rw [ofText?_url hu, Uri.rdropWhile_isControl_eq_self_iff.mpr hmode]
    rfl

theorem setting?_sslMode (h : d.IsLiteral) : d.uri.setting? "sslmode" = some d.sslMode := by
  have hmode : "sslmode=".toList ++ d.sslMode.toList =
      "sslmode".toList ++ '=' :: d.sslMode.toList := by
    rw [toList_sslMode_sign, List.append_assoc]
    rfl
  have hsplit : Text.split '&' d.uri.query = [d.uri.query] := by
    refine Text.split_of_not_mem fun hm => ?_
    rcases List.mem_append.mp hm with hm | hm
    · exact absurd hm (by decide)
    · exact h.and_not_mem_sslMode hm
  have hcut : Uri.upTo '=' d.uri.query = ("sslmode".toList, d.sslMode.toList) :=
    (congrArg (Uri.upTo '=') hmode).trans (Uri.upTo_append (by decide) _)
  have hname : Uri.settingText "sslmode".toList = "sslmode" :=
    Uri.settingText_toList (by decide) (by decide)
  have hvalue := Uri.settingText_toList h.sslMode h.plus_not_mem_sslMode
  have hsettings : d.uri.settings = [("sslmode", d.sslMode)] := by
    have hne : d.uri.query.isEmpty = false := by simp [uri]
    rw [Uri.settings, hsplit, List.filter_cons_of_pos (by rw [hne]; rfl), List.filter_nil,
      List.map_singleton, hcut]
    simp only [hname, hvalue]
  rw [Uri.setting?, hsettings, List.filter_cons_of_pos (by rfl)]
  rfl

/-- Delimited parts without escapes are read in the address that they make up. -/
theorem partsOf?_url (h : d.IsDelimited) (hl : d.IsLiteral) : partsOf? d.url = some d.parts := by
  have huser : Uri.unescape? d.uri.user = some d.user := Uri.unescape?_toList hl.user
  have hpassword : Uri.unescape? d.uri.password = some d.password :=
    Uri.unescape?_toList hl.password
  have hname : Uri.unescape? (d.uri.path.drop 1) = some d.name := Uri.unescape?_toList hl.name
  simp only [partsOf?, ofText?_url_eq_iff.mpr h, Option.bind_eq_bind, Option.bind_some, huser,
    hpassword, hname, setting?_sslMode hl]
  rfl

end Database

namespace Redis

variable {r r' : Redis}

/-- The settings that an address is made of, unless one is given. -/
def parts (r : Redis) : Option String × String × Nat := (r.password, r.host, r.port)

/-- No address is given, and no part is taken for two parts. The password may contain anything. -/
structure IsPlain (r : Redis) : Prop where
  url_eq_none : r.url = none
  at_not_mem_host : '@' ∉ r.host.toList

/-- The password in an address, with the delimiters around it. -/
def credentials : Option String → List Char
  | none => []
  | some password => ':' :: (password.toList ++ ['@'])

/-- Before a host without an at sign, a password is found back. -/
theorem eq_of_credentials_append_eq {password password' : Option String} {host host' : List Char}
    (hh : '@' ∉ host) (hh' : '@' ∉ host')
    (h : credentials password ++ host = credentials password' ++ host') :
    password = password' ∧ host = host' := by
  have hat (password : String) (host : List Char) :
      '@' ∈ credentials (some password) ++ host := by simp [credentials]
  cases password with
  | none =>
    cases password' with
    | none => exact ⟨rfl, h⟩
    | some password' => exact absurd (Eq.mpr (congrArg ('@' ∈ ·) h) (hat password' host')) hh
  | some password =>
    cases password' with
    | none => exact absurd (Eq.mp (congrArg ('@' ∈ ·) h) (hat password host)) hh'
    | some password' =>
      simp only [credentials, List.cons_append, List.append_assoc, List.nil_append,
        List.cons.injEq, true_and] at h
      obtain ⟨hpassword, hhost⟩ := Text.eq_of_append_last hh hh' h
      exact ⟨congrArg some (String.toList_inj.mp hpassword), hhost⟩

theorem toList_connectionUrl (h : r.url = none) : r.connectionUrl.toList = "redis://".toList ++
    (credentials r.password ++ r.host.toList ++ ':' :: r.port.repr.toList) := by
  have hcolon : ":".toList = [':'] := rfl
  have hat : "@".toList = ['@'] := rfl
  have hfirst : "redis://:".toList = "redis://".toList ++ [':'] := rfl
  rw [connectionUrl, h]
  cases r.password with
  | none =>
    simp only [toString, String.toList_append, credentials, hcolon, List.append_assoc,
      List.cons_append, List.nil_append]
  | some password =>
    simp only [toString, String.toList_append, credentials, hcolon, hat, hfirst, List.append_assoc,
      List.cons_append, List.nil_append]

/-- The address of a server gives back the parts that it is made of. -/
theorem parts_eq_of_connectionUrl_eq (hr : r.IsPlain) (hr' : r'.IsPlain)
    (h : r.connectionUrl = r'.connectionUrl) : r.parts = r'.parts := by
  have h := congrArg String.toList h
  rw [toList_connectionUrl hr.url_eq_none, toList_connectionUrl hr'.url_eq_none] at h
  obtain ⟨h, hport⟩ := Text.eq_of_append_last (Uri.not_mem_repr rfl _) (Uri.not_mem_repr rfl _)
    (List.append_cancel_left h)
  obtain ⟨hpassword, hhost⟩ :=
    eq_of_credentials_append_eq hr.at_not_mem_host hr'.at_not_mem_host h
  rw [parts, parts, hpassword, String.toList_inj.mp hhost, eq_of_toList_repr_eq hport]

/-- The parts of an address where they are meant to stand. -/
def uri (r : Redis) : Uri where
  scheme := "redis"
  user := []
  password := (r.password.getD "").toList
  host := some r.host
  port := some r.port
  path := []
  query := []

/-- The password is not taken for an escaped one. -/
def IsLiteral (r : Redis) : Prop := Uri.hasEscape r.uri.password = false

/-- The password and the endpoint that are read in the address of a server. -/
def partsOf? (address : String) : Option (String × Endpoint) := do
  let u ← Uri.ofText? address
  let password ← Uri.unescape? u.password
  let endpoint ← Endpoint.ofRedisUri? u
  return (password, endpoint)

/-- The host and the port of a server. -/
def place (r : Redis) : List Char := r.host.toList ++ ':' :: r.port.repr.toList

theorem toList_connectionUrl_eq_place (h : r.url = none) : r.connectionUrl.toList =
    "redis".toList ++ ':' :: '/' :: '/' :: (credentials r.password ++ r.place) := by
  have hscheme : "redis://".toList = "redis".toList ++ [':', '/', '/'] := by decide
  rw [toList_connectionUrl h, hscheme]
  simp only [place, List.append_assoc, List.cons_append, List.nil_append]

theorem splitUser_credentials (h : '@' ∉ r.place) :
    ∃ user, Uri.splitUser (credentials r.password ++ r.place) = (user, r.place) ∧
      Uri.upTo ':' user = ([], r.uri.password) := by
  cases hp : r.password with
  | none =>
    refine ⟨[], Uri.splitUser_of_not_mem h, ?_⟩
    rw [Uri.upTo_of_not_mem List.not_mem_nil, uri, hp]
    rfl
  | some password =>
    refine ⟨':' :: password.toList, ?_, ?_⟩
    · rw [credentials, List.cons_append, List.append_assoc, ← List.cons_append]
      exact Uri.splitUser_append h _
    · rw [uri, hp]
      exact Uri.upTo_append List.not_mem_nil password.toList

theorem not_mem_credentials_append (h : r.uri.IsDelimited) :
    ∀ c ∈ '/' :: '?' :: '#' :: Uri.breaks, c ∉ credentials r.password ++ r.place := by
  have hends : ∀ c ∈ '/' :: '?' :: '#' :: Uri.breaks, c ≠ ':' ∧ c ≠ '@' :=
    List.all_iff_forall_prop.mp (by decide)
  intro c hc hm
  obtain ⟨hcolon, hat⟩ := hends c hc
  have hplace := Uri.not_mem_place (h.host r.host rfl).2 r.port c (List.mem_cons_of_mem _ hc)
  have hpassword : c ∉ (r.password.getD "").toList := h.password c hc
  rcases List.mem_append.mp hm with hm | hm
  · cases hp : r.password with
    | none =>
      rw [hp] at hm
      cases hm
    | some password =>
      rw [hp] at hm hpassword
      simp only [credentials, List.mem_cons, List.mem_append, hcolon, hat, List.not_mem_nil,
        or_false, false_or] at hm
      exact hpassword hm
  · exact hplace hm

/-- An address of delimited parts is clean. -/
theorem cleaned_connectionUrl (hurl : r.url = none) (h : r.uri.IsDelimited) :
    Uri.cleaned r.connectionUrl.toList =
      "redis".toList ++ ':' :: '/' :: '/' :: (credentials r.password ++ r.place) := by
  have hends : ∀ c ∈ Uri.breaks, c ∉ "redis".toList ∧ c ≠ ':' ∧ c ≠ '/' :=
    List.all_iff_forall_prop.mp (by decide)
  have hbreaks : ∀ c ∈ Uri.breaks,
      c ∉ "redis".toList ++ ':' :: '/' :: '/' :: (credentials r.password ++ r.place) := by
    intro c hc hm
    obtain ⟨hscheme, hcolon, hslash⟩ := hends c hc
    simp only [List.mem_append (s := "redis".toList), List.mem_cons, hscheme, hcolon, hslash,
      false_or] at hm
    exact not_mem_credentials_append h c (by simp [hc]) hm
  obtain ⟨last, hport, hlast⟩ := Uri.exists_getLast?_repr r.port
  have hend : ("redis".toList ++ ':' :: '/' :: '/' ::
      (credentials r.password ++ r.place)).getLast? = some last := by
    simp only [place, List.getLast?_append, List.getLast?_cons, hport, Option.getD_some,
      Option.some_or]
  rw [toList_connectionUrl_eq_place hurl]
  exact Uri.cleaned_eq rfl (by decide : Uri.isControl 'r' = false) hend hlast hbreaks

/-- A delimited address of a server is read as its parts. -/
theorem ofText?_connectionUrl (hurl : r.url = none) (h : r.uri.IsDelimited) :
    Uri.ofText? r.connectionUrl = some r.uri := by
  obtain ⟨hhost, hisHost⟩ := h.host r.host rfl
  have hauthority := not_mem_credentials_append h
  obtain ⟨user, hsplit, hcredentials⟩ :=
    splitUser_credentials (Uri.not_mem_place hisHost r.port '@' (by decide))
  have hrest : ∀ c ∈ ['?', '#'], c ∉ '/' :: '/' :: (credentials r.password ++ r.place) := by
    have hends : ∀ c ∈ ['?', '#'], c ≠ '/' ∧ c ∈ '/' :: '?' :: '#' :: Uri.breaks :=
      List.all_iff_forall_prop.mp (by decide)
    intro c hc
    simp only [List.mem_cons, hends c hc, false_or]
    exact hauthority c (hends c hc).2
  have hcut : Uri.upTo '?' ('/' :: '/' :: (credentials r.password ++ r.place)) =
      ('/' :: '/' :: (credentials r.password ++ r.place ++ []), []) := by
    rw [List.append_nil]
    exact Uri.upTo_of_not_mem (hrest '?' (by decide))
  have hscheme : String.ofList ("redis".toList.map Char.toLower) = "redis" := by decide
  rw [Uri.ofText?_of_cleaned (cleaned_connectionUrl hurl h) (by decide) (by decide)
    (hrest '#' (by decide)) hcut (hauthority '/' (by decide)) (by rintro _ ⟨⟩), hscheme,
    Uri.withAuthority?_eq hsplit hcredentials hisHost (by simpa using hhost) (h.port r.port rfl),
    String.ofList_toList]
  rfl

/-- An address reads as the parts that it is made of as long as no part contains what ends it. -/
theorem ofText?_connectionUrl_eq_iff (h : r.url = none) :
    Uri.ofText? r.connectionUrl = some r.uri ↔ r.uri.IsDelimited :=
  ⟨Uri.isDelimited_of_ofText?, ofText?_connectionUrl h⟩

/-- Delimited parts without escapes are read in the address that they make up. -/
theorem partsOf?_connectionUrl (h : r.url = none) (hd : r.uri.IsDelimited) (hl : r.IsLiteral) :
    partsOf? r.connectionUrl = some (r.password.getD "", .port r.host r.port) := by
  have huser : Uri.unescape? r.uri.user = some "" :=
    Uri.unescape?_toList (by decide : Uri.hasEscape "".toList = false)
  have hpassword : Uri.unescape? r.uri.password = some (r.password.getD "") :=
    Uri.unescape?_toList hl
  have hendpoint : Endpoint.ofRedisUri? r.uri = some (.port r.host r.port) := by
    have hprotocol : Endpoint.hasKnownProtocol r.uri = true := rfl
    have hscheme : Endpoint.portSchemes.contains r.uri.scheme = true :=
      (by decide : Endpoint.portSchemes.contains "redis" = true)
    have hpath : (Endpoint.withoutSlashes r.uri.path).isEmpty = true := rfl
    rw [Endpoint.ofRedisUri?, hprotocol, hscheme, huser, hpassword]
    simp only [hpath]
    rfl
  simp only [partsOf?, ofText?_connectionUrl h hd, Option.bind_eq_bind, Option.bind_some,
    hpassword, hendpoint]
  rfl

end Redis

theorem Database.url_eq_iff {d d' : Database} (hd : d.IsPlain) (hd' : d'.IsPlain) :
    d.url = d'.url ↔ d.parts = d'.parts := by
  refine ⟨Database.parts_eq_of_url_eq hd hd', ?_⟩
  intro h
  obtain ⟨huser, hpassword, hhost, hport, hname, hssl⟩ := Database.parts_eq_iff.mp h
  rw [Database.url_eq, Database.url_eq, huser, hpassword, hhost, hport, hname, hssl]

theorem Redis.connectionUrl_eq_iff {r r' : Redis} (hr : r.IsPlain) (hr' : r'.IsPlain) :
    r.connectionUrl = r'.connectionUrl ↔ r.parts = r'.parts := by
  refine ⟨Redis.parts_eq_of_connectionUrl_eq hr hr', ?_⟩
  intro h
  simp only [Redis.parts, Prod.mk.injEq] at h
  obtain ⟨hpassword, hhost, hport⟩ := h
  rw [Redis.connectionUrl, Redis.connectionUrl, hr.url_eq_none, hr'.url_eq_none, hpassword,
    hhost, hport]

/-- An address reads as the parts that it is made of exactly as long as no part contains what ends
it. These are the settings themselves if moreover nothing in them looks escaped. For the addresses
of different settings to differ it is enough that there is no colon in the user of a database, no at
sign in a host, no slash in the name of a database and no question mark in the mode of its
protection. -/
theorem addresses_told_apart (d d' : Database) (r r' : Redis) :
    (Uri.ofText? d.url = some d.uri ↔ d.IsDelimited) ∧
    (d.IsDelimited → d.IsLiteral → Database.partsOf? d.url = some d.parts) ∧
    (d.IsPlain → d'.IsPlain → (d.url = d'.url ↔ d.parts = d'.parts)) ∧
    (r.url = none → (Uri.ofText? r.connectionUrl = some r.uri ↔ r.uri.IsDelimited)) ∧
    (r.url = none → r.uri.IsDelimited → r.IsLiteral →
      Redis.partsOf? r.connectionUrl = some (r.password.getD "", .port r.host r.port)) ∧
    (r.IsPlain → r'.IsPlain → (r.connectionUrl = r'.connectionUrl ↔ r.parts = r'.parts)) :=
  ⟨Database.ofText?_url_eq_iff, Database.partsOf?_url, Database.url_eq_iff,
    Redis.ofText?_connectionUrl_eq_iff, Redis.partsOf?_connectionUrl, Redis.connectionUrl_eq_iff⟩

/-- A database whose password has delimiters that end nothing where they stand. -/
def oddPassword : Database where
  host := "db"
  port := 5432
  name := "n"
  user := "u"
  password := ":p@h&%"
  maxConnections := 10
  minConnections := 1
  acquireTimeout := 5
  sslMode := "prefer"

theorem isDelimited_oddPassword : oddPassword.IsDelimited where
  uri := {
    user := List.all_iff_forall_prop.mp (by decide)
    password := List.all_iff_forall_prop.mp (by decide)
    host := by
      rintro _ ⟨⟩
      decide
    port := by
      rintro _ ⟨⟩
      decide
    path := List.all_iff_forall_prop.mp (by decide)
    pieces := by
      rintro _ ⟨⟩
      decide
    query := List.all_iff_forall_prop.mp (by decide) }
  sslMode := by
    rintro _ ⟨⟩
    decide

theorem isLiteral_oddPassword : oddPassword.IsLiteral :=
  ⟨by decide, by decide, by decide, by decide, by decide, by decide⟩

/-- A server whose password has delimiters that end nothing where they stand. -/
def oddServer : Redis := ⟨"cache", 6379, some ":@:@", none⟩

theorem isDelimited_oddServer : oddServer.uri.IsDelimited where
  user := List.all_iff_forall_prop.mp (by decide)
  password := List.all_iff_forall_prop.mp (by decide)
  host := by
    rintro _ ⟨⟩
    decide
  port := by
    rintro _ ⟨⟩
    decide
  path := List.all_iff_forall_prop.mp (by decide)
  pieces := by
    rintro _ ⟨⟩
  query := List.all_iff_forall_prop.mp (by decide)

theorem addresses_told_apart_of_oddPassword :
    Database.partsOf? oddPassword.url = some ("u", ":p@h&%", "db", 5432, "n", "prefer") ∧
      oddPassword.url ≠ { oddPassword with password := "p" }.url ∧
      Redis.partsOf? oddServer.connectionUrl = some (":@:@", .port "cache" 6379) ∧
      oddServer.connectionUrl ≠ { oddServer with password := some ":@" }.connectionUrl := by
  obtain ⟨-, hread, hurl, -, hreadServer, hconnectionUrl⟩ :=
    addresses_told_apart oddPassword { oddPassword with password := "p" } oddServer
      { oddServer with password := some ":@" }
  refine ⟨hread isDelimited_oddPassword isLiteral_oddPassword, ?_, ?_, ?_⟩
  · rw [ne_eq, hurl rfl rfl]
    decide
  · exact hreadServer rfl isDelimited_oddServer (by decide : Uri.hasEscape _ = false)
  · rw [ne_eq, hconnectionUrl ⟨rfl, by decide⟩ ⟨rfl, by decide⟩]
    decide

/-- A database whose password looks like the rest of an address. -/
def openPassword : Database where
  host := "db"
  port := 5432
  name := "n"
  user := "u"
  password := "p@h:1/m?sslmode=s"
  maxConnections := 10
  minConnections := 1
  acquireTimeout := 5
  sslMode := "prefer"

/-- A password moves the end of the host: the address of one database leads to another one. -/
theorem Database.exists_mistaken_url :
    ∃ env d, databaseOf env = .ok d ∧ d.host = "db" ∧ d.port = 5432 ∧
      (Uri.ofText? d.url).map (fun u => (u.host, u.port)) = some (some "h", some 1) :=
  ⟨[("DB_HOST", "db"), ("DB_NAME", "n"), ("DB_PASSWORD", "p@h:1/m?sslmode=s"), ("DB_USER", "u")],
    openPassword, rfl, rfl, rfl, by decide +kernel⟩

/-- A password moves the end of the host: the address of one server leads to another one. -/
theorem Redis.exists_mistaken_connectionUrl :
    ∃ env settings, ofEnvironment env = .ok settings ∧ settings.redis.host = "cache" ∧
      settings.redis.port = 6379 ∧
        (Uri.ofText? settings.redis.connectionUrl).bind Endpoint.ofRedisUri? =
          some (.port "other" 1) :=
  ⟨[("REDIS_HOST", "cache"), ("REDIS_PASSWORD", "x@other:1#"), ("STATE_STORE_BACKEND", "redis")],
    _, rfl, rfl, rfl, by decide +kernel⟩

/-- A password makes an address that is none. -/
theorem Redis.exists_illegible_connectionUrl :
    ∃ env settings, ofEnvironment env = .ok settings ∧ settings.redis.password = some "p/w" ∧
      Uri.ofText? settings.redis.connectionUrl = none :=
  ⟨[("REDIS_PASSWORD", "p/w"), ("STATE_STORE_BACKEND", "redis")], _, rfl, rfl, by decide +kernel⟩

/-- Each of the delimiters in the part next to it makes a shared address, with no other delimiter
misplaced. -/
theorem Database.exists_shared_url {c : Char} (h : c ∈ [':', '@', '/', '?']) :
    ∃ env env' d d', databaseOf env = .ok d ∧ databaseOf env' = .ok d' ∧ d.misplaced = [] ∧
      d'.misplaced = [c] ∧ d.parts ≠ d'.parts ∧ d.url = d'.url := by
  simp only [List.mem_cons, List.not_mem_nil, or_false] at h
  rcases h with rfl | rfl | rfl | rfl
  · exact ⟨[("DB_PASSWORD", "x:pw"), ("DB_USER", "app")],
      [("DB_PASSWORD", "pw"), ("DB_USER", "app:x")], _, _, rfl, rfl, by decide +kernel⟩
  · exact ⟨[("DB_HOST", "db"), ("DB_PASSWORD", "pw@x")],
      [("DB_HOST", "x@db"), ("DB_PASSWORD", "pw")], _, _, rfl, rfl, by decide +kernel⟩
  · exact ⟨[("DB_HOST", "db:1/x"), ("DB_NAME", "n"), ("DB_PASSWORD", "pw"), ("DB_PORT", "2")],
      [("DB_HOST", "db"), ("DB_NAME", "x:2/n"), ("DB_PASSWORD", "pw"), ("DB_PORT", "1")], _, _,
      rfl, rfl, by decide +kernel⟩
  · exact ⟨[("DB_NAME", "n?sslmode=x"), ("DB_PASSWORD", "pw"), ("DB_SSL_MODE", "y")],
      [("DB_NAME", "n"), ("DB_PASSWORD", "pw"), ("DB_SSL_MODE", "x?sslmode=y")], _, _, rfl, rfl,
      by decide +kernel⟩

/-- An at sign in the host makes a shared address. -/
theorem Redis.exists_shared_connectionUrl :
    ∃ env env' settings settings', ofEnvironment env = .ok settings ∧
      ofEnvironment env' = .ok settings' ∧ settings.redis.IsPlain ∧ settings'.redis.url = none ∧
        settings.redis.parts ≠ settings'.redis.parts ∧
          settings.redis.connectionUrl = settings'.redis.connectionUrl :=
  ⟨[("REDIS_HOST", "cache"), ("REDIS_PASSWORD", "pw"), ("STATE_STORE_BACKEND", "redis")],
    [("REDIS_HOST", ":pw@cache"), ("STATE_STORE_BACKEND", "redis")], _, _, rfl, rfl,
    ⟨rfl, by decide⟩, rfl, by decide, by decide +kernel⟩

/-- A setting can make an address lead to another host or make it illegible, and each of a few
delimiters lets environments with different parts share an address. So an address does not tell all
parts. -/
theorem addresses_mistaken :
    (∃ env d, databaseOf env = .ok d ∧ d.host = "db" ∧ d.port = 5432 ∧
      (Uri.ofText? d.url).map (fun u => (u.host, u.port)) = some (some "h", some 1)) ∧
    (∃ env settings, ofEnvironment env = .ok settings ∧ settings.redis.host = "cache" ∧
      settings.redis.port = 6379 ∧
        (Uri.ofText? settings.redis.connectionUrl).bind Endpoint.ofRedisUri? =
          some (.port "other" 1)) ∧
    (∃ env settings, ofEnvironment env = .ok settings ∧ settings.redis.password = some "p/w" ∧
      Uri.ofText? settings.redis.connectionUrl = none) ∧
    (∀ c ∈ [':', '@', '/', '?'], ∃ env env' d d', databaseOf env = .ok d ∧
      databaseOf env' = .ok d' ∧ d.misplaced = [] ∧ d'.misplaced = [c] ∧ d.parts ≠ d'.parts ∧
        d.url = d'.url) ∧
    (∃ env env' settings settings', ofEnvironment env = .ok settings ∧
      ofEnvironment env' = .ok settings' ∧ settings.redis.IsPlain ∧ settings'.redis.url = none ∧
        settings.redis.parts ≠ settings'.redis.parts ∧
          settings.redis.connectionUrl = settings'.redis.connectionUrl) ∧
    ¬ (∀ d d' : Database, d.parts ≠ d'.parts → d.url ≠ d'.url) ∧
    ¬ ∀ r r' : Redis, r.url = none → r'.url = none → r.parts ≠ r'.parts →
      r.connectionUrl ≠ r'.connectionUrl := by
  refine ⟨Database.exists_mistaken_url, Redis.exists_mistaken_connectionUrl,
    Redis.exists_illegible_connectionUrl, fun _ => Database.exists_shared_url,
    Redis.exists_shared_connectionUrl, ?_, ?_⟩
  · intro h
    obtain ⟨-, -, d, d', -, -, -, -, hparts, hurl⟩ :=
      Database.exists_shared_url (List.mem_cons_self (a := ':'))
    exact h d d' hparts hurl
  · intro h
    obtain ⟨-, -, settings, settings', -, -, hplain, hnone, hparts, hurl⟩ :=
      Redis.exists_shared_connectionUrl
    exact h _ _ hplain.url_eq_none hnone hparts hurl

end TriggerWatch.Settings
