import TriggerWatch.Failure
import TriggerWatch.Settings.Basic
import TriggerWatch.Uri

/-!
# Connections

A connection is made to an address. The address of a Redis server is written out in the settings; a
database is reached by the address that its settings make up.

## Main definitions

- `Endpoint` — where a server listens
- `Endpoint.ofRedisUri?` — the endpoint in the address of a Redis server
- `connectRedis` — connect to a Redis server
- `connectDatabase` — connect to a database
-/

namespace TriggerWatch

/-- Where a server listens. -/
inductive Endpoint where
  /-- A socket in the file system. -/
  | socket (path : String)
  /-- A port of a host. -/
  | port (host : String) (number : Nat)
deriving DecidableEq, Repr

namespace Endpoint

/-- The schemes of a Redis server behind a port. -/
def portSchemes : List String := ["redis", "valkey"]

/-- The schemes of a Redis server behind a socket. -/
def socketSchemes : List String := ["unix", "redis+unix", "valkey+unix"]

/-- The port of a Redis server where no other is given. -/
def redisPort : Nat := 6379

/-- Whether a text is a signed number of 64 bits. -/
def isSigned64 (text : List Char) : Bool :=
  let below (digits : List Char) (limit : Nat) :=
    !digits.isEmpty && digits.all Char.isDigit &&
      decide (digits.foldl (fun n c => 10 * n + (c.toNat - '0'.toNat)) 0 < limit)
  match text with
  | '-' :: digits => below digits 0x8000000000000001
  | '+' :: digits => below digits 0x8000000000000000
  | digits => below digits 0x8000000000000000

/-- The text without the slashes around it. -/
def withoutSlashes (text : List Char) : List Char :=
  ((text.dropWhile (· == '/')).reverse.dropWhile (· == '/')).reverse

/-- Whether the address asks for a version of the protocol that there is. -/
def hasKnownProtocol (u : Uri) : Bool :=
  (u.setting? "protocol").all fun version => ["2", "resp2", "3", "resp3"].contains version

/-- The endpoint in the address of a Redis server. The path of a port is empty or the number of a
database; the path of a socket is absolute. -/
def ofRedisUri? (u : Uri) : Option Endpoint :=
  if !hasKnownProtocol u then none
  else if portSchemes.contains u.scheme then
    let database := withoutSlashes u.path
    if !(database.isEmpty || isSigned64 database) then none
    else if (Uri.unescape? u.user).isNone || (Uri.unescape? u.password).isNone then none
    else u.host.map fun host => .port host (u.port.getD redisPort)
  else if socketSchemes.contains u.scheme then
    if !((u.setting? "db").all fun database => isSigned64 database.toList) then none
    else if !(u.host.all fun host => host == "localhost") then none
    else
      match u.path with
      | '/' :: _ => some (.socket (String.ofList u.path))
      | _ => none
  else none

end Endpoint

/-- Connect to the Redis server at an address, where some endpoints answer. -/
def connectRedis (answers : Endpoint → Bool) (url : String) : Except ServiceFailure Unit :=
  match (Uri.ofText? url).bind Endpoint.ofRedisUri? with
  | none => .error (.settings "Invalid Redis URL: the address is none of a Redis server")
  | some endpoint =>
    if answers endpoint then .ok ()
    else .error (.internal "Failed to connect to Redis: nothing answers at the address")

/-- The modes in which a connection to a database does without encryption if it has to. -/
def plainModes : List String := ["disable", "allow", "prefer"]

/-- Connect to the database of some settings, where some endpoints answer. The server has no
encryption, so that a connection cannot insist on it. -/
def connectDatabase (answers : Endpoint → Bool) (d : Settings.Database) :
    Except ServiceFailure Unit :=
  match Uri.ofText? d.url with
  | none => .error (.database "the address is none of a database")
  | some u =>
    let mode := ((u.setting? "sslmode").getD "prefer").map Char.toLower
    let reached := u.host.any fun host => answers (.port host (u.port.getD 5432))
    if !plainModes.contains mode then .error (.database "the connection would not be encrypted")
    else if reached && d.acquireTimeout != 0 then .ok ()
    else .error (.database "nothing answers at the address")

end TriggerWatch
