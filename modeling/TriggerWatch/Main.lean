import TriggerWatch.Service
import Std.Time.DateTime.Timestamp

/-!
# The command

The command takes its settings from the variables of its environment and submissions from standard
input, one on a line. The documents and the reported state live as long as the command. At the end,
the documents are written to standard output, each with its key on a line.
-/

namespace TriggerWatch.Command

/-- The variables that hold settings. -/
def settingNames : List String := [
  "STATE_STORE_BACKEND", "DB_HOST", "DB_PORT", "DB_NAME", "DB_USER", "DB_PASSWORD",
  "DB_MAX_CONNECTIONS", "DB_MIN_CONNECTIONS", "DB_ACQUIRE_TIMEOUT", "DB_SSL_MODE", "REDIS_URL",
  "REDIS_HOST", "REDIS_PORT", "REDIS_PASSWORD", "EVENT_RETENTION_SECS", "MIN_DEBOUNCE_SECS",
  "AUDIT_CAPACITY", "STORE_TIMEOUT_MS", "SERIALIZE_PER_DEVICE", "BEACON_CLASS_MAP",
  "CHAT_WEBHOOK_URL", "CHAT_DEFAULT_CHANNEL", "CHAT_CHANNEL_OVERRIDES", "CHAT_TIMEOUT_SECS",
  "REQUEST_QUEUE", "REQUEST_POLL_TIMEOUT_SECS", "BLOB_KEY_PREFIX", "AWS_IOT_ENDPOINT"]

/-- The settings in the variables of the process. -/
def environment : IO Settings.Environment := do
  let mut env : Settings.Environment := []
  for name in settingNames do
    if let some text ← IO.getEnv name then
      env := Dict.insert env name text
  return env

/-- The lines of a stream up to its end, without the characters that end them. -/
partial def lines (input : IO.FS.Stream) (read : List String) : IO (List String) := do
  let line ← input.getLine
  if line.isEmpty then
    return read.reverse
  lines input (line.trimAsciiEnd.toString :: read)

/-- The time of the wall clock. -/
def wallClock : IO Instant := do
  let now ← Std.Time.Timestamp.now
  let nanoseconds := now.toNanosecondsSinceUnixEpoch.val
  let second : Int := 1000000000
  return (Instant.ofParts? (nanoseconds.fdiv second) (nanoseconds.fmod second).toNat).getD
    Instant.earliest

/-- Servers without contents that listen nowhere. -/
def noServers : Servers where
  redisAt := .socket ""
  redis := { link := Link.sound, keys := [] }
  databaseAt := .socket ""
  database := { link := Link.sound, rows := [] }

/-- Servers that listen where the settings expect them, with messages in the queue. The message that
arrived first stands at the right end. -/
def serversOf (settings : Settings) (messages : List String) : Servers :=
  let queue := Redis.Value.list (messages.reverse.map Redis.encode)
  let endpoint? := (Uri.ofText? settings.redis.connectionUrl).bind Endpoint.ofRedisUri?
  { noServers with
    redisAt := endpoint?.getD noServers.redisAt
    redis := { link := Link.sound, keys := [(settings.intake.queue, queue)] }
    databaseAt := settings.stateStore.database?.elim noServers.databaseAt fun d =>
      .port d.host d.port }

/-- The lines that show what the servers hold. -/
def contents (servers : Servers) : List String :=
  let documents := servers.redis.keys.filterMap fun (key, value) =>
    match value with
    | .string bytes => some (key ++ " " ++ Text.shown bytes.toList)
    | .list _ => none
  documents ++ servers.database.rows.map fun (device, row) => device ++ " " ++ Json.render row

end TriggerWatch.Command

open TriggerWatch Command in
/-- Run the service on the lines of standard input. -/
def main : IO UInt32 := do
  let env ← environment
  let messages ← lines (← IO.getStdin) []
  let now ← wallClock
  let servers := match Settings.ofEnvironment env with
    | .ok settings => serversOf settings messages
    | .error _ => noServers
  let (ending, servers) := Service.run env Notifier.silent (fun _ => ⟨now, now⟩) servers
  for line in contents servers do
    IO.println line
  unless ending.report.isEmpty do
    IO.eprintln ending.report
  return UInt32.ofNat ending.status
