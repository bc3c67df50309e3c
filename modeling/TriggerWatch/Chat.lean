import TriggerWatch.Json.Basic
import TriggerWatch.Text.Split

/-!
# Chat channels

A device posts to the channel of its group, the part of its name before the first underscore. A
device without a group posts to the default channel. A table of overrides renames channels.

## Main definitions

- `Chat.Routing` — the default channel and the overrides
- `Chat.Routing.channelFor` — the channel of a device
- `Chat.Post` — a message as the chat service takes it
-/

namespace TriggerWatch.Chat

/-- How channels are chosen. -/
structure Routing where
  /-- The channel of devices without a group. -/
  defaultChannel : String
  /-- New names of channels. -/
  overrides : Dict String

/-- The group of a device: the part of its name before the first underscore, unless that is
empty. -/
def group? (device : String) : Option String :=
  match Text.cut? '_' device.toList with
  | some (c :: rest, _) => some (String.ofList (c :: rest))
  | _ => none

/-- The channel of a device. -/
def Routing.channelFor (r : Routing) (device : String) : String :=
  let channel := (group? device).getD r.defaultChannel
  (Dict.get? r.overrides channel).getD channel

/-- A message as the chat service takes it. -/
structure Post where
  /-- The channel, with a number sign in front. -/
  channel : String
  /-- The name under which the message appears. -/
  username : String
  text : String
deriving DecidableEq, Repr

/-- The message posted for a device. -/
def Routing.post (r : Routing) (device text : String) : Post :=
  { channel := "#" ++ r.channelFor device, username := device, text }

/-- The written form of a message. -/
def Post.toJson (p : Post) : Json := Json.ofPairs [
  ("channel", .string p.channel),
  ("username", .string p.username),
  ("text", .string p.text)]

end TriggerWatch.Chat
