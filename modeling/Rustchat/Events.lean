import Rustchat.Lib.Json
import Rustchat.MmId

/-!
# Websocket events (`realtime/events.rs`)

The envelope every part of the server hands to the hub: an event name, a payload and the target of
the broadcast.
-/

namespace Rustchat

structure WsBroadcast where
  channelId : Option Uuid
  teamId : Option Uuid
  userId : Option Uuid
  excludeUserId : Option Uuid
deriving DecidableEq

structure WsEnvelope where
  msgType : String
  event : String
  seq : Option UInt64
  channelId : Option Uuid
  data : Json
  broadcast : Option WsBroadcast
deriving DecidableEq

inductive EventType where
  | messageCreated
  | messageUpdated
  | messageDeleted
  | threadReplyCreated
  | threadReplyUpdated
  | threadReplyDeleted
  | threadUpdated
  | reactionAdded
  | reactionRemoved
  | userTyping
  | userTypingStop
  | channelCreated
  | channelUpdated
  | channelDeleted
  | channelViewed
  | channelUnread
  | postUnread
  | memberAdded
  | memberRemoved
  | userUpdated
  | userPresence
  | ephemeralMessage
  | callSignal
  | configUpdated
  | unreadCountsUpdated
  | activityCreated
  | activityRead
  | channelSubscribed
  | channelUnsubscribed
  | receivedGroup
  | receivedGroupAssociatedToTeam
  | receivedGroupNotAssociatedToTeam
  | receivedGroupAssociatedToChannel
  | receivedGroupNotAssociatedToChannel
  | groupMemberAdd
  | groupMemberDeleted
  | error
  | hello
deriving DecidableEq

def EventType.asStr : EventType → String
  | messageCreated => "posted"
  | messageUpdated => "post_edited"
  | messageDeleted => "post_deleted"
  | threadReplyCreated => "thread_reply_created"
  | threadReplyUpdated => "thread_reply_updated"
  | threadReplyDeleted => "thread_reply_deleted"
  | threadUpdated => "thread_updated"
  | reactionAdded => "reaction_added"
  | reactionRemoved => "reaction_removed"
  | userTyping => "typing"
  | userTypingStop => "stop_typing"
  | channelCreated => "channel_created"
  | channelUpdated => "channel_updated"
  | channelDeleted => "channel_deleted"
  | channelViewed => "channel_viewed"
  | channelUnread => "channel_unread"
  | postUnread => "post_unread"
  | memberAdded => "user_added"
  | memberRemoved => "user_removed"
  | userUpdated => "user_updated"
  | userPresence => "status_change"
  | ephemeralMessage => "ephemeral_message"
  | callSignal => "call_signal"
  | configUpdated => "config_updated"
  | unreadCountsUpdated => "unread_counts_updated"
  | activityCreated => "activity_created"
  | activityRead => "activity_read"
  | channelSubscribed => "channel_subscribed"
  | channelUnsubscribed => "channel_unsubscribed"
  | receivedGroup => "received_group"
  | receivedGroupAssociatedToTeam => "received_group_associated_to_team"
  | receivedGroupNotAssociatedToTeam => "received_group_not_associated_to_team"
  | receivedGroupAssociatedToChannel => "received_group_associated_to_channel"
  | receivedGroupNotAssociatedToChannel => "received_group_not_associated_to_channel"
  | groupMemberAdd => "group_member_add"
  | groupMemberDeleted => "group_member_deleted"
  | error => "error"
  | hello => "hello"

namespace WsEnvelope

def new (event : EventType) (data : Json) (channelId : Option Uuid) : WsEnvelope :=
  ⟨"event", event.asStr, none, channelId, data, none⟩

def withBroadcast (env : WsEnvelope) (broadcast : WsBroadcast) : WsEnvelope :=
  { env with broadcast := some broadcast }

end WsEnvelope

/-! ### Errors (`error/mod.rs`) -/

inductive AppError where
  | notFound (message : String)
  | badRequest (message : String)
  | forbidden (message : String)
  | validation (message : String)
  | conflict (message : String)
  | internal (message : String)
  -- a query failed, or `fetch_one` found no row
  | database
deriving DecidableEq

/-! ### Serialization -/

def optUuidJson : Option Uuid → Json
  | some id => .str id.hyphenated
  | none => .null

def WsBroadcast.toJson (b : WsBroadcast) : Json :=
  .obj [("channel_id", optUuidJson b.channelId), ("team_id", optUuidJson b.teamId),
    ("user_id", optUuidJson b.userId), ("exclude_user_id", optUuidJson b.excludeUserId)]

namespace WsEnvelope

-- `seq` and `channel_id` are left out when absent, `broadcast` is written as null
def toJson (env : WsEnvelope) : Json :=
  .obj ([("type", .str env.msgType), ("event", .str env.event)] ++
    (env.seq.map fun n => ("seq", Json.num n.toNat)).toList ++
    (env.channelId.map fun id => ("channel_id", Json.str id.hyphenated)).toList ++
    [("data", env.data), ("broadcast", (env.broadcast.map WsBroadcast.toJson).getD .null)])

/-- The text that the hub hands to every receiver. -/
def serialize (env : WsEnvelope) : String := env.toJson.render

end WsEnvelope

end Rustchat
