import Rustchat.Lib.Json
import Rustchat.MmId

/-!
# Mattermost wire models (`mattermost_compat/models.rs`)

The records that reach Mattermost clients, with the JSON text serde gives them. Ids are texts here.
-/

namespace Rustchat

structure MmPost where
  id : String
  createAt : Int
  updateAt : Int
  deleteAt : Int
  editAt : Int
  userId : String
  channelId : String
  rootId : String
  originalId : String
  message : String
  postType : String
  props : Json
  hashtags : String
  fileIds : List String
  pendingPostId : String
  -- left out of the text when absent
  metadata : Option Json
deriving DecidableEq

def MmPost.toJson (p : MmPost) : Json :=
  .obj ([("id", .str p.id), ("create_at", .num p.createAt), ("update_at", .num p.updateAt),
    ("delete_at", .num p.deleteAt), ("edit_at", .num p.editAt), ("user_id", .str p.userId),
    ("channel_id", .str p.channelId), ("root_id", .str p.rootId), ("original_id", .str p.originalId),
    ("message", .str p.message), ("type", .str p.postType), ("props", p.props),
    ("hashtags", .str p.hashtags), ("file_ids", .arr (p.fileIds.map Json.str)),
    ("pending_post_id", .str p.pendingPostId)] ++ (p.metadata.map fun m => ("metadata", m)).toList)

theorem MmPost.get?_toJson {p : MmPost} {key : String} (h : key ≠ "metadata") :
    p.toJson.get? key = List.lookup key [("id", .str p.id), ("create_at", .num p.createAt),
      ("update_at", .num p.updateAt), ("delete_at", .num p.deleteAt), ("edit_at", .num p.editAt),
      ("user_id", .str p.userId), ("channel_id", .str p.channelId), ("root_id", .str p.rootId),
      ("original_id", .str p.originalId), ("message", .str p.message), ("type", .str p.postType),
      ("props", p.props), ("hashtags", .str p.hashtags), ("file_ids", .arr (p.fileIds.map Json.str)),
      ("pending_post_id", .str p.pendingPostId)] := by
  have hmeta : (p.metadata.map fun m => ("metadata", m)).toList.lookup key = none := by
    cases p.metadata with
    | none => rfl
    | some m => exact List.lookup_eq_none_iff.2 fun f hf => by simp_all
  rw [MmPost.toJson, Json.get?_obj, List.lookup_append, hmeta, Option.or_none]

theorem MmPost.get?_metadata {p : MmPost} : p.toJson.get? "metadata" = p.metadata := by
  rw [MmPost.toJson, Json.get?_obj, List.lookup_append]
  cases p.metadata with
  | none => simp [List.lookup_cons, List.lookup_nil]
  | some m => simp [List.lookup_cons, List.lookup_nil]

structure ChannelUnreadAt where
  teamId : String
  userId : String
  channelId : String
  msgCount : Int
  mentionCount : Int
  mentionCountRoot : Int
  urgentMentionCount : Int
  msgCountRoot : Int
  lastViewedAt : Int
deriving DecidableEq

structure MmBroadcast where
  omitUsers : Option Json
  userId : String
  channelId : String
  teamId : String
deriving DecidableEq

def MmBroadcast.toJson (b : MmBroadcast) : Json :=
  .obj [("omit_users", b.omitUsers.getD .null), ("user_id", .str b.userId),
    ("channel_id", .str b.channelId), ("team_id", .str b.teamId)]

structure WebSocketMessage where
  seq : Option Int
  event : String
  data : Json
  broadcast : MmBroadcast
deriving DecidableEq

def WebSocketMessage.toJson (m : WebSocketMessage) : Json :=
  .obj ((m.seq.map fun n => ("seq", Json.num n)).toList ++
    [("event", .str m.event), ("data", m.data), ("broadcast", m.broadcast.toJson)])

end Rustchat
