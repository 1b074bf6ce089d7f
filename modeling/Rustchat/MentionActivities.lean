import Rustchat.ActivityFeed
import Rustchat.DirectChannels

/-!
# The activities of a message's mentions (`create_post` of `services/posts.rs`, `services/activity.rs`)

`create_post` takes the words behind an `@` one by one: each is looked up as a username, and the user gets an activity
if it is a member of the channel and not the author. The statement that inserts it binds its `ActivityType` under the
name of the Rust type, which no type of the database has, so every insert fails, and the error is dropped.
`MentionActivities.notifiesRight_iff` says for which messages that is right. A word for a group is a username like any
other.
-/

namespace Rustchat

/-- At most `maxLen` characters of a text, the last three of them dots if it has more. -/
def truncateText (text : String) (maxLen : ℕ) : String :=
  if text.length ≤ maxLen then text else String.ofList (text.toList.take (maxLen - 3)) ++ "..."

/-- The types that the migrations create. The column `type` is a `VARCHAR`. -/
def createdTypes : List String := ["channel_type", "email_status", "email_priority"]

/-- The name under which `sqlx` looks for the type of a bound `ActivityType`; the derive gives no `type_name`. -/
def ActivityType.typeName : String := "ActivityType"

/-- A statement is not sent before the types of its values are found, by their names in lower case. -/
def resolveType (name : String) : Except AppError Unit :=
  ensure (createdTypes.any fun type => type.toList == name.toList.map Char.toLower) .database

def createActivity (userId : Uuid) (type : ActivityType) (actorId channelId teamId postId : Uuid) (rootId : Option Uuid)
    (messageText reaction : Option String) (now : Int) : Except AppError Activity :=
  (resolveType ActivityType.typeName).map fun _ =>
    { userId, type, actorId, channelId, teamId, postId, rootId,
      messageText := messageText.map fun message => truncateText message 200
      reaction, read := false, createdAt := now }

def createMentionActivity (mentionedUserId actorId channelId teamId postId : Uuid) (message : String) (now : Int) :
    Except AppError (List Activity) :=
  if mentionedUserId = actorId then .ok []
  else (createActivity mentionedUserId .mention actorId channelId teamId postId none (some message) none now).map fun a => [a]

namespace PostDb

/-- `ensure_dm_membership`: the members when it is done. A user who does not exist ends it. -/
def ensureDmMembership (parseUuid : String → Option Uuid) (db : PostDb) (channelId : Uuid) (channel : DirectChannel) :
    Assoc (Uuid × Uuid) Unit :=
  if channel.deletedAt = none ∧ channel.channelType = .Direct then
    match parseDirectChannelName parseUuid channel.name with
    | some (u1, u2) =>
      if u1 ∉ db.users then db.members
      else if u2 ∉ db.users then Assoc.insertNew (channelId, u1) () db.members
      else Assoc.insertNew (channelId, u2) () (Assoc.insertNew (channelId, u1) () db.members)
    | none => db.members
  else db.members

-- the order in which the database finds users of one name
variable (tie : Uuid ↪ ℕ)

/-- `SELECT id FROM users WHERE username = $1`, of which one row is read. -/
def userNamed (db : PostDb) (username : String) : Option Uuid :=
  (Page.orderBy tie (Assoc.views (fun id user => if user.username = username then some id else none) db.users)).head?

def mentionActivities (db : PostDb) (members : Assoc (Uuid × Uuid) Unit) (teamId userId channelId postId : Uuid)
    (message : String) (now : Int) (mentions : List String) : List Activity :=
  mentions.flatMap fun username => match db.userNamed tie username with
    | some mentionedUserId =>
      if mentionedUserId ≠ userId ∧ (channelId, mentionedUserId) ∈ members then
        -- `let _ =`
        match createMentionActivity mentionedUserId userId channelId teamId postId message now with
        | .ok created => created
        | .error _ => []
      else []
    | none => []

/-- `create_post`, with the activities for the mentions. Every channel has a row, which gives its team. -/
def createPostActivities (codecs : Codecs) (isAlphanumeric : Char → Bool) (channel : Uuid → DirectChannel) (db : PostDb)
    (userId channelId : Uuid) (input : CreatePost) (clientMsgId : Option String) (drawn : Drawn) :
    Except AppError (PostWrite × List WsEnvelope × List Activity) :=
  (db.createPost codecs isAlphanumeric userId channelId input clientMsgId drawn).map fun created =>
    (created.1, created.2, db.mentionActivities tie
      (db.ensureDmMembership codecs.parseUuid channelId (channel channelId)) (channel channelId).teamId userId channelId
      drawn.id input.message drawn.now.toInt (mentionsOf isAlphanumeric input.message))

end PostDb

namespace MentionActivities

/-- The activities for a message with these names. -/
structure NotifiesRight (db : PostDb) (members : Assoc (Uuid × Uuid) Unit) (author channelId : Uuid)
    (mentions : List String) (activities : List Activity) : Prop where
  once : ∀ u, activities.countP (fun a => a.userId = u) ≤ 1
  notAuthor : ∀ a ∈ activities, a.userId ≠ author
  members : ∀ u user, db.users.lookup u = some user → user.username ∈ mentions → (channelId, u) ∈ members → u ≠ author →
    ∃ a ∈ activities, a.userId = u

variable {tie : Uuid ↪ ℕ} {db : PostDb} {members : Assoc (Uuid × Uuid) Unit} {teamId author channelId postId : Uuid}
  {message : String} {now : Int} {mentions : List String}

theorem createActivity_error (userId : Uuid) (type : ActivityType) (actorId : Uuid) (rootId : Option Uuid)
    (messageText reaction : Option String) :
    createActivity userId type actorId channelId teamId postId rootId messageText reaction now = .error .database := by
  have hunknown : ¬ (createdTypes.any fun type => type.toList == ActivityType.typeName.toList.map Char.toLower) = true := by
    decide
  rw [createActivity, resolveType, ensure, if_neg hunknown]
  rfl

theorem mentionActivities_eq :
    db.mentionActivities tie members teamId author channelId postId message now mentions = [] := by
  unfold PostDb.mentionActivities
  refine List.flatMap_eq_nil_iff.2 fun username _ => ?_
  split
  · split
    · next hmay =>
      rw [createMentionActivity, if_neg hmay.1, createActivity_error]
      rfl
    · rfl
  · rfl

/-- A post notifies every mentioned member exactly if it mentions none but its author. -/
theorem notifiesRight_iff (tie : Uuid ↪ ℕ) (codecs : Codecs) (isAlphanumeric : Char → Bool)
    (channel : Uuid → DirectChannel) (db : PostDb) (author channelId : Uuid) (input : CreatePost)
    (clientMsgId : Option String) (drawn : Drawn) (created : PostWrite × List WsEnvelope × List Activity)
    (hcreated : db.createPostActivities tie codecs isAlphanumeric channel author channelId input clientMsgId drawn =
      .ok created) :
    let members := db.ensureDmMembership codecs.parseUuid channelId (channel channelId)
    let mentions := mentionsOf isAlphanumeric input.message
    NotifiesRight db members author channelId mentions created.2.2 ↔
      ∀ u user, db.users.lookup u = some user → user.username ∈ mentions → (channelId, u) ∈ members → u = author := by
  rw [PostDb.createPostActivities, map_eq_ok] at hcreated
  obtain ⟨created, -, rfl⟩ := hcreated
  dsimp only
  rw [mentionActivities_eq]
  constructor
  · intro h u user huser hmention hmember
    by_contra hauthor
    obtain ⟨a, ha, -⟩ := h.members u user huser hmention hmember hauthor
    cases ha
  · intro h
    exact ⟨fun _ => Nat.zero_le 1, nofun, fun u user huser hmention hmember hauthor =>
      absurd (h u user huser hmention hmember) hauthor⟩

/-- Ann and Bob, who is in her channel if they share it. -/
def annAndBob (shared : Bool) : PostDb :=
  { ThreadRun.onePost with
    users := AList.insert 3 ⟨"member", "bob", none⟩ ThreadRun.onePost.users
    members := if shared then AList.insert (5, 3) () ThreadRun.onePost.members else ThreadRun.onePost.members }

def town : DirectChannel := ⟨1, .Public, "town", none, none, none, false, none, 0, none⟩

/-- Ann names herself and Bob, who is elsewhere. -/
theorem nobody_notified : ∃ created, (annAndBob false).createPostActivities Uuid.number ThreadRun.plainCodecs Char.isAlphanum
    (fun _ => town) 2 5 ⟨"@ann and @bob, @ann", none, none, [], none⟩ none ⟨8, 1, 1⟩ = .ok created ∧
      NotifiesRight (annAndBob false) (annAndBob false).members 2 5 (mentionsOf Char.isAlphanum "@ann and @bob, @ann")
        created.2.2 := by
  refine ⟨_, rfl, (notifiesRight_iff Uuid.number ThreadRun.plainCodecs Char.isAlphanum (fun _ => town) (annAndBob false) 2 5
    ⟨"@ann and @bob, @ann", none, none, [], none⟩ none ⟨8, 1, 1⟩ _ rfl).2 fun u user _ _ hmember => ?_⟩
  rcases (AList.mem_insert _).1 hmember with heq | hmember
  · exact congrArg Prod.snd heq
  · cases hmember

/-- Bob is a member and named once, and gets no activity. -/
theorem bob_not_notified : ∃ created, (annAndBob true).createPostActivities Uuid.number ThreadRun.plainCodecs Char.isAlphanum
    (fun _ => town) 2 5 ⟨"hello @bob", none, none, [], none⟩ none ⟨8, 1, 1⟩ = .ok created ∧
      ¬ NotifiesRight (annAndBob true) (annAndBob true).members 2 5 (mentionsOf Char.isAlphanum "hello @bob") created.2.2 := by
  refine ⟨_, rfl, fun h => ?_⟩
  obtain ⟨a, ha, -⟩ := h.members 3 ⟨"member", "bob", none⟩ rfl (by decide) (by decide) (by decide)
  rw [mentionActivities_eq] at ha
  cases ha

end MentionActivities
end Rustchat
