import Rustchat.Lib.Cascade
import Rustchat.Posts

/-!
# The retention job (`jobs/retention.rs`)

`run_retention_cleanup` deletes the posts that are older than the cutoff and not pinned, and then the old files. With a
post go its replies, whatever their time and pins: a run keeps the pinned posts and those from the cutoff on exactly if
all posts that they hang on are pinned or from the cutoff on (`Retention.keepsProtected_iff`). Of the tables that refer
to `posts` only `files` is modelled.
-/

namespace Rustchat

structure RetentionConfig where
  messageRetentionDays : Int
  fileRetentionDays : Int

structure RetentionStats where
  messagesDeleted : ℕ
  filesDeleted : ℕ
  fileKeys : List String

structure StoredFile where
  s3Key : String
  postId : Option Uuid
  createdAt : Int

structure RetentionDb where
  posts : Assoc Uuid Post
  files : Assoc Uuid StoredFile
  -- `posts.root_post_id` and `files.post_id` refer to `posts`
  roots_exist : Cascade.Closed Post.rootPostId posts
  posts_exist : ∀ id file r, files.lookup id = some file → file.postId = some r → r ∈ posts

namespace RetentionDb

/-- The posts that a condition selects and what hangs on them (`ON DELETE CASCADE`); a file of one stays without its
post (`ON DELETE SET NULL`). -/
def deletePosts (db : RetentionDb) (p : Post → Bool) : RetentionDb :=
  let posts := Cascade.delete Post.rootPostId (fun _ => p) db.posts
  { posts
    files := Assoc.mapValues (fun file => { file with postId := file.postId.filter (· ∈ posts) }) db.files
    roots_exist := Cascade.closed_delete
    posts_exist := by
      intro id file r hfile hr
      rw [Assoc.lookup_mapValues, Option.map_eq_some_iff] at hfile
      obtain ⟨file', -, rfl⟩ := hfile
      exact of_decide_eq_true (Option.filter_eq_some_iff.1 hr).2 }

def deleteFiles (db : RetentionDb) (p : StoredFile → Bool) : RetentionDb :=
  { db with
    files := Assoc.eraseWhere (fun id => (db.files.lookup id).any p) db.files
    posts_exist := by
      intro id file r hfile hr
      rw [Assoc.lookup_eraseWhere] at hfile
      split at hfile
      · cases hfile
      · exact db.posts_exist id file r hfile hr }

end RetentionDb

namespace Retention

/-! ### The job -/

/-- Microseconds. -/
def day : Int := 86400000000

/-- The first time that a `TIMESTAMPTZ` holds, 4714-11-24 BC. -/
def minTimestamp : Int := -210866803200000000

/-- `Utc::now() - Duration::days(days)`. Before `minTimestamp` the query fails, and further back the subtraction
panics. -/
def cutoff (now days : Int) : Option Int :=
  if minTimestamp ≤ now - days * day then some (now - days * day) else none

def oldMessage (cutoff : Int) (post : Post) : Bool := decide (post.createdAt < cutoff) && !post.isPinned

def cleanMessages (now days : Int) (db : RetentionDb) : Option (RetentionDb × ℕ) :=
  if 0 < days then (cutoff now days).map fun c =>
    -- `rows_affected` does not count the replies that go with their root
    (db.deletePosts (oldMessage c),
      (Assoc.views (fun id post => if oldMessage c post then some id else none) db.posts).length)
  else some (db, 0)

def cleanFiles (now days : Int) (db : RetentionDb) : Option (RetentionDb × List String) :=
  if 0 < days then (cutoff now days).map fun c =>
    (db.deleteFiles fun file => file.createdAt < c,
      Assoc.views (fun _ file => if file.createdAt < c then some file.s3Key else none) db.files)
  else some (db, [])

/-- A run that reads the clock at `now`, and once more at `later`. -/
def runRetentionCleanup (now later : Int) (config : RetentionConfig) (db : RetentionDb) :
    RetentionDb × Option RetentionStats :=
  match cleanMessages now config.messageRetentionDays db with
  | none => (db, none)
  | some (db, messagesDeleted) =>
    match cleanFiles later config.fileRetentionDays db with
    | none => (db, none)
    | some (db, fileKeys) => (db, some ⟨messagesDeleted, fileKeys.length, fileKeys⟩)

/-! ### What it keeps -/

/-- Pinned, or created at or after the cutoff. -/
def Protected (cutoff : Int) (post : Post) : Prop := post.isPinned = true ∨ cutoff ≤ post.createdAt

def KeepsProtected (now later : Int) (config : RetentionConfig) (db : RetentionDb) : Prop :=
  ∀ id post, db.posts.lookup id = some post → Protected (now - config.messageRetentionDays * day) post →
    (runRetentionCleanup now later config db).1.posts.lookup id = some post

variable {now later days : Int} {config : RetentionConfig} {db db' : RetentionDb}

theorem oldMessage_eq_false {c : Int} {post : Post} : oldMessage c post = false ↔ Protected c post := by
  rw [oldMessage, Bool.and_eq_false_iff, decide_eq_false_iff_not, not_lt, Bool.not_eq_false', or_comm]
  rfl

theorem posts_cleanFiles {keys : List String} (h : cleanFiles now days db = some (db', keys)) :
    db'.posts = db.posts := by
  unfold cleanFiles at h
  split at h
  · obtain ⟨c, -, hdb⟩ := Option.map_eq_some_iff.1 h
    rw [← (Prod.mk.inj hdb).1]
    rfl
  · rw [(Prod.mk.inj (Option.some.inj h)).1]

theorem posts_run : (runRetentionCleanup now later config db).1.posts =
    ((cleanMessages now config.messageRetentionDays db).elim db Prod.fst).posts := by
  unfold runRetentionCleanup
  split
  · next h => rw [h, Option.elim_none]
  · next db' n h =>
    rw [h, Option.elim_some]
    split
    · rfl
    · next hfiles => exact posts_cleanFiles hfiles

theorem posts_run_of_cutoff (hdays : 0 < config.messageRetentionDays)
    (hmin : minTimestamp ≤ now - config.messageRetentionDays * day) :
    (runRetentionCleanup now later config db).1.posts = Cascade.delete Post.rootPostId
      (fun _ => oldMessage (now - config.messageRetentionDays * day)) db.posts := by
  rw [posts_run, cleanMessages, if_pos hdays, cutoff, if_pos hmin]
  rfl

theorem posts_run_of_no_cutoff
    (h : ¬ (0 < config.messageRetentionDays ∧ minTimestamp ≤ now - config.messageRetentionDays * day)) :
    (runRetentionCleanup now later config db).1.posts = db.posts := by
  rw [posts_run, cleanMessages]
  by_cases hdays : 0 < config.messageRetentionDays
  · rw [if_pos hdays, cutoff, if_neg fun hmin => h ⟨hdays, hmin⟩]
    rfl
  · rw [if_neg hdays]
    rfl

/-- A run keeps every protected post exactly if it has no cutoff, or if all posts that a protected one hangs on are
protected. -/
theorem keepsProtected_iff (now later : Int) (config : RetentionConfig) (db : RetentionDb) :
    KeepsProtected now later config db ↔
      (0 < config.messageRetentionDays ∧ minTimestamp ≤ now - config.messageRetentionDays * day →
        ∀ id post, db.posts.lookup id = some post → Protected (now - config.messageRetentionDays * day) post →
          ∀ r root, Cascade.Hangs Post.rootPostId db.posts id r → db.posts.lookup r = some root →
            Protected (now - config.messageRetentionDays * day) root) := by
  by_cases hcutoff : 0 < config.messageRetentionDays ∧ minTimestamp ≤ now - config.messageRetentionDays * day
  · rw [imp_iff_right hcutoff]
    refine forall_congr' fun id => forall_congr' fun post => imp_congr_right fun hpost => imp_congr_right fun _ => ?_
    rw [posts_run_of_cutoff hcutoff.1 hcutoff.2, Cascade.lookup_delete_iff db.roots_exist, and_iff_right hpost]
    simp only [oldMessage_eq_false]
  · refine iff_of_true (fun id post hpost _ => ?_) fun h => absurd h hcutoff
    rw [posts_run_of_no_cutoff hcutoff]
    exact hpost

/-- A post of the first day, and a reply that is pinned. -/
def pinnedReply : RetentionDb where
  posts := ((∅ : Assoc Uuid Post).insert 7 ⟨5, 2, none, "a", .obj [], [], false, 0, none, none, 1, none, 0⟩).insert 8
    ⟨5, 2, some 7, "b", .obj [], [], true, 1, none, none, 0, none, 1⟩
  files := ∅
  roots_exist := by
    rintro id post r hpost hr
    rcases Assoc.lookup_insert_cases hpost with ⟨-, rfl⟩ | ⟨-, hpost⟩
    · rw [← Option.some.inj hr]
      decide
    · rcases Assoc.lookup_insert_cases hpost with ⟨-, rfl⟩ | ⟨-, hpost⟩
      · cases hr
      · cases hpost
  posts_exist _ _ _ hfile := by cases hfile

theorem deletes_pinned_reply : ¬ KeepsProtected (30 * day) (30 * day) ⟨10, 0⟩ pinnedReply := by
  intro h
  have hkept := h 8 ⟨5, 2, some 7, "b", .obj [], [], true, 1, none, none, 0, none, 1⟩ rfl (.inl rfl)
  rw [posts_run_of_cutoff (by decide) (by decide)] at hkept
  have hgone : (8 : Uuid) ∉ Cascade.delete Post.rootPostId (fun _ => oldMessage (30 * day - 10 * day))
      pinnedReply.posts := by decide
  exact hgone (AList.lookup_isSome.1 (Option.isSome_iff_exists.2 ⟨_, hkept⟩))

end Retention
end Rustchat
