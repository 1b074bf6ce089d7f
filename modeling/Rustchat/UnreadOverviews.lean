import Rustchat.UnreadRepair

/-!
# The overview after a pass over the dirty users

The pass computes everything anew for the users who are marked, and leaves the other users what is cached for them. The
overview has the cached count of a channel where there is one that it trusts, and otherwise the number of unread posts.
-/

namespace Rustchat.Unreads

/-- `reconcile_dirty_users_once`: the users come from the keys, in some order. -/
def reconcileDirtyUsersOnce (db : Tables) (pick order : List Uuid → List Uuid) (s : Store) : Store :=
  (pick s.dirty.keys).foldl
    (fun s userId => ((syncUserUnreadCache db.config order userId).run.eval (Store.perform db (.ok ())) s).2) s

/-- The count of a channel that the overview takes from the cache. -/
def Store.served (s : Store) (config : UnreadConfig) (userId channelId : Uuid) : Option Int :=
  let legacyCount : Option Int := s.counts.lookup (.channel userId channelId)
  if config.unreadV2Enabled then
    (s.cachedChannel userId channelId).bind fun tuple =>
      if tuple.version ≠ v2SchemaVersion ∨ ∃ legacy ∈ legacyCount, legacy ≠ tuple.msgCount then none
      else some tuple.msgCount
  else legacyCount

/-- A channel that is not listed has no unread posts. -/
def UnreadOverview.countOf (overview : UnreadOverview) (channelId : Uuid) : Int :=
  (overview.channels.find? fun c => c.channelId = channelId).elim 0 (·.unreadCount)

/-- The rows are the same, and so is what is cached under some of the keys. -/
structure Keeps (kept : CountKey → Prop) (s s' : Store) : Prop where
  posts : s'.posts = s.posts
  reads : s'.reads = s.reads
  count : ∀ key, kept key → s'.counts.lookup key = s.counts.lookup key
  hash : ∀ key, kept key → s'.hash key = s.hash key

section Keeps

variable {db : Tables} {kept kept' : CountKey → Prop} {s s' s'' : Store} {userId channelId : Uuid}

theorem Keeps.refl : Keeps kept s s := ⟨rfl, rfl, fun _ _ => rfl, fun _ _ => rfl⟩

theorem Keeps.trans (h : Keeps kept s s') (h' : Keeps kept s' s'') : Keeps kept s s'' where
  posts := h'.posts.trans h.posts
  reads := h'.reads.trans h.reads
  count key hkey := (h'.count key hkey).trans (h.count key hkey)
  hash key hkey := (h'.hash key hkey).trans (h.hash key hkey)

theorem Keeps.mono (h : Keeps kept s s') (hkept : ∀ key, kept' key → kept key) : Keeps kept' s s' :=
  ⟨h.posts, h.reads, fun key hkey => h.count key (hkept key hkey),
    fun key hkey => h.hash key (hkept key hkey)⟩

theorem Keeps.foldl {γ : Type} {f : Store → γ → Store} {cs : List γ} (h : ∀ c ∈ cs, ∀ s, Keeps kept s (f s c))
    (s : Store) : Keeps kept s (cs.foldl f s) := by
  induction cs generalizing s with
  | nil => exact .refl
  | cons c cs ih =>
    exact (h c List.mem_cons_self s).trans (ih (fun c hc => h c (List.mem_cons_of_mem _ hc)) (f s c))

theorem Keeps.unreadCount (h : Keeps kept s s') :
    s'.unreadCount userId channelId = s.unreadCount userId channelId :=
  unreadCount_congr h.posts h.reads

theorem Keeps.served (h : Keeps kept s s') (hkey : kept (.channel userId channelId)) (config : UnreadConfig) :
    s'.served config userId channelId = s.served config userId channelId := by
  unfold Store.served Store.cachedChannel
  rw [h.count _ hkey, h.hash _ hkey]

theorem Keeps.channelUnread (h : Keeps kept s s') {username : String} :
    db.channelUnread s' userId channelId username = db.channelUnread s userId channelId username := by
  unfold Tables.channelUnread Store.unreadPosts Store.position
  rw [h.posts, h.reads]

end Keeps

section Writes

variable {db : Tables} {s : Store} {key : CountKey} {userId channelId teamId : Uuid} {n : Int}

def Store.writeCount (s : Store) (key : CountKey) (n : Int) : Store :=
  { s with counts := if n ≤ 0 then s.counts.erase key else s.counts.insert key n }

def Store.cache (s : Store) (key : CountKey) (n : Int) (values : List (String × Int)) : Store :=
  (s.writeCount key n).hset key values

theorem eval_writeLegacyCount : (writeLegacyCount key n).run.eval (Store.perform db (.ok ())) s =
    (.ok (), s.writeCount key n) := by
  unfold writeLegacyCount Store.writeCount
  split <;> rfl

theorem keeps_writeCount : Keeps (· ≠ key) s (s.writeCount key n) := by
  refine ⟨rfl, rfl, fun other hother => ?_, fun _ _ => rfl⟩
  unfold Store.writeCount
  dsimp only
  split
  · exact AList.lookup_erase_ne hother
  · exact AList.lookup_insert_ne hother

theorem keeps_hset {values : List (String × Int)} : Keeps (· ≠ key) s (s.hset key values) :=
  ⟨rfl, rfl, fun _ _ => rfl, fun _ hother => hash_hset.trans (if_neg hother)⟩

theorem keeps_cache {values : List (String × Int)} : Keeps (· ≠ key) s (s.cache key n values) :=
  keeps_writeCount.trans keeps_hset

theorem served_of_cache {config : UnreadConfig} {s' : Store} {channel : ChannelUnreadV2}
    (hcount : s'.counts.lookup (.channel userId channelId) = if channel.msgCount ≤ 0 then none else some channel.msgCount)
    (hhash : ∃ hash, s'.hash (.channel userId channelId) =
      channel.values.foldl (fun hash v => hash.insert v.1 v.2) hash) :
    ∀ n ∈ s'.served config userId channelId, n = channel.msgCount := by
  intro n hn
  unfold Store.served at hn
  dsimp only at hn
  split at hn
  · obtain ⟨tuple, htuple, hn⟩ := Option.bind_eq_some_iff.1 hn
    obtain ⟨hash, hhash⟩ := hhash
    split at hn
    · cases hn
    · obtain rfl := Option.some.inj hn
      unfold Store.cachedChannel ChannelUnreadV2.ofValues channelFields at htuple
      split at htuple
      · cases htuple
      · obtain rfl := Option.some.inj htuple
        simp [hhash, ChannelUnreadV2.values, Assoc.lookup_insert_eq]
  · rw [hcount] at hn
    split at hn
    · cases hn
    · exact (Option.some.inj hn).symm

theorem served_cache {config : UnreadConfig} {channel : ChannelUnreadV2} :
    ∀ n ∈ (s.cache (.channel userId channelId) channel.msgCount channel.values).served config userId channelId,
      n = channel.msgCount := by
  refine served_of_cache ?_ ⟨_, hash_hset.trans (if_pos rfl)⟩
  show (s.writeCount _ _).counts.lookup _ = _
  unfold Store.writeCount
  dsimp only
  split
  · exact AList.lookup_erase _ _
  · exact AList.lookup_insert _

theorem eval_fetchUsername : (fetchUsername userId).run.eval (Store.perform db (.ok ())) s =
    (.ok (db.username userId), s) := by
  have hquery : (query (.selectUsername userId)).run.eval (Store.perform db (.ok ())) s =
      (.ok (db.usernames.lookup userId), s) := rfl
  unfold fetchUsername Tables.username
  rw [Prog.eval_run_bind, hquery]
  cases db.usernames.lookup userId <;> rfl

end Writes

/-! ### The pass -/

section Pass

variable {db : Tables} {order pick : List Uuid → List Uuid} {s : Store} {userId channelId teamId : Uuid}

def Store.cacheChannel (db : Tables) (userId : Uuid) (s : Store) (channelId : Uuid) : Store :=
  s.cache (.channel userId channelId) (db.channelFromDb s userId channelId).msgCount
    (db.channelFromDb s userId channelId).values

def Store.cacheTeam (db : Tables) (userId : Uuid) (s : Store) (teamId : Uuid) : Store :=
  s.cache (.team userId teamId) (db.teamFromDb s userId teamId).msgCount (db.teamFromDb s userId teamId).values

def Store.sync (db : Tables) (order : List Uuid → List Uuid) (s : Store) (userId : Uuid) : Store :=
  let channels := db.channelsOf userId
  let s := channels.foldl (fun s channel => s.cacheChannel db userId channel.1) s
  let s := (order (channels.map (·.2)).dedup).foldl (Store.cacheTeam db userId) s
  { s with dirty := s.dirty.erase userId }

theorem channelId_channelFromDb : (db.channelFromDb s userId channelId).channelId = channelId := by
  unfold Tables.channelFromDb
  cases db.channelUnread s userId channelId (db.username userId) <;> rfl

theorem teamId_teamFromDb : (db.teamFromDb s userId teamId).teamId = teamId := by
  unfold Tables.teamFromDb TeamUnreadV2.ofRows
  rw [foldl_addChannel]

theorem eval_syncChannel : (syncChannel db.config userId (db.username userId) channelId).run.eval
    (Store.perform db (.ok ())) s = (.ok (), s.cacheChannel db userId channelId) := by
  have hcompute : (computeChannelUnreadFromDb db.config userId channelId (db.username userId)).run.eval
      (Store.perform db (.ok ())) s = (.ok (db.channelFromDb s userId channelId), s) := rfl
  have hhash : ∀ (channel : ChannelUnreadV2) (s : Store), (writeV2ChannelHash userId channel).run.eval
      (Store.perform db (.ok ())) s = (.ok (), s.hset (.channel userId channel.channelId) channel.values) :=
    fun _ _ => rfl
  unfold syncChannel writeLegacyChannelCount
  rw [Prog.eval_run_bind, hcompute]
  dsimp only
  rw [Prog.eval_run_bind, eval_writeLegacyCount]
  dsimp only
  rw [hhash, channelId_channelFromDb]
  rfl

theorem eval_syncTeam : (syncTeam db.config userId (db.username userId) teamId).run.eval
    (Store.perform db (.ok ())) s = (.ok (), s.cacheTeam db userId teamId) := by
  have hcompute : (computeTeamUnreadFromDb db.config userId teamId (db.username userId)).run.eval
      (Store.perform db (.ok ())) s = (.ok (db.teamFromDb s userId teamId), s) := rfl
  have hhash : ∀ (team : TeamUnreadV2) (s : Store), (writeV2TeamHash userId team).run.eval
      (Store.perform db (.ok ())) s = (.ok (), s.hset (.team userId team.teamId) team.values) :=
    fun _ _ => rfl
  unfold syncTeam writeLegacyTeamCount
  rw [Prog.eval_run_bind, hcompute]
  dsimp only
  rw [Prog.eval_run_bind, eval_writeLegacyCount]
  dsimp only
  rw [hhash, teamId_teamFromDb]
  rfl

theorem eval_syncUserUnreadCache : (syncUserUnreadCache db.config order userId).run.eval (Store.perform db (.ok ())) s =
    (.ok (), s.sync db order userId) := by
  have hchannels : ∀ s, (fetchUserChannels userId).run.eval (Store.perform db (.ok ())) s =
      (.ok (db.channelsOf userId), s) := fun _ => rfl
  have hconnect : ∀ s, (query .connect).run.eval (Store.perform db (.ok ())) s = (.ok (.ok ()), s) :=
    fun _ => rfl
  unfold syncUserUnreadCache
  rw [Prog.eval_run_bind, eval_fetchUsername]
  dsimp only
  rw [Prog.eval_run_bind, hchannels]
  dsimp only
  rw [Prog.eval_run_bind, hconnect]
  dsimp only
  rw [Prog.eval_run_bind, Prog.eval_run_forM (fun channel s => eval_syncChannel)]
  dsimp only
  rw [Prog.eval_run_bind, Prog.eval_run_forM (fun team s => eval_syncTeam)]
  rfl

theorem reconcileDirtyUsersOnce_eq :
    reconcileDirtyUsersOnce db pick order s = (pick s.dirty.keys).foldl (Store.sync db order) s := by
  unfold reconcileDirtyUsersOnce
  congr 1
  funext s userId
  rw [eval_syncUserUnreadCache]

def CountKey.owner : CountKey → Uuid
  | .channel userId _ => userId
  | .team userId _ => userId

theorem keeps_erase : Keeps (fun _ => True) s { s with dirty := s.dirty.erase userId } :=
  ⟨rfl, rfl, fun _ _ => rfl, fun _ _ => rfl⟩

theorem keeps_sync : Keeps (fun key => key.owner ≠ userId) s (s.sync db order userId) := by
  have hchannel : ∀ c : Uuid × Uuid, ∀ s : Store,
      Keeps (fun key => key.owner ≠ userId) s (s.cacheChannel db userId c.1) := by
    refine fun c s => keeps_cache.mono fun key hkey heq => ?_
    subst heq
    exact hkey rfl
  have hteam : ∀ t, ∀ s : Store, Keeps (fun key => key.owner ≠ userId) s (s.cacheTeam db userId t) := by
    refine fun t s => keeps_cache.mono fun key hkey heq => ?_
    subst heq
    exact hkey rfl
  exact ((Keeps.foldl (fun c _ => hchannel c) s).trans (Keeps.foldl (fun t _ => hteam t) _)).trans
    (keeps_erase.mono fun _ _ => trivial)

theorem mem_channelsOf : (channelId, teamId) ∈ db.channelsOf userId ↔
    (channelId, userId) ∈ db.members ∧ db.teams.lookup channelId = some teamId := by
  unfold Tables.channelsOf
  rw [List.mem_filterMap]
  constructor
  · rintro ⟨⟨c, v⟩, hkey, hfound⟩
    split at hfound
    · next hv =>
      obtain ⟨team, hteam, heq⟩ := Option.map_eq_some_iff.1 hfound
      cases heq
      cases hv
      exact ⟨AList.mem_keys.1 hkey, hteam⟩
    · cases hfound
  · rintro ⟨hmember, hteam⟩
    refine ⟨(channelId, userId), AList.mem_keys.2 hmember, ?_⟩
    rw [if_pos rfl, hteam]
    rfl

theorem msgCount_channelFromDb (hmember : (channelId, userId) ∈ db.members) :
    (db.channelFromDb s userId channelId).msgCount = s.unreadCount userId channelId := by
  obtain ⟨member, hlookup⟩ := Option.isSome_iff_exists.1 (AList.lookup_isSome.2 hmember)
  unfold Tables.channelFromDb Tables.channelUnread
  rw [hlookup]
  show count (fun _ => true) (s.unreadPosts userId channelId) = _
  unfold count Store.unreadCount
  simp

def Served (db : Tables) (userId channelId : Uuid) (s : Store) : Prop :=
  ∀ n ∈ s.served db.config userId channelId, n = s.unreadCount userId channelId

theorem Served.keeps {kept : CountKey → Prop} {s' : Store} (h : Served db userId channelId s)
    (hkeeps : Keeps kept s s') (hkey : kept (.channel userId channelId)) : Served db userId channelId s' := by
  unfold Served
  rw [hkeeps.served hkey, hkeeps.unreadCount]
  exact h

theorem served_cacheChannel (hmember : (channelId, userId) ∈ db.members) :
    Served db userId channelId (s.cacheChannel db userId channelId) := by
  intro n hn
  have hkeeps : Keeps (· ≠ .channel userId channelId) s (s.cacheChannel db userId channelId) := keeps_cache
  rw [hkeeps.unreadCount, ← msgCount_channelFromDb hmember]
  exact served_cache n hn

theorem served_foldl_cacheChannel {channels : List (Uuid × Uuid)} (hmember : (channelId, userId) ∈ db.members)
    (h : channelId ∈ channels.map (·.1) ∨ Served db userId channelId s) :
    Served db userId channelId (channels.foldl (fun s channel => s.cacheChannel db userId channel.1) s) := by
  induction channels generalizing s with
  | nil => exact h.resolve_left (by simp)
  | cons channel channels ih =>
    refine ih ?_
    by_cases hc : channel.1 = channelId
    · subst hc
      exact .inr (served_cacheChannel hmember)
    · rcases h with h | h
      · rw [List.map_cons, List.mem_cons] at h
        exact .inl (h.resolve_left (Ne.symm hc))
      · exact .inr (h.keeps keeps_cache fun heq => hc (CountKey.channel.inj heq).2.symm)

theorem served_sync (h : (channelId, teamId) ∈ db.channelsOf userId) :
    Served db userId channelId (s.sync db order userId) := by
  have hchannels := served_foldl_cacheChannel (s := s) (mem_channelsOf.1 h).1
    (.inl (List.mem_map_of_mem (f := Prod.fst) h))
  have hteam : ∀ t, ∀ s : Store, Keeps (fun key => ∃ c, key = .channel userId c) s (s.cacheTeam db userId t) :=
    fun t s => keeps_cache.mono (by rintro _ ⟨c, rfl⟩; nofun)
  exact (hchannels.keeps (Keeps.foldl (fun t _ s => hteam t s) _) ⟨channelId, rfl⟩).keeps keeps_erase trivial

theorem keeps_foldl_sync {users : List Uuid} (h : userId ∉ users) :
    Keeps (fun key => key.owner = userId) s (users.foldl (Store.sync db order) s) := by
  refine Keeps.foldl (fun v hv s => keeps_sync.mono fun key hkey hown => ?_) s
  exact h (hkey ▸ hown ▸ hv)

theorem served_foldl_sync {users : List Uuid} (hmem : (channelId, teamId) ∈ db.channelsOf userId)
    (h : userId ∈ users ∨ Served db userId channelId s) :
    Served db userId channelId (users.foldl (Store.sync db order) s) := by
  induction users generalizing s with
  | nil => exact h.resolve_left (by simp)
  | cons v users ih =>
    refine ih ?_
    by_cases hv : v = userId
    · subst hv
      exact .inr (served_sync hmem)
    · rcases h with h | h
      · exact .inl ((List.mem_cons.1 h).resolve_left (Ne.symm hv))
      · exact .inr (h.keeps keeps_sync (Ne.symm hv))

end Pass

/-! ### The overview -/

section Overview

variable {db : Tables} {s : Store} {userId channelId teamId : Uuid}
    {overview : List ChannelUnreadOverview × Assoc Uuid Int}

def Store.overviewCount (db : Tables) (userId : Uuid) (s : Store) (channelId : Uuid) : Int :=
  (s.served db.config userId channelId).getD (db.channelFromDb s userId channelId).msgCount

def Store.listed (db : Tables) (userId : Uuid) (s : Store) (channel : Uuid × Uuid) :
    Option ChannelUnreadOverview :=
  let count := s.overviewCount db userId channel.1
  if 0 < count then some ⟨channel.1, channel.2, count⟩ else none

def CountKey.Beside (channelId : Uuid) : CountKey → Prop
  | .channel _ c => c ≠ channelId
  | .team _ _ => False

theorem eval_refreshChannel : ∃ s', (refreshChannel db.config userId (db.username userId) channelId teamId).run.eval
    (Store.perform db (.ok ())) s = (.ok (db.channelFromDb s userId channelId).msgCount, s') ∧
      Keeps (CountKey.Beside channelId) s s' := by
  let channel := db.channelFromDb s userId channelId
  let team := db.teamFromDb s userId teamId
  have hc : channel.channelId = channelId := channelId_channelFromDb
  have ht : team.teamId = teamId := teamId_teamFromDb
  have hchannel : (computeChannelUnreadFromDb db.config userId channelId (db.username userId)).run.eval
      (Store.perform db (.ok ())) s = (.ok channel, s) := rfl
  have hteam : (computeTeamUnreadFromDb db.config userId teamId (db.username userId)).run.eval
      (Store.perform db (.ok ())) s = (.ok team, s) := rfl
  let counted := (s.writeCount (.channel userId channelId) channel.msgCount).writeCount (.team userId teamId) team.msgCount
  let written := (counted.hset (.channel userId channelId) channel.values).hset (.team userId teamId) team.values
  have hwrite : (writeUnread userId channel team).run.eval (Store.perform db (.ok ())) s = (.ok (), written) := by
    unfold writeUnread writeLegacyChannelCount writeLegacyTeamCount
    rw [hc, ht, Prog.eval_run_bind, eval_writeLegacyCount]
    dsimp only
    rw [Prog.eval_run_bind, eval_writeLegacyCount]
    show (Except.ok (), Store.hset _ (.team userId team.teamId) team.values) = _
    rw [ht]
    show (Except.ok (), (Store.hset _ (.channel userId channel.channelId) channel.values).hset _ _) = _
    rw [hc]
  have hbeside : ∀ key, CountKey.Beside channelId key →
      key ≠ .channel userId channelId ∧ key ≠ .team userId teamId := by
    rintro (⟨v, c⟩ | ⟨v, t⟩) hkey
    · exact ⟨fun heq => hkey (CountKey.channel.inj heq).2, nofun⟩
    · exact hkey.elim
  have hcounted : Keeps (CountKey.Beside channelId) s counted :=
    (keeps_writeCount.mono fun key hkey => (hbeside key hkey).1).trans
      (keeps_writeCount.mono fun key hkey => (hbeside key hkey).2)
  have hwritten : Keeps (CountKey.Beside channelId) counted written :=
    (keeps_hset.mono fun key hkey => (hbeside key hkey).1).trans (keeps_hset.mono fun key hkey => (hbeside key hkey).2)
  refine ⟨written, ?_, hcounted.trans hwritten⟩
  unfold refreshChannel
  rw [Prog.eval_run_bind, hchannel]
  dsimp only
  rw [Prog.eval_run_bind, hteam]
  dsimp only
  rw [Prog.eval_run_bind, hwrite]
  rfl

theorem eval_overviewCount (db : Tables) (s : Store) (userId channelId teamId : Uuid) : ∃ s',
    (overviewCount db.config userId (db.username userId) channelId teamId).run.eval
    (Store.perform db (.ok ())) s = (.ok (s.overviewCount db userId channelId), s') ∧
      Keeps (CountKey.Beside channelId) s s' := by
  have hlegacy : (query (.get (.channel userId channelId))).run.eval (Store.perform db (.ok ())) s =
      (.ok (s.counts.lookup (.channel userId channelId)), s) := rfl
  have hread : (readV2ChannelHash userId channelId).run.eval (Store.perform db (.ok ())) s =
      (.ok (s.cachedChannel userId channelId), s) := rfl
  unfold overviewCount Store.overviewCount Store.served
  rw [Prog.eval_run_bind, hlegacy]
  dsimp only
  by_cases hv2 : db.config.unreadV2Enabled = true
  · rw [if_pos hv2, if_pos hv2, Prog.eval_run_bind, hread]
    cases s.cachedChannel userId channelId with
    | none => exact eval_refreshChannel
    | some tuple =>
      dsimp only [Option.bind_some]
      by_cases hstale : tuple.version ≠ v2SchemaVersion ∨
          ∃ legacy ∈ s.counts.lookup (.channel userId channelId), legacy ≠ tuple.msgCount
      · rw [if_pos hstale, if_pos hstale]
        exact eval_refreshChannel
      · rw [if_neg hstale, if_neg hstale]
        exact ⟨s, rfl, .refl⟩
  · rw [if_neg hv2, if_neg hv2]
    cases s.counts.lookup (.channel userId channelId) with
    | none => exact eval_refreshChannel
    | some legacy => exact ⟨s, rfl, .refl⟩

theorem Keeps.overviewCount {kept : CountKey → Prop} {s' : Store} (h : Keeps kept s s')
    (hkey : kept (.channel userId channelId)) :
    s'.overviewCount db userId channelId = s.overviewCount db userId channelId := by
  unfold Store.overviewCount Tables.channelFromDb
  rw [h.served hkey, h.channelUnread]

theorem eval_overviewChannels {channels : List (Uuid × Uuid)}
    (overview : List ChannelUnreadOverview × Assoc Uuid Int) (s : Store) (hn : (channels.map (·.1)).Nodup) :
    ∃ overview' s', (channels.foldlM (fun overview channel => do
        let count ← overviewCount db.config userId (db.username userId) channel.1 channel.2
        pure (UnreadOverview.add overview channel.1 channel.2 count)) overview : UnreadProg _).run.eval
          (Store.perform db (.ok ())) s = (.ok overview', s') ∧
      overview'.1 = overview.1 ++ channels.filterMap (s.listed db userId) := by
  induction channels generalizing overview s with
  | nil => exact ⟨overview, s, rfl, (List.append_nil _).symm⟩
  | cons channel channels ih =>
    obtain ⟨hnew, hn⟩ := List.nodup_cons.1 hn
    obtain ⟨s₁, hcount, hkeeps⟩ := eval_overviewCount db s userId channel.1 channel.2
    let added := UnreadOverview.add overview channel.1 channel.2 (s.overviewCount db userId channel.1)
    obtain ⟨overview', s', heval, hlist⟩ := ih added s₁ hn
    refine ⟨overview', s', ?_, ?_⟩
    · rw [List.foldlM_cons, Prog.eval_run_bind, Prog.eval_run_bind, hcount]
      exact heval
    · have hrest : channels.filterMap (s₁.listed db userId) = channels.filterMap (s.listed db userId) := by
        refine List.filterMap_congr fun c hc => ?_
        have hmem : c.1 ∈ channels.map (·.1) := List.mem_map_of_mem hc
        have hne : c.1 ≠ channel.1 := fun heq => hnew (heq.subst (motive := (· ∈ channels.map (·.1))) hmem)
        unfold Store.listed
        rw [hkeeps.overviewCount hne]
      have hfirst : added.1 = overview.1 ++ (s.listed db userId channel).toList := by
        unfold added UnreadOverview.add Store.listed
        dsimp only
        split
        · rfl
        · exact (List.append_nil _).symm
      rw [hlist, hrest, hfirst, List.append_assoc, List.filterMap_cons]
      cases s.listed db userId channel <;> rfl

theorem nodup_channelsOf (db : Tables) (userId : Uuid) : ((db.channelsOf userId).map (·.1)).Nodup := by
  have hkeys : ((db.channelsOf userId).map (·.1)).Sublist
      ((db.members.keys.filter fun k => k.2 = userId).map (·.1)) := by
    unfold Tables.channelsOf
    induction db.members.keys with
    | nil => exact .slnil
    | cons key keys ih =>
      by_cases hv : key.2 = userId
      · rw [List.filterMap_cons, if_pos hv, List.filter_cons_of_pos (by simpa using hv)]
        cases db.teams.lookup key.1 with
        | none => exact ih.cons _
        | some team => exact ih.cons_cons _
      · rw [List.filterMap_cons, if_neg hv, List.filter_cons_of_neg (by simpa using hv)]
        exact ih
  refine hkeys.nodup (List.Nodup.map_on ?_ (db.members.keys_nodup.filter _))
  intro k hk k' hk' heq
  simp only [List.mem_filter, decide_eq_true_eq] at hk hk'
  exact Prod.ext heq (hk.2.trans hk'.2.symm)

theorem find_listed {channels : List (Uuid × Uuid)} (hn : (channels.map (·.1)).Nodup) (hmem : (channelId, teamId) ∈ channels) :
    ((channels.filterMap (s.listed db userId)).find? fun c => c.channelId = channelId) =
      s.listed db userId (channelId, teamId) := by
  have hid : ∀ {channel : Uuid × Uuid} {c : ChannelUnreadOverview}, s.listed db userId channel = some c →
      c.channelId = channel.1 := by
    intro channel c h
    unfold Store.listed at h
    dsimp only at h
    split at h
    · exact (congrArg ChannelUnreadOverview.channelId (Option.some.inj h)).symm
    · cases h
  induction channels with
  | nil => cases hmem
  | cons channel channels ih =>
    obtain ⟨hnew, hn⟩ := List.nodup_cons.1 hn
    by_cases hc : channel.1 = channelId
    · subst hc
      have hchannel : channel = (channel.1, teamId) := by
        refine (List.mem_cons.1 hmem).elim Eq.symm fun h => absurd (List.mem_map_of_mem (f := Prod.fst) h) hnew
      have hrest : ((channels.filterMap (s.listed db userId)).find? fun c => c.channelId = channel.1) = none := by
        refine List.find?_eq_none.2 fun c hc heq => ?_
        obtain ⟨other, hother, hlisted⟩ := List.mem_filterMap.1 hc
        have hmem : other.1 ∈ channels.map (·.1) := List.mem_map_of_mem hother
        have hsame : other.1 = channel.1 := (hid hlisted).symm.trans (of_decide_eq_true heq)
        exact hnew (hsame.subst (motive := (· ∈ channels.map (·.1))) hmem)
      rw [← hchannel, List.filterMap_cons]
      cases hlisted : s.listed db userId channel with
      | none => exact hrest
      | some c => exact List.find?_cons_of_pos (decide_eq_true (hid hlisted))
    · have hmem : (channelId, teamId) ∈ channels :=
        (List.mem_cons.1 hmem).resolve_left fun heq => hc (congrArg Prod.fst heq).symm
      rw [List.filterMap_cons]
      cases hlisted : s.listed db userId channel with
      | none => exact ih hn hmem
      | some c =>
        have hother : ¬ decide (c.channelId = channelId) = true :=
          fun heq => hc ((hid hlisted).symm.trans (of_decide_eq_true heq))
        exact (List.find?_cons_of_neg (p := fun d : ChannelUnreadOverview => d.channelId = channelId) hother).trans (ih hn hmem)

theorem answer_getUnreadOverview (db : Tables) (s : Store) (userId : Uuid) : ∃ overview,
    answer db s (getUnreadOverview db.config userId) = .ok overview ∧
      ∀ channelId teamId, (channelId, teamId) ∈ db.channelsOf userId →
        overview.countOf channelId = max (s.overviewCount db userId channelId) 0 := by
  have hchannels : (fetchUserChannels userId).run.eval (Store.perform db (.ok ())) s =
      (.ok (db.channelsOf userId), s) := rfl
  have hconnect : (query .connect).run.eval (Store.perform db (.ok ())) s = (.ok (.ok ()), s) := rfl
  obtain ⟨overview, s', heval, hlist⟩ := eval_overviewChannels ([], ∅) s
    (nodup_channelsOf db userId)
  refine ⟨⟨overview.1, Page.orderBy (·.teamId.toNat) (overview.2.entries.map fun e => ⟨e.1, e.2⟩)⟩, ?_, ?_⟩
  · unfold answer getUnreadOverview
    rw [Prog.eval_run_bind, hchannels]
    dsimp only
    rw [Prog.eval_run_bind, eval_fetchUsername]
    dsimp only
    rw [Prog.eval_run_bind, hconnect]
    dsimp only
    rw [Prog.eval_run_bind, heval]
    rfl
  · intro channelId teamId hmem
    unfold UnreadOverview.countOf
    rw [hlist, List.nil_append, find_listed (nodup_channelsOf db userId) hmem]
    unfold Store.listed
    dsimp only
    split
    · next hpos => exact (max_eq_left hpos.le).symm
    · next hpos => exact (max_eq_right (not_lt.1 hpos)).symm

end Overview

end Rustchat.Unreads
