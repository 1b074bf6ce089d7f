import Rustchat.DirectChannels

/-!
# One direct channel for two users

Names are unique in a team, and each request looks for the channel in a team and inserts it there. As long as all
channels that are inserted for two users are in one team, they have one direct channel, and all requests that succeed
return it (`DirectRuns.unique_of_oneTeam`). The team is the one of the request, or the oldest one of its caller.
-/

namespace Rustchat.DirectRuns

open DirectEnv Prog

/-- A request for the direct channel of `a` and `b`. -/
def Between (env : DirectEnv) (a b : Uuid) : DirectRequest → Prop
  | .v4 _ userIds _ => (userIds.filterMap env.parse).Perm [a, b]
  | .native userId input _ => ∃ targetId, input.targetUserId = some targetId ∧ [userId, targetId].Perm [a, b]

abbrev DirectTo (env : DirectEnv) (a b : Uuid) : Type := {req : DirectRequest // Between env a b req}

abbrev DirectPool (env : DirectEnv) (a b : Uuid) : Type :=
  Pool DirectDb (DirectTo env a b) DirectAct DirectAct.Res (Except AppError (Uuid × DirectChannel))

abbrev DirectInput (env : DirectEnv) (a b : Uuid) : Type := Pool.Input (DirectTo env a b) Bool

def step (env : DirectEnv) (a b : Uuid) : DirectPool env a b → DirectInput env a b → Option (DirectPool env a b) :=
  Pool.step (fun req => (env.program req.1).run) fun _ => DirectDb.sem env.tie

/-- A direct channel of `a` and `b`. -/
def IsDirect (a b : Uuid) (row : DirectChannel) : Prop :=
  row.channelType = .Direct ∧ (row.name = canonicalDirectChannelName a b ∨ row.name = legacyDirectChannelName a b)

/-- All requests that succeeded returned one channel, and there is at most one direct channel. -/
structure Unique {env : DirectEnv} {a b : Uuid} (pool : DirectPool env a b) : Prop where
  returned : ∀ t t' channel channel', pool.result t = some (.ok channel) → pool.result t' = some (.ok channel') →
    channel.1 = channel'.1
  stored : ∀ c c' row row', pool.shared.channels.lookup c = some row → pool.shared.channels.lookup c' = some row' →
    IsDirect a b row → IsDirect a b row' → c = c'

/-- The two users have at most one direct channel; it is in the team `team`, and not deleted if its name is a legacy
name. -/
structure AtMostOne (a b team : Uuid) (db : DirectDb) : Prop where
  one : ∀ c c' row row', db.channels.lookup c = some row → db.channels.lookup c' = some row' → IsDirect a b row →
    IsDirect a b row' → c = c'
  team : ∀ c row, db.channels.lookup c = some row → IsDirect a b row → row.teamId = team
  kept : ∀ c row, db.channels.lookup c = some row → IsDirect a b row → row.name = legacyDirectChannelName a b →
    row.deletedAt = none

/-- Channels are inserted into the team `team` only. -/
def InsertsInto (team : Uuid) : DirectAct → Prop
  | .insertChannel _ row | .upsertChannel _ row => row.teamId = team
  | .selectAcl _ _ | .selectTeam _ | .selectDisplayName _ | .selectTeamMember _ _ | .selectTeammateName _ _
  | .selectChannel _ | .findDirect _ _ _ _ | .insertMember _ _ => True

instance (team : Uuid) : DecidablePred (InsertsInto team)
  | .insertChannel _ row | .upsertChannel _ row => inferInstanceAs (Decidable (row.teamId = team))
  | .selectAcl _ _ | .selectTeam _ | .selectDisplayName _ | .selectTeamMember _ _ | .selectTeammateName _ _
  | .selectChannel _ | .findDirect _ _ _ _ | .insertMember _ _ => inferInstanceAs (Decidable True)

def OneTeam (team : Uuid) {env : DirectEnv} {a b : Uuid} (pool : DirectPool env a b) : DirectInput env a b → Prop
  | .spawn _ _ => True
  | .step t reached => reached = true → ∀ act ∈ pool.upcoming t, InsertsInto team act

instance (team : Uuid) {env : DirectEnv} {a b : Uuid} (pool : DirectPool env a b) :
    DecidablePred (OneTeam team pool)
  | .spawn _ _ => inferInstanceAs (Decidable True)
  | .step t reached => inferInstanceAs (Decidable (reached = true → ∀ act ∈ pool.upcoming t, InsertsInto team act))

theorem sortUserIds_comm (a b : Uuid) : sortUserIds b a = sortUserIds a b := by
  unfold sortUserIds
  by_cases hab : a ≤ b
  · by_cases hba : b ≤ a
    · rw [if_pos hab, if_pos hba, BitVec.le_antisymm hab hba]
    · rw [if_pos hab, if_neg hba]
  · have hba : b ≤ a := (BitVec.le_total a b).resolve_left hab
    rw [if_neg hab, if_pos hba]

theorem sortUserIds_of_perm {a b c d : Uuid} (h : [c, d].Perm [a, b]) : sortUserIds c d = sortUserIds a b := by
  rcases List.mem_pair.1 (h.mem_iff.1 List.mem_cons_self) with rfl | rfl
  · rw [List.singleton_inj.1 (List.perm_singleton.1 (List.Perm.cons_inv h))]
  · have hd : [d].Perm [a] := (h.trans (List.Perm.swap c a [])).cons_inv
    rw [List.singleton_inj.1 (List.perm_singleton.1 hd), sortUserIds_comm]

theorem names_of_perm {a b c d : Uuid} (h : [c, d].Perm [a, b]) :
    canonicalDirectChannelName c d = canonicalDirectChannelName a b ∧
      legacyDirectChannelName c d = legacyDirectChannelName a b := by
  unfold canonicalDirectChannelName legacyDirectChannelName
  rw [sortUserIds_of_perm h]
  exact ⟨rfl, rfl⟩

/-- A request has not looked for the channel yet, has found none in a team, or has the channel. -/
inductive Found where
  | idle
  | missed (teamId : Uuid)
  | got (channelId : Uuid)

def MayDo (a b : Uuid) : Found → DirectAct → Prop
  | .idle, .findDirect _ name legacyName _ =>
    name = canonicalDirectChannelName a b ∧ legacyName = legacyDirectChannelName a b
  | .missed teamId, .insertChannel _ row | .missed teamId, .upsertChannel _ row =>
    row.teamId = teamId ∧ row.channelType = .Direct ∧ row.name = canonicalDirectChannelName a b
  | _, .findDirect _ _ _ _ | _, .insertChannel _ _ | _, .upsertChannel _ _ => False
  | _, _ => True

def Found.next : Found → (act : DirectAct) → act.Res → Found
  | .idle, .findDirect _ _ _ _, .ok (some (channel : Uuid × DirectChannel)) => .got channel.1
  | .idle, .findDirect teamId _ _ _, .ok none => .missed teamId
  | .missed _, .insertChannel _ _, .ok (channel : Uuid × DirectChannel) => .got channel.1
  | .missed _, .upsertChannel _ _, .ok (channel : Uuid × DirectChannel) => .got channel.1
  | g, _, _ => g

section Requests

variable {env : DirectEnv} {a b : Uuid} {g : Found} {α β : Type}

/-- A part of a request goes on as its progress allows, and ends in `post`. -/
abbrev Goes (a b : Uuid) (p : DirectProg α) (post : α → Found → Prop) (g : Found) : Prop :=
  Heeds (fun g act => MayDo a b g act) Found.next p post g

def Returns (channel : Uuid × DirectChannel) (g : Found) : Prop := g = .got channel.1

theorem goes_ask {act : DirectAct} {f : act.Row → DirectProg β} {post : β → Found → Prop} (h : MayDo a b g act)
    (hf : ∀ r, Goes a b (f r) post (g.next act (.ok r))) : Goes a b (ask act >>= f) post g := by
  refine ⟨h, fun r => ?_⟩
  cases r with
  | ok r => exact hf r
  | error e => exact fun _ he => by cases he

theorem goes_orThrow {o : Option α} {e : AppError} {f : α → DirectProg β} {post : β → Found → Prop}
    (hf : ∀ r ∈ o, Goes a b (f r) post g) : Goes a b (orThrow o e >>= f) post g := by
  cases o with
  | none => exact heeds_throw e
  | some r => exact hf r rfl

/-- A part of a request that changes no channel, and may fail. -/
abbrev Stays (a b : Uuid) (p : DirectProg α) (g : Found) : Prop :=
  p.run.Ghost (fun g act => MayDo a b g act) Found.next (fun _ g' => g' = g) g

theorem stays_ask {act : DirectAct} {f : act.Row → DirectProg β} (h : MayDo a b g act)
    (hnext : ∀ r, g.next act r = g) (hf : ∀ r, Stays a b (f r) g) : Stays a b (ask act >>= f) g := by
  refine ⟨h, fun r => ?_⟩
  rw [hnext r]
  cases r with
  | ok r => exact hf r
  | error e => exact rfl

theorem mayDo_insertMember {channelId userId : Uuid} : MayDo a b g (.insertMember channelId userId) := by
  cases g <;> trivial

theorem next_insertMember {channelId userId : Uuid} (r : (DirectAct.insertMember channelId userId).Res) :
    g.next (.insertMember channelId userId) r = g := by
  cases g <;> rfl

theorem addMembers_cons {channelId userId : Uuid} {userIds : List Uuid} : addMembers channelId (userId :: userIds) =
    ask (.insertMember channelId userId) >>= fun _ => addMembers channelId userIds := by
  show (ask (.insertMember channelId userId) >>= fun _ => pure PUnit.unit) >>= (fun _ => addMembers channelId userIds) = _
  rw [bind_assoc]
  rfl

theorem stays_addMembers {channelId : Uuid} {userIds : List Uuid} : Stays a b (addMembers channelId userIds) g := by
  induction userIds with
  | nil => exact rfl
  | cons userId userIds ih =>
    rw [addMembers_cons]
    exact stays_ask mayDo_insertMember next_insertMember fun _ => ih

theorem goes_of_stays {p : DirectProg α} {f : α → DirectProg β} {post : β → Found → Prop} (h : Stays a b p g)
    (hf : ∀ r, Goes a b (f r) post g) : Goes a b (p >>= f) post g := by
  have hp : Goes a b p (fun _ g' => g' = g) g := Ghost.mono h fun _ _ hg _ _ => hg
  refine hp.bind ?_
  rintro r g' rfl
  exact hf r

theorem goes_lift_of_stays {p : DirectProg α} {f : Except AppError α → DirectProg β} {post : β → Found → Prop}
    (h : Stays a b p g) (hf : ∀ r, Goes a b (f r) post g) : Goes a b (ExceptT.lift p.run >>= f) post g := by
  have hrun : (ExceptT.lift p.run >>= f).run = p.run >>= fun r => (f r).run := ExceptT.run_bind_lift _ _
  unfold Goes Heeds
  rw [hrun, ghost_bind]
  refine h.mono ?_
  rintro r g' rfl
  exact hf r

theorem goes_addMembers {channelId : Uuid} {userIds : List Uuid} {f : PUnit → DirectProg β} {post : β → Found → Prop}
    (hf : Goes a b (f ⟨⟩) post g) : Goes a b (addMembers channelId userIds >>= f) post g :=
  goes_of_stays stays_addMembers fun _ => hf

theorem stays_ensureDmMembership {channelId c : Uuid} : Stays a b (env.ensureDmMembership channelId) (.got c) := by
  unfold ensureDmMembership
  refine stays_ask trivial (fun _ => rfl) fun found => ?_
  cases (found : Option DirectChannel) with
  | none => exact rfl
  | some channel =>
    show Stays a b (if channel.channelType = .Direct then _ else _) _
    split
    · split
      · exact stays_addMembers
      · exact rfl
    · exact rfl

theorem goes_hydrate {viewerId : Uuid} {channel : Uuid × DirectChannel} :
    Goes a b (hydrateDirectChannelDisplayName viewerId channel) Returns (.got channel.1) := by
  unfold hydrateDirectChannelDisplayName
  split
  · exact heeds_pure rfl
  · exact goes_ask trivial fun _ => heeds_pure rfl

theorem goes_enforceDmAcl {userA userB : Uuid} {f : Unit → DirectProg β} {post : β → Found → Prop}
    (hf : Goes a b (f ()) post .idle) : Goes a b (env.enforceDmAclForUsers userA userB >>= f) post .idle := by
  have hacl : Goes a b (env.enforceDmAclForUsers userA userB) (fun _ g' => g' = .idle) .idle := by
    unfold enforceDmAclForUsers
    split
    · exact heeds_pure rfl
    · refine goes_ask trivial fun allowed => ?_
      cases (allowed : Bool) with
      | true => exact heeds_pure rfl
      | false => exact heeds_throw _
  refine hacl.bind ?_
  rintro - g' rfl
  exact hf

theorem goes_createDirectChannelInternal {drawn : ChannelDraw} {creatorId otherId : Uuid}
    (h : [creatorId, otherId].Perm [a, b]) :
    Goes a b (env.createDirectChannelInternal drawn creatorId otherId) Returns .idle := by
  obtain ⟨hcanonical, hlegacy⟩ := names_of_perm h
  unfold createDirectChannelInternal
  refine goes_enforceDmAcl (goes_ask trivial fun team => goes_orThrow fun teamId _ => ?_)
  refine goes_ask trivial fun shownName => goes_ask ⟨hcanonical, hlegacy⟩ fun found => ?_
  cases (found : Option (Uuid × DirectChannel)) with
  | some channel => exact goes_addMembers (heeds_pure rfl)
  | none => exact goes_ask ⟨rfl, rfl, hcanonical⟩ fun channel => goes_addMembers (heeds_pure rfl)

theorem goes_createDirectChannel {drawn : ChannelDraw} {userId : Uuid} {userIds : List String}
    (h : (userIds.filterMap env.parse).Perm [a, b]) :
    Goes a b (env.createDirectChannel drawn userId userIds) Returns .idle := by
  unfold createDirectChannel
  split
  · exact heeds_throw _
  · split
    · next first second hids =>
      rw [hids] at h
      split
      · exact heeds_throw _
      · next hmem =>
        refine goes_createDirectChannelInternal ?_
        split
        · next heq => rwa [heq] at h
        · next hne =>
          rcases List.mem_pair.1 (not_not.1 hmem) with rfl | rfl
          · exact absurd rfl hne
          · exact (List.Perm.swap _ _ _).trans h
    · exact heeds_throw _

theorem goes_createChannel {drawn : ChannelDraw} {userId targetId : Uuid} {input : CreateDirectChannel}
    (htarget : input.targetUserId = some targetId) (h : [userId, targetId].Perm [a, b]) :
    Goes a b (env.createChannel drawn userId input) Returns .idle := by
  obtain ⟨hcanonical, hlegacy⟩ := names_of_perm h
  unfold createChannel
  refine goes_orThrow fun target heq => ?_
  obtain rfl : targetId = target := Option.some.inj (htarget.symm.trans heq)
  refine goes_ask ⟨hcanonical, hlegacy⟩ fun existing => ?_
  cases (existing : Option (Uuid × DirectChannel)) with
  | some channel => exact goes_lift_of_stays stays_ensureDmMembership fun _ => goes_hydrate
  | none =>
    refine goes_ask trivial fun isTargetMember => ?_
    cases (isTargetMember : Bool) with
    | false => exact heeds_throw _
    | true =>
      refine goes_ask trivial fun teammateDisplayName => ?_
      exact goes_ask ⟨rfl, rfl, hcanonical⟩ fun channel => goes_addMembers (heeds_pure rfl)

theorem goes_program (req : DirectTo env a b) : Goes a b (env.program req.1) Returns .idle := by
  obtain ⟨req, hreq⟩ := req
  cases req with
  | v4 userId userIds drawn => exact goes_createDirectChannel hreq
  | native userId input drawn =>
    obtain ⟨targetId, htarget, hperm⟩ := hreq
    exact goes_createChannel htarget hperm

end Requests

section Tables

variable {tie : Uuid ↪ ℕ} {db db' : DirectDb} {a b team c : Uuid} {key : String}

/-- Two rows of one channel, of which at most the display name differs. -/
def SameChannel (row row' : DirectChannel) : Prop :=
  row'.teamId = row.teamId ∧ row'.channelType = row.channelType ∧ row'.name = row.name ∧
    row'.deletedAt = row.deletedAt

/-- The channels are those that were there, and what meets `p`. -/
structure Grows (db db' : DirectDb) (p : Uuid → DirectChannel → Prop) : Prop where
  kept : ∀ c row, db.channels.lookup c = some row → ∃ row', db'.channels.lookup c = some row' ∧ SameChannel row row'
  new : ∀ c row', db'.channels.lookup c = some row' →
    (∃ row, db.channels.lookup c = some row ∧ SameChannel row row') ∨ p c row'

theorem grows_of_eq {p : Uuid → DirectChannel → Prop} (h : db'.channels = db.channels) : Grows db db' p :=
  ⟨fun _ row hl => ⟨row, h ▸ hl, rfl, rfl, rfl, rfl⟩, fun _ row hl => .inl ⟨row, h ▸ hl, rfl, rfl, rfl, rfl⟩⟩

theorem insertChannel_cases (db : DirectDb) (id : Uuid) (row : DirectChannel) :
    (∃ e, db.insertChannel id row = (.error e, db)) ∨
      (db.insertChannel id row).1 = .ok (id, row) ∧ Grows db (db.insertChannel id row).2 (fun c r => c = id ∧ r = row) ∧
        (db.insertChannel id row).2.channels.lookup id = some row := by
  unfold DirectDb.insertChannel
  split
  · next h =>
    refine .inr ⟨rfl, ⟨fun c r hl => ?_, fun c r hl => ?_⟩, Assoc.lookup_insert_self⟩
    · have hne : c ≠ id := by
        rintro rfl
        exact h.2.1 (AList.lookup_isSome.1 (by rw [hl]; rfl))
      exact ⟨r, Assoc.lookup_insert_eq.trans ((if_neg hne).trans hl), rfl, rfl, rfl, rfl⟩
    · rcases Assoc.lookup_insert_cases hl with ⟨hc, hr⟩ | ⟨-, hl⟩
      · exact .inr ⟨hc, hr.symm⟩
      · exact .inl ⟨r, hl, rfl, rfl, rfl, rfl⟩
  · exact .inl ⟨_, rfl⟩

theorem upsertChannel_cases (db : DirectDb) (id : Uuid) (row : DirectChannel) :
    (∃ e, db.upsertChannel id row = (.error e, db)) ∨
      ∃ channel, (db.upsertChannel id row).1 = .ok channel ∧
        Grows db (db.upsertChannel id row).2 (fun c r => c = id ∧ r = row) ∧
          ∃ r, (db.upsertChannel id row).2.channels.lookup channel.1 = some r ∧ r.teamId = row.teamId ∧
            r.name = row.name := by
  unfold DirectDb.upsertChannel
  split
  · rcases insertChannel_cases db id row with hfails | ⟨hok, hgrows, hl⟩
    · exact .inl hfails
    · exact .inr ⟨_, hok, hgrows, row, hl, rfl, rfl⟩
  · next channel hnamed =>
    obtain ⟨hl, hteam, hname⟩ := DirectDb.named_eq_some hnamed
    split
    · refine .inr ⟨_, rfl, ⟨fun c r hl => ?_, fun c r hl => ?_⟩,
        DirectDb.keepDisplayName row.displayName channel.2, ?_, hteam, hname⟩
      · by_cases hc : c = channel.1
        · refine ⟨DirectDb.keepDisplayName row.displayName r, (Assoc.lookup_modify _).trans ((if_pos hc).trans ?_),
            rfl, rfl, rfl, rfl⟩
          rw [← hc, hl]
          rfl
        · exact ⟨r, (Assoc.lookup_modify _).trans ((if_neg hc).trans hl), rfl, rfl, rfl, rfl⟩
      · have hl' := (Assoc.lookup_modify _).symm.trans hl
        split at hl'
        · next hc =>
          obtain ⟨old, hold, rfl⟩ := Option.map_eq_some_iff.1 hl'
          exact .inl ⟨old, hc ▸ hold, rfl, rfl, rfl, rfl⟩
        · exact .inl ⟨r, hl', rfl, rfl, rfl, rfl⟩
      · exact (Assoc.lookup_modify _).trans ((if_pos rfl).trans (congrArg _ hl))
    · exact .inl ⟨_, rfl⟩

theorem findDirect_eq_some {name legacyName : String} {includeDeleted : Bool} {channel : Uuid × DirectChannel}
    (h : db.findDirect tie team name legacyName includeDeleted = some channel) :
    db.channels.lookup channel.1 = some channel.2 ∧ channel.2.teamId = team ∧ channel.2.channelType = .Direct ∧
      (channel.2.name = name ∨ channel.2.name = legacyName) := by
  obtain ⟨id, row, hl, hrow⟩ := Assoc.mem_views.1 (Page.mem_of_head?_orderBy h)
  obtain ⟨⟨hteam, htype, hname, -⟩, heq⟩ := Option.ite_none_right_eq_some.1 hrow
  rw [← Option.some.inj heq]
  exact ⟨hl, hteam, htype, hname⟩

theorem findDirect_ne_none {name legacyName : String} {includeDeleted : Bool} {row : DirectChannel}
    (hl : db.channels.lookup c = some row) (hteam : row.teamId = team) (htype : row.channelType = .Direct)
    (hname : row.name = name ∨ row.name = legacyName) (hkept : row.deletedAt = none) :
    db.findDirect tie team name legacyName includeDeleted ≠ none := by
  intro h
  have hmem : (c, row) ∈ db.directRows team name legacyName includeDeleted :=
    Assoc.mem_views.2 ⟨c, row, hl, if_pos ⟨hteam, htype, hname, .inr hkept⟩⟩
  rw [Page.head?_orderBy_eq_none.1 h] at hmem
  exact List.not_mem_nil hmem

/-- The direct channels of the two users have the name `key` in the team; a legacy name only if such a channel is there
for every request. -/
structure KeyedBy (a b team : Uuid) (key : String) (db : DirectDb) : Prop where
  keys : key = canonicalDirectChannelName a b ∨ key = legacyDirectChannelName a b ∧
    ∃ c row, db.channels.lookup c = some row ∧ row.teamId = team ∧ row.channelType = .Direct ∧ row.name = key ∧
      row.deletedAt = none
  direct : ∀ c row, db.channels.lookup c = some row → IsDirect a b row → row.teamId = team ∧ row.name = key

def HasKey (team : Uuid) (key : String) (db : DirectDb) (c : Uuid) : Prop :=
  ∃ row, db.channels.lookup c = some row ∧ row.teamId = team ∧ row.name = key

theorem HasKey.unique {c' : Uuid} (h : HasKey team key db c) (h' : HasKey team key db c') : c = c' := by
  obtain ⟨row, hl, hteam, hname⟩ := h
  obtain ⟨row', hl', hteam', hname'⟩ := h'
  exact db.names_unique c c' row row' hl hl' (hteam.trans hteam'.symm) (hname.trans hname'.symm)

theorem HasKey.grows {p : Uuid → DirectChannel → Prop} (h : HasKey team key db c) (hgrows : Grows db db' p) :
    HasKey team key db' c := by
  obtain ⟨row, hl, hteam, hname⟩ := h
  obtain ⟨row', hl', hteam', -, hname', -⟩ := hgrows.kept c row hl
  exact ⟨row', hl', hteam'.trans hteam, hname'.trans hname⟩

theorem KeyedBy.grows {p : Uuid → DirectChannel → Prop} (h : KeyedBy a b team key db) (hgrows : Grows db db' p)
    (hp : ∀ c row, p c row → row.teamId = team ∧ row.name = key) : KeyedBy a b team key db' := by
  refine ⟨h.keys.imp_right ?_, fun c row' hl hdirect => ?_⟩
  · rintro ⟨hkey, c, row, hl, hteam, htype, hname, hdeleted⟩
    obtain ⟨row', hl', hteam', htype', hname', hdeleted'⟩ := hgrows.kept c row hl
    exact ⟨hkey, c, row', hl', hteam'.trans hteam, htype'.trans htype, hname'.trans hname, hdeleted'.trans hdeleted⟩
  · rcases hgrows.new c row' hl with ⟨row, hl, hteam, htype, hname, -⟩ | hnew
    · rw [IsDirect, htype, hname] at hdirect
      obtain ⟨hteam', hname'⟩ := h.direct c row hl hdirect
      exact ⟨hteam.trans hteam', hname.trans hname'⟩
    · exact hp c row' hnew

theorem exists_keyedBy (h : AtMostOne a b team db) : ∃ key, KeyedBy a b team key db := by
  by_cases hlegacy : ∃ c row, db.channels.lookup c = some row ∧ IsDirect a b row ∧
      row.name = legacyDirectChannelName a b
  · obtain ⟨c, row, hl, hdirect, hname⟩ := hlegacy
    refine ⟨legacyDirectChannelName a b, .inr ⟨rfl, c, row, hl, h.team c row hl hdirect, hdirect.1, hname,
      h.kept c row hl hdirect hname⟩, fun c' row' hl' hdirect' => ⟨h.team c' row' hl' hdirect', ?_⟩⟩
    obtain rfl := h.one c c' row row' hl hl' hdirect hdirect'
    rw [← Option.some.inj (hl.symm.trans hl'), hname]
  · refine ⟨canonicalDirectChannelName a b, .inl rfl, fun c row hl hdirect => ⟨h.team c row hl hdirect, ?_⟩⟩
    exact hdirect.2.resolve_right fun hname => hlegacy ⟨c, row, hl, hdirect, hname⟩

end Tables

section Steps

variable {env : DirectEnv} {a b team : Uuid} {key : String} {pool : DirectPool env a b} {ghost : ℕ → Found} {t : ℕ}
  {db : DirectDb} {g : Found} {act : DirectAct} {reached : Bool}

/-- The channels that requests have are named `key`, and where one has found none in the team, `key` is the canonical
name. -/
structure Agrees (a b team : Uuid) (key : String) (db : DirectDb) (ghost : ℕ → Found) : Prop where
  keyed : KeyedBy a b team key db
  got : ∀ t c, ghost t = .got c → HasKey team key db c
  missed : ∀ t, ghost t = .missed team → key = canonicalDirectChannelName a b

theorem Agrees.update {p : Uuid → DirectChannel → Prop} {db' : DirectDb} (h : Agrees a b team key db ghost)
    (hgrows : Grows db db' p) (hp : ∀ c row, p c row → row.teamId = team ∧ row.name = key)
    (hgot : ∀ c, g = .got c → HasKey team key db' c) (hmissed : g = .missed team → key = canonicalDirectChannelName a b) :
    Agrees a b team key db' (Function.update ghost t g) := by
  refine ⟨h.keyed.grows hgrows hp, fun t' c hg => ?_, fun t' hg => ?_⟩
  · by_cases heq : t' = t
    · rw [heq, Function.update_self] at hg
      exact hgot c hg
    · rw [Function.update_of_ne heq] at hg
      exact (h.got t' c hg).grows hgrows
  · by_cases heq : t' = t
    · rw [heq, Function.update_self] at hg
      exact hmissed hg
    · rw [Function.update_of_ne heq] at hg
      exact h.missed t' hg

theorem Agrees.same {db' : DirectDb} (h : Agrees a b team key db ghost) (hchannels : db'.channels = db.channels)
    (hg : g = ghost t) : Agrees a b team key db' (Function.update ghost t g) := by
  subst hg
  have hgrows : Grows db db' (fun _ _ => False) := grows_of_eq hchannels
  exact h.update hgrows (fun _ _ hp => hp.elim) (fun c hg => (h.got t c hg).grows hgrows) (h.missed t)

theorem Agrees.spawn (h : Agrees a b team key db ghost) : Agrees a b team key db (Function.update ghost t .idle) :=
  h.update (p := fun _ _ => False) (grows_of_eq rfl) (fun _ _ hp => hp.elim) (fun c hc => by cases hc) fun hg => by cases hg

theorem next_error {e : AppError} : g.next act (.error e) = g := by
  cases g <;> cases act <;> rfl

theorem Agrees.find {tie : Uuid ↪ ℕ} {teamId : Uuid} {name legacyName : String} {includeDeleted : Bool}
    (h : Agrees a b team key db ghost) (hname : name = canonicalDirectChannelName a b)
    (hlegacy : legacyName = legacyDirectChannelName a b) : Agrees a b team key db (Function.update ghost t
      (match db.findDirect tie teamId name legacyName includeDeleted with
        | some channel => .got channel.1
        | none => .missed teamId)) := by
  have hgrows : Grows db db (fun _ _ => False) := grows_of_eq rfl
  split
  · next channel hfound =>
    obtain ⟨hl, hteam, htype, hnames⟩ := findDirect_eq_some hfound
    rw [hname, hlegacy] at hnames
    refine h.update hgrows (fun _ _ hp => hp.elim) (fun c hc => ?_) fun hg => by cases hg
    obtain rfl := Found.got.inj hc
    exact ⟨channel.2, hl, h.keyed.direct channel.1 channel.2 hl ⟨htype, hnames⟩⟩
  · next hnone =>
    refine h.update hgrows (fun _ _ hp => hp.elim) (fun c hc => by cases hc) fun hg => ?_
    obtain rfl := Found.missed.inj hg
    refine h.keyed.keys.resolve_right ?_
    rintro ⟨hkey, c, row, hl, hteam, htype, hrow, hkept⟩
    exact findDirect_ne_none hl hteam htype (.inr ((hrow.trans hkey).trans hlegacy.symm)) hkept hnone

theorem Agrees.insert {db' : DirectDb} {id : Uuid} {row : DirectChannel} {channel : Uuid × DirectChannel}
    (h : Agrees a b team key db ghost) (hg : ghost t = .missed row.teamId) (hteam : row.teamId = team)
    (hname : row.name = canonicalDirectChannelName a b) (hgrows : Grows db db' (fun c r => c = id ∧ r = row))
    (hrow : ∃ r, db'.channels.lookup channel.1 = some r ∧ r.teamId = row.teamId ∧ r.name = row.name) :
    Agrees a b team key db' (Function.update ghost t (.got channel.1)) := by
  have hkey : key = canonicalDirectChannelName a b := h.missed t (hteam ▸ hg)
  refine h.update hgrows ?_ (fun c hc => ?_) fun hmissed => by cases hmissed
  · rintro c r ⟨-, rfl⟩
    exact ⟨hteam, hname.trans hkey.symm⟩
  · obtain rfl := Found.got.inj hc
    obtain ⟨r, hl, hrteam, hrname⟩ := hrow
    exact ⟨r, hl, hrteam.trans hteam, hrname.trans (hname.trans hkey.symm)⟩

theorem Agrees.perform {tie : Uuid ↪ ℕ} (h : Agrees a b team key db ghost) (hmay : MayDo a b (ghost t) act)
    (hteam : reached = true → InsertsInto team act) :
    Agrees a b team key (DirectDb.sem tie reached act db).2
      (Function.update ghost t ((ghost t).next act (DirectDb.sem tie reached act db).1)) := by
  cases reached with
  | false => exact h.same rfl next_error
  | true =>
    have hinto := hteam rfl
    show Agrees a b team key (db.perform tie act).2 (Function.update ghost t ((ghost t).next act (db.perform tie act).1))
    cases act with
    | findDirect teamId name legacyName includeDeleted =>
      cases hg : ghost t with
      | idle =>
        rw [hg] at hmay
        have hfind := @Agrees.find a b team key ghost t db tie teamId name legacyName includeDeleted h hmay.1 hmay.2
        have hnext : Found.idle.next (.findDirect teamId name legacyName includeDeleted)
            (.ok (db.findDirect tie teamId name legacyName includeDeleted)) =
            match db.findDirect tie teamId name legacyName includeDeleted with
            | some channel => .got channel.1
            | none => .missed teamId := by
          cases db.findDirect tie teamId name legacyName includeDeleted <;> rfl
        exact hnext ▸ hfind
      | missed teamId => rw [hg] at hmay; exact hmay.elim
      | got c => rw [hg] at hmay; exact hmay.elim
    | insertChannel id row =>
      cases hg : ghost t with
      | missed teamId =>
        rw [hg] at hmay
        obtain ⟨rfl, -, hname⟩ := hmay
        show Agrees a b team key (db.insertChannel id row).2 (Function.update ghost t
          (Found.next (.missed row.teamId) (.insertChannel id row) (db.insertChannel id row).1))
        rcases insertChannel_cases db id row with ⟨e, hfails⟩ | ⟨hok, hgrows, hl⟩
        · rw [hfails]
          exact h.same rfl hg.symm
        · rw [hok]
          exact h.insert hg hinto hname hgrows ⟨row, hl, rfl, rfl⟩
      | idle => rw [hg] at hmay; exact hmay.elim
      | got c => rw [hg] at hmay; exact hmay.elim
    | upsertChannel id row =>
      cases hg : ghost t with
      | missed teamId =>
        rw [hg] at hmay
        obtain ⟨rfl, -, hname⟩ := hmay
        show Agrees a b team key (db.upsertChannel id row).2 (Function.update ghost t
          (Found.next (.missed row.teamId) (.upsertChannel id row) (db.upsertChannel id row).1))
        rcases upsertChannel_cases db id row with ⟨e, hfails⟩ | ⟨channel, hok, hgrows, hrow⟩
        · rw [hfails]
          exact h.same rfl hg.symm
        · rw [hok]
          exact h.insert hg hinto hname hgrows hrow
      | idle => rw [hg] at hmay; exact hmay.elim
      | got c => rw [hg] at hmay; exact hmay.elim
    | insertMember channelId userId =>
      refine h.same ?_ (by cases ghost t <;> rfl)
      show (db.insertMember channelId userId).2.channels = db.channels
      unfold DirectDb.insertMember
      split <;> rfl
    | _ => exact h.same rfl (by cases ghost t <;> rfl)

end Steps

/-- If all channels are inserted into one team, in every state of the run the two users have at most one direct channel,
and all requests that succeeded returned one channel. -/
theorem unique_of_oneTeam (env : DirectEnv) (a b team : Uuid) (db : DirectDb) (hdb : AtMostOne a b team db)
    (inputs : List (DirectInput env a b))
    (h : Run.AllSteps (step env a b) (OneTeam team) (Pool.start db) inputs) :
    Run.AllStates (step env a b) Unique (Pool.start db) inputs := by
  obtain ⟨key, hkeyed⟩ := exists_keyedBy hdb
  have hinv : Run.AllStates (step env a b) (fun pool => ∃ ghost,
      pool.Shadowed (fun _ g act => MayDo a b g act) Found.next (fun r g => ∀ channel, r = .ok channel →
        Returns channel g) ghost ∧ Agrees a b team key pool.shared ghost) (Pool.start db) inputs := by
    refine Run.allStates_of_allSteps (fun pool input pool' hpool hteam hs => ?_) ?_ h
    · refine Pool.shadowed_step (P := OneTeam team) (I := fun pool ghost => Agrees a b team key pool.shared ghost)
        (fun req => goes_program req) ?_ ?_ hpool hteam hs
      · exact fun pool ghost t req hpool hl => hpool.spawn
      · intro pool ghost t reached req act next hpool hp hmay _ hteam
        exact hpool.perform hmay fun hreached => hteam hreached act (Pool.upcoming_of_performs hp)
    · refine ⟨fun _ => .idle, fun t task hl => ?_, ⟨hkeyed, fun t c hg => (nomatch hg), fun t hg => (nomatch hg)⟩⟩
      rw [Pool.lookup_start] at hl
      cases hl
  refine hinv.mono ?_
  rintro pool ⟨ghost, hghost, hagrees⟩
  refine ⟨fun t t' channel channel' hr hr' => ?_, fun c c' row row' hl hl' hdirect hdirect' => ?_⟩
  · have hgot : ghost t = .got channel.1 := hghost.result hr channel rfl
    have hgot' : ghost t' = .got channel'.1 := hghost.result hr' channel' rfl
    exact (hagrees.got t channel.1 hgot).unique (hagrees.got t' channel'.1 hgot')
  · exact HasKey.unique ⟨row, hl, hagrees.keyed.direct c row hl hdirect⟩
      ⟨row', hl', hagrees.keyed.direct c' row' hl' hdirect'⟩

section Alone

variable {env : DirectEnv} {tie : Uuid ↪ ℕ} {db : DirectDb}

theorem fitsColumn_canonicalDirectChannelName (a b : Uuid) : fitsColumn 255 (canonicalDirectChannelName a b) = true := by
  have hchars : ∀ u : Uuid, Char.ofNat 0 ∉ u.hyphenated.toList := by
    intro u hmem
    rw [Uuid.toList_hyphenated] at hmem
    rcases mem_hyphenate hmem with hzero | hzero
    · exact absurd hzero (by decide)
    · exact forall_mem_hexText (p := (Char.ofNat 0 ≠ ·)) (by decide) (fun _ => Uuid.lt_of_mem_asBytes) _ hzero rfl
  have hlength : (canonicalDirectChannelName a b).length ≤ 255 := by
    rw [← String.length_toList, canonicalDirectChannelName]
    simp only [String.toList_append, List.length_append, Uuid.length_hyphenated]
    decide
  have hmem : Char.ofNat 0 ∉ (canonicalDirectChannelName a b).toList := by
    rw [canonicalDirectChannelName]
    simp only [String.toList_append, List.mem_append, not_or]
    exact ⟨⟨hchars _, by decide⟩, hchars _⟩
  rw [fitsColumn, decide_eq_true hlength, Bool.true_and, Bool.not_eq_true']
  exact Bool.eq_false_iff.2 fun h => hmem (List.contains_iff_mem.1 h)

theorem eval_ask_bind {act : DirectAct} {β : Type} {f : act.Row → DirectProg β} {r : act.Row} {db' : DirectDb}
    (h : db.perform tie act = (.ok r, db')) :
    (ask act >>= f).run.eval (DirectDb.sem tie true) db = (f r).run.eval (DirectDb.sem tie true) db' := by
  have hact : (ask act).run.eval (DirectDb.sem tie true) db = (.ok r, db') := h
  rw [eval_run_bind, hact]

theorem eval_addMembers {channelId : Uuid} (tie : Uuid ↪ ℕ) (userIds : List Uuid) (hchannel : channelId ∈ db.channels)
    (husers : ∀ userId ∈ userIds, userId ∈ db.users) :
    ∃ members, (addMembers channelId userIds).run.eval (DirectDb.sem tie true) db =
      (.ok ⟨⟩, { db with channelMembers := members }) := by
  induction userIds generalizing db with
  | nil => exact ⟨db.channelMembers, rfl⟩
  | cons userId userIds ih =>
    have hinsert : db.perform tie (.insertMember channelId userId) =
        (.ok (), { db with channelMembers := Assoc.insertNew (channelId, userId) () db.channelMembers }) :=
      if_pos ⟨hchannel, husers userId List.mem_cons_self⟩
    rw [addMembers_cons, eval_ask_bind hinsert]
    exact @ih { db with channelMembers := Assoc.insertNew (channelId, userId) () db.channelMembers } hchannel
      fun u hu => husers u (List.mem_cons_of_mem _ hu)

theorem findDirect_of_free {teamId : Uuid} {name legacyName : String} {includeDeleted : Bool}
    (h : ∀ c row, db.channels.lookup c = some row → row.teamId ≠ teamId) :
    db.findDirect tie teamId name legacyName includeDeleted = none := by
  cases hfound : db.findDirect tie teamId name legacyName includeDeleted with
  | none => rfl
  | some channel =>
    obtain ⟨hl, hteam, -⟩ := findDirect_eq_some hfound
    exact absurd hteam (h channel.1 channel.2 hl)

theorem insertChannel_of_accepts {id : Uuid} {row : DirectChannel} (h : db.Accepts row) (hid : id ∉ db.channels)
    (hnamed : db.named row.teamId row.name = none) :
    ∃ db', db.insertChannel id row = (.ok (id, row), db') ∧ db'.channels = db.channels.insert id row ∧
      db'.teams = db.teams ∧ db'.users = db.users ∧ db'.teamMembers = db.teamMembers := by
  unfold DirectDb.insertChannel
  rw [dif_pos ⟨h, hid, hnamed⟩]
  exact ⟨_, rfl, rfl, rfl, rfl, rfl⟩

theorem mem_sortUserIds {u : Uuid} {a b : Uuid} (h : u ∈ [(sortUserIds a b).1, (sortUserIds a b).2]) : u ∈ [a, b] := by
  unfold sortUserIds at h
  split at h
  · exact h
  · exact (List.Perm.swap a b []).mem_iff.1 h

theorem eval_createChannel {drawn : ChannelDraw} {userId targetId : Uuid} {input : CreateDirectChannel}
    (htarget : input.targetUserId = some targetId) (hteam : input.teamId ∈ db.teams)
    (husers : ∀ u ∈ [userId, targetId], u ∈ db.users) (hmember : (input.teamId, targetId) ∈ db.teamMembers)
    (hshown : fitsColumn 255 ((((input.displayName.map trimText).filter (· ≠ "")).or
      ((db.users.lookup targetId).map DirectUser.shownName)).getD "Direct Message") = true)
    (hid : drawn.id ∉ db.channels) (hfree : ∀ c row, db.channels.lookup c = some row → row.teamId ≠ input.teamId) :
    ∃ row db', (env.createChannel drawn userId input).run.eval (DirectDb.sem tie true) db = (.ok (drawn.id, row), db') ∧
      (row.teamId = input.teamId ∧ row.channelType = .Direct ∧ row.name = canonicalDirectChannelName userId targetId ∧
        row.deletedAt = none) ∧
      db'.channels = db.channels.insert drawn.id row ∧ db'.teams = db.teams ∧ db'.users = db.users ∧
        db'.teamMembers = db.teamMembers := by
  have hfound : db.perform tie (.findDirect input.teamId (canonicalDirectChannelName userId targetId)
      (legacyDirectChannelName userId targetId) false) = (.ok none, db) :=
    congrArg (fun found => (Except.ok found, db)) (findDirect_of_free hfree)
  have hmate : db.perform tie (.selectTeamMember input.teamId targetId) = (.ok true, db) :=
    congrArg (fun found => (Except.ok found, db)) (decide_eq_true hmember)
  have hname : db.perform tie (.selectDisplayName targetId) = (.ok ((db.users.lookup targetId).map DirectUser.shownName), db) :=
    rfl
  obtain ⟨shownName, hshownName⟩ : ∃ text, text = (((input.displayName.map trimText).filter (· ≠ "")).or
    ((db.users.lookup targetId).map DirectUser.shownName)).getD "Direct Message" := ⟨_, rfl⟩
  rw [← hshownName] at hshown
  let row : DirectChannel :=
    { teamId := input.teamId, channelType := .Direct, name := canonicalDirectChannelName userId targetId,
      displayName := some shownName, purpose := input.purpose, header := none, isArchived := false,
      creatorId := some userId, createdAt := drawn.now, deletedAt := none }
  have haccepts : db.Accepts row := by
    refine ⟨?_, hteam, fun u hu => husers u (Option.mem_some.1 hu ▸ List.mem_cons_self)⟩
    show (fitsColumn 255 (canonicalDirectChannelName userId targetId) && fitsColumn 255 shownName) = true
    rw [fitsColumn_canonicalDirectChannelName, hshown]
    rfl
  have hnamed : db.named row.teamId row.name = none :=
    DirectDb.named_eq_none.2 fun c r hl h => hfree c r hl h.1
  obtain ⟨db₁, hinsert, hchannels, hteams, husers₁, hmembers₁⟩ := insertChannel_of_accepts haccepts hid hnamed
  have hmade : db.perform tie (.insertChannel drawn.id row) = (.ok (drawn.id, row), db₁) := hinsert
  have hchannel : drawn.id ∈ db₁.channels := by
    rw [hchannels]
    exact (AList.mem_insert _).2 (.inl rfl)
  obtain ⟨members, hadd⟩ :=
    eval_addMembers tie [(sortUserIds userId targetId).1, (sortUserIds userId targetId).2] hchannel fun u hu => by
      rw [husers₁]
      exact husers u (mem_sortUserIds hu)
  refine ⟨row, { db₁ with channelMembers := members }, ?_, ⟨rfl, rfl, rfl, rfl⟩, hchannels, hteams, husers₁, hmembers₁⟩
  unfold createChannel
  rw [htarget]
  refine (eval_ask_bind hfound).trans ((eval_ask_bind hmate).trans ((eval_ask_bind hname).trans ?_))
  rw [← hshownName]
  refine (eval_ask_bind hmade).trans ?_
  rw [eval_run_bind, hadd]
  rfl

theorem eval_createChannel_found {drawn : ChannelDraw} {userId targetId : Uuid} {input : CreateDirectChannel}
    (htarget : input.targetUserId = some targetId) {channel : Uuid × DirectChannel}
    (hfound : db.findDirect tie input.teamId (canonicalDirectChannelName userId targetId)
      (legacyDirectChannelName userId targetId) false = some channel) :
    ∃ row db', (env.createChannel drawn userId input).run.eval (DirectDb.sem tie true) db = (.ok (channel.1, row), db') := by
  have hperform : db.perform tie (.findDirect input.teamId (canonicalDirectChannelName userId targetId)
      (legacyDirectChannelName userId targetId) false) = (.ok (some channel), db) :=
    congrArg (fun found => (Except.ok found, db)) hfound
  have htype : channel.2.channelType = .Direct := (findDirect_eq_some hfound).2.2.1
  obtain ⟨row, db', hreturn⟩ : ∃ row db', (ExceptT.lift (env.ensureDmMembership channel.1).run >>= fun _ =>
      hydrateDirectChannelDisplayName userId channel).run.eval (DirectDb.sem tie true) db = (.ok (channel.1, row), db') := by
    rw [eval_run_bind, ExceptT.run_lift, map_eq_pure_bind, Prog.eval_bind, hydrateDirectChannelDisplayName,
      if_neg (not_not.2 htype)]
    exact ⟨_, _, rfl⟩
  unfold createChannel
  rw [htarget]
  exact ⟨row, db', (eval_ask_bind hperform).trans hreturn⟩

/-! ### Native requests -/

abbrev Into (team : Uuid) {α : Type} (p : DirectProg α) : Prop :=
  Always (fun _ => InsertsInto team) p

theorem into_ask_bind {team : Uuid} {act : DirectAct} {β : Type} {f : act.Row → DirectProg β} (h : InsertsInto team act)
    (hf : ∀ r, Into team (f r)) : Into team (ask act >>= f) :=
  Always.bind (fun _ => ⟨h, fun _ => trivial⟩) hf

theorem into_addMembers {team channelId : Uuid} (userIds : List Uuid) : Into team (addMembers channelId userIds) := by
  refine always_forM (fun userId => ?_) userIds
  exact into_ask_bind trivial fun _ => always_pure _

theorem into_ensureDmMembership (env : DirectEnv) {team channelId : Uuid} : Into team (env.ensureDmMembership channelId) := by
  refine into_ask_bind trivial fun (found : Option DirectChannel) => ?_
  cases found with
  | none => exact always_pure _
  | some channel =>
    dsimp only
    split
    · split
      · exact into_addMembers _
      · exact always_pure _
    · exact always_pure _

theorem into_createChannel (env : DirectEnv) (drawn : ChannelDraw) (userId : Uuid) (input : CreateDirectChannel) :
    Into input.teamId (env.createChannel drawn userId input) := by
  have htarget : Into input.teamId
      (orThrow input.targetUserId (.validation "target_user_id is required for direct messages")) := by
    unfold orThrow
    split
    · exact always_pure _
    · exact always_throw _
  refine htarget.bind fun targetId => into_ask_bind trivial fun (found : Option (Uuid × DirectChannel)) => ?_
  cases found with
  | some channel =>
    refine Always.bind (fun past => ?_) fun _ => ?_
    · rw [ExceptT.run_lift, map_eq_pure_bind, Prog.follows_bind]
      exact ⟨into_ensureDmMembership env past, fun _ _ _ => trivial⟩
    · unfold hydrateDirectChannelDisplayName
      split
      · exact always_pure _
      · exact into_ask_bind trivial fun _ => always_pure _
  | none =>
    refine into_ask_bind trivial fun (isTargetMember : Bool) => ?_
    dsimp only
    split
    · exact always_throw _
    · refine into_ask_bind trivial fun _ => into_ask_bind rfl fun (channel : Uuid × DirectChannel) => ?_
      exact (into_addMembers _).bind fun _ => always_pure _

theorem oneTeam_of_native {a b team : Uuid} {pool : DirectPool env a b} {inputs : List (DirectInput env a b)}
    (hpool : ∀ t task, pool.tasks.lookup t = some task → ∃ past, task.prog.Follows (fun _ => InsertsInto team) past)
    (hnative : ∀ t req, .spawn t req ∈ inputs → ∃ userId input drawn, req.1 = .native userId input drawn ∧ input.teamId = team) :
    Run.AllSteps (step env a b) (OneTeam team) pool inputs := by
  induction inputs generalizing pool with
  | nil => exact Run.allSteps_nil
  | cons input inputs ih =>
    refine Run.allSteps_cons.2 ⟨?_, fun pool' hs => ih (fun t task hl => ?_)
      fun t req hmem => hnative t req (List.mem_cons_of_mem _ hmem)⟩
    · cases input with
      | spawn t req => trivial
      | step t reached =>
        intro _ act hact
        obtain ⟨label, next, hp⟩ := Pool.performs_of_upcoming hact
        obtain ⟨past, hfollows⟩ := hpool t _ hp
        exact hfollows.1
    · rcases Pool.step_cases hs with ⟨t', req, rfl, -, rfl⟩ | ⟨t', o, req, act, next, rfl, hp, rfl⟩
      · rcases Assoc.lookup_insert_cases hl with ⟨rfl, rfl⟩ | ⟨-, hl⟩
        · obtain ⟨userId, input, drawn, hreq, rfl⟩ := hnative t req List.mem_cons_self
          refine ⟨[], ?_⟩
          show ((env.program req.1).run).Follows _ _
          rw [hreq]
          exact into_createChannel env drawn userId input []
        · exact hpool t task hl
      · rcases Assoc.lookup_insert_cases hl with ⟨rfl, rfl⟩ | ⟨-, hl⟩
        · obtain ⟨past, hfollows⟩ := hpool t _ hp
          exact ⟨_, hfollows.2 _⟩
        · exact hpool t task hl

end Alone

/-! ### Two users in two teams -/

def plainDirect : DirectEnv := ⟨Uuid.ofHyphenated, false, Uuid.number⟩

/-- The users `1` and `2` are both in the teams `3` and `4`. -/
def twoTeams : DirectDb where
  teams := [3, 4]
  users := ((∅ : Assoc Uuid DirectUser).insert 1 ⟨"a", none⟩).insert 2 ⟨"b", none⟩
  teamMembers := ((((∅ : Assoc (Uuid × Uuid) Int).insert (3, 1) 0).insert (4, 1) 0).insert (3, 2) 0).insert (4, 2) 0
  groups := []
  channels := ∅
  channelMembers := ∅
  names_unique _ _ _ _ hl := by cases hl

/-- A request of the user `1`, with the new id `8`. -/
def firstRequest : DirectTo plainDirect 1 2 := ⟨.native 1 ⟨3, none, none, some 2⟩ ⟨8, 0⟩, 2, rfl, .refl _⟩

/-- A request of the user `2` in a team, with the new id `9`. -/
def secondRequest (teamId : Uuid) : DirectTo plainDirect 1 2 :=
  ⟨.native 2 ⟨teamId, none, none, some 1⟩ ⟨9, 1⟩, 1, rfl, .swap _ _ _⟩

theorem mem_users {u : Uuid} (h : u ∈ [1, 2]) : u ∈ twoTeams.users := by
  rcases List.mem_pair.1 h with rfl | rfl
  · decide
  · decide

/-- The second request begins when the first one has returned. -/
def inTurn (teamId : Uuid) (n n' : ℕ) : List (DirectInput plainDirect 1 2) :=
  (.spawn 0 firstRequest :: List.replicate n (.step 0 true)) ++
    .spawn 1 (secondRequest teamId) :: List.replicate n' (.step 1 true)

/-- The first request makes the channel `8` in the team `3`, and the second one is made after it. -/
theorem exec_inTurn (teamId : Uuid) : ∃ row db₁ n n' pool,
    Run.exec (step plainDirect 1 2) (Pool.start twoTeams) (inTurn teamId n n') = some pool ∧
      pool.result 0 = some (.ok (8, row)) ∧
      pool.result 1 = some ((plainDirect.program (secondRequest teamId).1).run.eval (DirectDb.sem plainDirect.tie true) db₁).1 ∧
      (row.teamId = 3 ∧ row.channelType = .Direct ∧ row.name = canonicalDirectChannelName 1 2 ∧ row.deletedAt = none) ∧
      db₁.channels = AList.insert 8 row ∅ ∧ db₁.teams = twoTeams.teams ∧ db₁.users = twoTeams.users ∧
        db₁.teamMembers = twoTeams.teamMembers := by
  obtain ⟨row, db₁, heval, hrow, hchannels, hteams, husers, hmembers⟩ :=
    @eval_createChannel plainDirect plainDirect.tie twoTeams ⟨8, 0⟩ 1 2 ⟨3, none, none, some 2⟩ rfl (by decide)
      (fun u hu => mem_users hu) (by decide) (by decide +kernel) (by decide) (fun c row hl => by cases hl)
  obtain ⟨n, pool₁, hexec₁, hshared₁, hresult₁, hothers₁⟩ : ∃ n pool', Run.exec (step plainDirect 1 2) (Pool.start twoTeams)
      (.spawn 0 firstRequest :: List.replicate n (.step 0 true)) = some pool' ∧ _ :=
    Pool.exists_alone firstRequest true (Pool.lookup_start twoTeams 0)
  have hfresh : pool₁.tasks.lookup 1 = none := (hothers₁ 1 (by decide)).trans (Pool.lookup_start twoTeams 1)
  obtain ⟨n', pool₂, hexec₂, -, hresult₂, hothers₂⟩ : ∃ n pool', Run.exec (step plainDirect 1 2) pool₁
      (.spawn 1 (secondRequest teamId) :: List.replicate n (.step 1 true)) = some pool' ∧ _ :=
    Pool.exists_alone (secondRequest teamId) true hfresh
  have hdb : ((plainDirect.program firstRequest.1).run.eval (DirectDb.sem plainDirect.tie true) twoTeams).2 = db₁ :=
    congrArg Prod.snd heval
  rw [hshared₁, show (Pool.start twoTeams : DirectPool plainDirect 1 2).shared = twoTeams from rfl, hdb] at hresult₂
  refine ⟨row, db₁, n, n', pool₂, ?_, ?_, hresult₂, hrow, hchannels, hteams, husers, hmembers⟩
  · rw [inTurn, Run.exec_append, hexec₁]
    exact hexec₂
  · rw [Pool.result, hothers₂ 0 (by decide)]
    exact hresult₁.trans (congrArg (fun r => some r.1) heval)

/-- The requests of both users are made in two teams, one after the other, and return two channels. -/
theorem two_channels : ∃ inputs, ¬ Run.AllStates (step plainDirect 1 2) Unique (Pool.start twoTeams) inputs := by
  obtain ⟨row, db₁, n, n', pool, hexec, hfirst, hsecond, hrow, hchannels, hteams, husers, hmembers⟩ := exec_inTurn 4
  have hfree : ∀ c r, db₁.channels.lookup c = some r → r.teamId ≠ 4 := by
    intro c r hl
    rw [hchannels] at hl
    rcases Assoc.lookup_insert_cases hl with ⟨-, rfl⟩ | ⟨-, hl⟩
    · rw [hrow.1]
      decide
    · cases hl
  obtain ⟨row', db₂, heval, -⟩ :=
    @eval_createChannel plainDirect plainDirect.tie db₁ ⟨9, 1⟩ 2 1 ⟨4, none, none, some 1⟩ rfl (by rw [hteams]; decide)
      (fun u hu => husers ▸ mem_users ((List.Perm.swap 1 2 []).mem_iff.1 hu)) (by rw [hmembers]; decide)
      (by rw [husers]; decide +kernel) (by rw [hchannels, AList.mem_insert]; decide) hfree
  have hother : pool.result 1 = some (.ok (9, row')) := hsecond.trans (congrArg (fun r => some r.1) heval)
  have hdiffer : ¬ Unique pool := by
    intro h
    have hsame : (8 : Uuid) = 9 := h.returned 0 1 (8, row) (9, row') hfirst hother
    exact absurd hsame (by decide)
  exact ⟨_, fun h => hdiffer (h.last hexec)⟩

/-- In one team the second request finds the channel of the first one. -/
theorem one_channel : ∃ inputs pool row row', Run.exec (step plainDirect 1 2) (Pool.start twoTeams) inputs = some pool ∧
    pool.result 0 = some (.ok (8, row)) ∧ pool.result 1 = some (.ok (8, row')) ∧
      Run.AllStates (step plainDirect 1 2) Unique (Pool.start twoTeams) inputs := by
  obtain ⟨row, db₁, n, n', pool, hexec, hfirst, hsecond, ⟨hteam, htype, hname, hkept⟩, hchannels, -⟩ := exec_inTurn 3
  have hnames := names_of_perm (List.Perm.swap (1 : Uuid) 2 [])
  have hl : db₁.channels.lookup 8 = some row := by
    rw [hchannels]
    exact AList.lookup_insert _
  have hfound : db₁.findDirect plainDirect.tie 3 (canonicalDirectChannelName 2 1) (legacyDirectChannelName 2 1) false ≠ none :=
    findDirect_ne_none hl hteam htype (.inl (hname.trans hnames.1.symm)) hkept
  obtain ⟨channel, hchannel⟩ := Option.ne_none_iff_exists'.1 hfound
  have hid : channel.1 = 8 := by
    have hlookup := (findDirect_eq_some hchannel).1
    rw [hchannels] at hlookup
    rcases Assoc.lookup_insert_cases hlookup with ⟨hid, -⟩ | ⟨-, hnone⟩
    · exact hid
    · cases hnone
  obtain ⟨row', db₂, heval⟩ :=
    @eval_createChannel_found plainDirect plainDirect.tie db₁ ⟨9, 1⟩ 2 1 ⟨3, none, none, some 1⟩ rfl channel hchannel
  have hother : pool.result 1 = some (.ok (channel.1, row')) := hsecond.trans (congrArg (fun r => some r.1) heval)
  rw [hid] at hother
  refine ⟨inTurn 3 n n', pool, row, row', hexec, hfirst, hother,
    unique_of_oneTeam plainDirect 1 2 3 twoTeams ⟨?_, ?_, ?_⟩ _ (oneTeam_of_native (fun t task hl => ?_) fun t req hmem => ?_)⟩
  · exact fun c c' row row' hl => by cases hl
  · exact fun c row hl => by cases hl
  · exact fun c row hl => by cases hl
  · rw [Pool.lookup_start] at hl
    cases hl
  · simp only [inTurn, List.cons_append, List.mem_cons, List.mem_append, List.mem_replicate, reduceCtorEq, and_false,
      Pool.Input.spawn.injEq, or_false, false_or] at hmem
    rcases hmem with ⟨-, rfl⟩ | ⟨-, rfl⟩
    · exact ⟨1, _, _, rfl, rfl⟩
    · exact ⟨2, _, _, rfl, rfl⟩

end Rustchat.DirectRuns
