import Rustchat.ChannelSubs
import Rustchat.Lib.Run
import Rustchat.Posts

/-!
# Roles of channel members (`api/channels.rs`)

`add_member` stores the role that the request names. Of users who are neither system administrators nor administrators
of the channel it lets through those who join a public channel themselves, also as members who are there already, and
members with the permission to manage channels. A run of such requests makes no administrator exactly if none of them
that is let through names the role of one (`MemberRoles.noNewAdmin_iff`).
-/

namespace Rustchat.MemberRoles

/-- A request to `add_member`. -/
structure AddRequest where
  auth : Auth
  channelId : Uuid
  userId : Uuid
  role : Option String

namespace AddRequest

variable (req : AddRequest)

def storedRole : String := req.role.getD "member"

end AddRequest

/-- `is_channel_admin` and `ensure_channel_admin_or_system_manage` take members with these roles. -/
def IsAdminRole (role : String) : Prop := role = "admin" ∨ role = "channel_admin" ∨ role = "team_admin"

instance (role : String) : Decidable (IsAdminRole role) := inferInstanceAs (Decidable (_ ∨ _ ∨ _))

def IsAdmin (db : MemberDb) (channelId userId : Uuid) : Prop :=
  ∃ role ∈ db.members.lookup (channelId, userId), IsAdminRole role

instance (db : MemberDb) (channelId userId : Uuid) : Decidable (IsAdmin db channelId userId) :=
  inferInstanceAs (Decidable (∃ role ∈ _, _))

/-- The caller is neither a system administrator nor an administrator of the channel. -/
def Ordinary (db : MemberDb) (req : AddRequest) : Prop :=
  req.auth.systemManage = false ∧ ¬ IsAdmin db req.channelId req.auth.userId

instance (db : MemberDb) (req : AddRequest) : Decidable (Ordinary db req) := inferInstanceAs (Decidable (_ ∧ _))

def step (db : MemberDb) (req : AddRequest) : Option MemberDb :=
  if Ordinary db req then
    some (match db.addMember req.auth req.channelId req.userId req.role with
      | .ok w => db.write w
      | .error _ => db)
  else none

/-- Nobody has become an administrator of a channel. -/
def NoNewAdmin (db db' : MemberDb) : Prop := ∀ channelId userId, IsAdmin db' channelId userId → IsAdmin db channelId userId

def Manages (db : MemberDb) (req : AddRequest) : Prop :=
  req.auth.channelManage = true ∧ db.IsMember req.channelId req.auth.userId

def LetThrough (db : MemberDb) (req : AddRequest) : Prop :=
  if req.auth.userId = req.userId then
    ∃ channel ∈ db.channels.lookup req.channelId, channel.deleted = false ∧ (channel.channelType = .Public ∨ Manages db req)
  else Manages db req

/-- A request that is let through names the role of an administrator only for a user who has one or does not exist. -/
def Harmless (db : MemberDb) (req : AddRequest) : Prop :=
  LetThrough db req → req.userId ∈ db.users → req.channelId ∈ db.channels → IsAdminRole req.storedRole →
    IsAdmin db req.channelId req.userId

/-! ### One request -/

section Requests

variable {db db' : MemberDb} {req : AddRequest}

theorem ensureAdminOr_iff {refusal : String} (h : Ordinary db req) :
    db.ensureAdminOr req.channelId req.auth refusal = .ok () ↔ Manages db req := by
  unfold MemberDb.ensureAdminOr Manages MemberDb.IsMember
  cases hl : db.members.lookup (req.channelId, req.auth.userId) with
  | none => exact ⟨fun h => (by cases h), fun ⟨_, hmem⟩ => absurd hmem (AList.lookup_eq_none.1 hl)⟩
  | some role =>
    have hmem : (req.channelId, req.auth.userId) ∈ db.members := AList.lookup_isSome.1 (by rw [hl]; rfl)
    have hrole : role ≠ "admin" := fun hadmin => h.2 ⟨role, hl, .inl hadmin⟩
    show (if role ≠ "admin" ∧ req.auth.channelManage = false then _ else _) = _ ↔ _
    cases req.auth.channelManage with
    | false => rw [if_pos ⟨hrole, rfl⟩]; exact ⟨fun h => (by cases h), fun h => (by cases h.1)⟩
    | true => rw [if_neg fun h => Bool.noConfusion h.2]; exact ⟨fun _ => ⟨rfl, hmem⟩, fun _ => rfl⟩

theorem check_bind_iff {check : Except AppError Unit} {P : Prop} {w v : MemberWrite} (h : check = .ok () ↔ P) :
    check.bind (fun _ => .ok v) = .ok w ↔ P ∧ w = v := by
  rw [bind_eq_ok, ← h]
  constructor
  · rintro ⟨⟨⟩, hok, hw⟩
    exact ⟨hok, (Except.ok.inj hw).symm⟩
  · rintro ⟨hok, rfl⟩
    exact ⟨(), hok, rfl⟩

theorem addMember_iff (h : Ordinary db req) {w : MemberWrite} :
    db.addMember req.auth req.channelId req.userId req.role = .ok w ↔
      LetThrough db req ∧ w = .insert req.channelId req.userId req.storedRole true := by
  unfold MemberDb.addMember LetThrough
  by_cases hself : req.auth.userId = req.userId
  · rw [if_pos hself, if_pos hself]
    cases hl : db.channels.lookup req.channelId with
    | none => exact ⟨fun h => (by cases h), fun ⟨⟨_, hc, _⟩, _⟩ => (by cases hc)⟩
    | some channel =>
      have hchannel {P : Channel → Prop} : (∃ c ∈ some channel, P c) ↔ P channel :=
        ⟨fun ⟨c, hc, hP⟩ => Option.some.inj hc ▸ hP, fun hP => ⟨channel, rfl, hP⟩⟩
      rw [hchannel]
      cases hdeleted : channel.deleted with
      | true =>
        show (if channel.deleted = true then _ else _) = _ ↔ _
        rw [if_pos hdeleted]
        exact ⟨fun h => (by cases h), fun ⟨⟨h, _⟩, _⟩ => (by cases h)⟩
      | false =>
        show (if channel.deleted = true then _ else _) = _ ↔ _
        rw [if_neg (by rw [hdeleted]; exact Bool.false_ne_true)]
        by_cases hpublic : channel.channelType = .Public
        · rw [if_neg (not_not.2 hpublic)]
          exact check_bind_iff ⟨fun _ => ⟨rfl, .inl hpublic⟩, fun _ => rfl⟩
        · rw [if_pos hpublic]
          refine check_bind_iff ((ensureAdminOr_iff h).trans ⟨fun hm => ⟨rfl, .inr hm⟩, fun hm => ?_⟩)
          exact hm.2.resolve_left hpublic
  · rw [if_neg hself, if_neg hself]
    exact check_bind_iff (ensureAdminOr_iff h)

theorem isAdmin_insert {channelId userId ch u : Uuid} {role : String} (hu : userId ∈ db.users) (hc : channelId ∈ db.channels)
    (hrole : role.length ≤ 32) : IsAdmin (db.write (.insert channelId userId role true)) ch u ↔
      if (ch, u) = (channelId, userId) then IsAdminRole role else IsAdmin db ch u := by
  have hwrite : db.write (.insert channelId userId role true) =
      { db with members := db.members.insert (channelId, userId) role } := by
    show (if userId ∈ db.users ∧ channelId ∈ db.channels ∧ role.length ≤ 32 then
      if db.IsMember channelId userId ∧ true = false then db else _ else db) = _
    rw [if_pos ⟨hu, hc, hrole⟩, if_neg fun h => Bool.noConfusion h.2]
  unfold IsAdmin
  rw [hwrite]
  show (∃ r ∈ (db.members.insert (channelId, userId) role).lookup (ch, u), IsAdminRole r) ↔ _
  rw [Assoc.lookup_insert_eq]
  split
  · exact ⟨fun ⟨r, hr, h⟩ => Option.some.inj hr ▸ h, fun h => ⟨role, rfl, h⟩⟩
  · exact Iff.rfl

theorem length_of_isAdminRole {role : String} (h : IsAdminRole role) : role.length ≤ 32 := by
  rcases h with rfl | rfl | rfl <;> decide

theorem write_of_not {channelId userId : Uuid} {role : String}
    (h : ¬ (userId ∈ db.users ∧ channelId ∈ db.channels ∧ role.length ≤ 32)) :
    db.write (.insert channelId userId role true) = db := if_neg h

theorem noNewAdmin_step (hs : step db req = some db') : NoNewAdmin db db' ↔ Harmless db req := by
  obtain ⟨hordinary, hdb⟩ := Option.ite_none_right_eq_some.1 hs
  cases hadd : db.addMember req.auth req.channelId req.userId req.role with
  | error e =>
    rw [hadd] at hdb
    obtain rfl : db = db' := Option.some.inj hdb
    refine ⟨fun _ hlet => ?_, fun _ _ _ h => h⟩
    rw [(addMember_iff hordinary).2 ⟨hlet, rfl⟩] at hadd
    cases hadd
  | ok w =>
    obtain ⟨hlet, rfl⟩ := (addMember_iff hordinary).1 hadd
    rw [hadd] at hdb
    obtain rfl : db.write _ = db' := Option.some.inj hdb
    by_cases hrow : req.userId ∈ db.users ∧ req.channelId ∈ db.channels ∧ req.storedRole.length ≤ 32
    · obtain ⟨hu, hc, hlen⟩ := hrow
      constructor
      · intro h _ _ _ hrole
        exact h _ _ ((isAdmin_insert hu hc hlen).2 (by rw [if_pos rfl]; exact hrole))
      · intro h ch u hadmin
        rw [isAdmin_insert hu hc hlen] at hadmin
        split at hadmin
        · next heq =>
          obtain ⟨rfl, rfl⟩ := Prod.mk.inj heq
          exact h hlet hu hc hadmin
        · exact hadmin
    · rw [write_of_not hrow]
      refine ⟨fun _ _ hu hc hrole => absurd ⟨hu, hc, length_of_isAdminRole hrole⟩ hrow, fun _ _ _ h => h⟩

end Requests

/-! ### Runs -/

/-- In a run of requests of ordinary users nobody becomes an administrator of a channel exactly if all requests are
harmless. -/
theorem noNewAdmin_iff (db last : MemberDb) (reqs : List AddRequest) (hrun : Run.exec step db reqs = some last) :
    Run.AllSpans step NoNewAdmin db reqs ↔ Run.AllSteps step Harmless db reqs :=
  Run.allSpans_iff_allSteps (fun _ _ _ h => h) (fun _ _ _ h h' ch u hu => h ch u (h' ch u hu))
    (fun _ _ _ hs => noNewAdmin_step hs) hrun

/-- A public channel `1`, a private channel `3`, and a user `2` who is no member. -/
def town : MemberDb :=
  ⟨[2], ((∅ : Assoc Uuid Channel).insert 1 ⟨.Public, false⟩).insert 3 ⟨.Private, false⟩, ∅⟩

/-- The user `2` joins the channel. -/
def join (role : Option String) : AddRequest := ⟨⟨2, false, false⟩, 1, 2, role⟩

/-- A user who joins a public channel names the role. -/
theorem joined_as_admin : ¬ Run.AllSpans step NoNewAdmin town [join (some "admin")] := by
  intro h
  obtain ⟨db, hstep, hadmin⟩ : ∃ db, step town (join (some "admin")) = some db ∧ IsAdmin db 1 2 := by
    exact ⟨_, rfl, by decide⟩
  exact absurd (h [] [join (some "admin")] [] rfl town db rfl (Run.exec_singleton.trans hstep) 1 2 hadmin) (by decide)

/-- User `2` joins the public channel under three roles, and asks to be an administrator of the private one. -/
def joins : List AddRequest :=
  [join (some "member"), ⟨⟨2, false, false⟩, 3, 2, some "admin"⟩, join (some "moderator"), join none]

theorem joined_as_member : Run.AllSpans step NoNewAdmin town joins := by
  obtain ⟨last, hrun⟩ : ∃ last, Run.exec step town joins = some last := ⟨_, rfl⟩
  have hrole : ∀ role ∈ [some "member", some "moderator", none], ¬ IsAdminRole (join role).storedRole := by decide
  have hprivate : ∀ db, db.channels = town.channels → Harmless db ⟨⟨2, false, false⟩, 3, 2, some "admin"⟩ := by
    rintro db hdb ⟨channel, hchannel, -, hpublic | hmanage⟩
    · rw [hdb] at hchannel
      obtain rfl := Option.some.inj hchannel
      cases hpublic
    · cases hmanage.1
  refine (noNewAdmin_iff town last joins hrun).2 (Run.allSteps_cons.2 ⟨?_, fun db hdb => Run.allSteps_cons.2 ⟨?_, ?_⟩⟩)
  · exact fun _ _ _ h => absurd h (hrole _ (by simp))
  · obtain rfl := Option.some.inj hdb
    exact hprivate _ rfl
  · refine fun db _ => Run.allSteps_cons.2 ⟨?_, fun db _ => Run.allSteps_cons.2 ⟨?_, fun _ _ => Run.allSteps_nil⟩⟩
    · exact fun _ _ _ h => absurd h (hrole _ (by simp))
    · exact fun _ _ _ h => absurd h (hrole _ (by simp))

end Rustchat.MemberRoles
