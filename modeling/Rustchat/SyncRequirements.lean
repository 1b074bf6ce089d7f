import Rustchat.Lib.Owned
import Rustchat.SyncOwnership

/-!
# The memberships that syncables require (`api/v4/groups.rs`)

To link, unlink or reconcile a syncable adds and drops what this one syncable wants, and whether a membership stays is
decided by the tracking rows. So a membership is removed that a syncable requires which has not made it, and one that
is tracked and gone is not made again. `Keycloak.requirementsMet_iff` says when every requirement is met in the end.
-/

namespace Rustchat

namespace Keycloak

open Prog

/-- Some active syncable is to add the user to the team or channel. -/
def Directory.Requires (d : Directory) (m : Membership) : Prop :=
  ∃ groupId row, d.groupSyncables.lookup ⟨groupId, m.targetType, m.targetId⟩ = some row ∧ row.deleted = false ∧
    row.autoAdd = true ∧ (groupId, m.userId) ∈ d.groupMembers

def Tables.RequirementsMet (db : Tables) : Prop := ∀ m, db.Requires m → m ∈ db.members

/-- The foreign keys of the migrations. -/
structure Tables.References (db : Tables) : Prop where
  groupUser : ∀ k ∈ db.groupMembers, k.2 ∈ db.users
  syncableGroup : ∀ k ∈ db.groupSyncables, k.groupId ∈ db.groups
  channelTeam : ∀ c t, db.channels.lookup c = some t → t ∈ db.teams
  memberTarget : ∀ m ∈ db.members, db.HasTarget m

inductive SyncableOp
  | link (autoAdd schemeAdmin : Option Bool)
  | unlink
  | reconcile

def carriedOut (o : SyncAct → Meets) (act : SyncAct) (db : Tables) : act.Res × Tables :=
  db.execute (o act) act

namespace SyncableOp

variable (op : SyncableOp) (key : SyncableKey) (db : Tables)

def program (config : SyncConfig) (parseUuid : String → Option Uuid) : SyncableOp → SyncProg PUnit
  | link autoAdd schemeAdmin => SyncRequest.program config parseUuid (.linkGroupSyncable key autoAdd schemeAdmin)
  | unlink => SyncRequest.program config parseUuid (.unlinkGroupSyncable key)
  | reconcile => reconcileGroupSyncable key

/-- The state in the end, with nothing else going on. -/
def after (config : SyncConfig) (parseUuid : String → Option Uuid) (o : SyncAct → Meets) : Tables :=
  ((op.program key config parseUuid).run.eval (carriedOut o) db).2

/-- `fetch_group_for_syncable` and `ensure_syncable_exists` -/
def Accepted : SyncableOp → Prop
  | reconcile => True
  | _ => key.groupId ∈ db.groups ∧ ∀ userId, db.HasTarget ⟨key.kind, key.syncableId, userId⟩

/-- What the links are then. -/
def linked : SyncableOp → Directory
  | link autoAdd schemeAdmin => { db.toDirectory with
      groupSyncables := db.groupSyncables.insert key ⟨autoAdd.getD false, schemeAdmin.getD false, false⟩ }
  | unlink => { db.toDirectory with groupSyncables := db.groupSyncables.erase key }
  | reconcile => db.toDirectory

end SyncableOp

/-- The teams and channels that a syncable is to add its users to; none if its channel is not there. -/
def Directory.targets (d : Directory) (key : SyncableKey) (autoAdd : Bool) :
    Option (List (SyncableKind × Uuid)) :=
  if autoAdd then
    match key.kind with
    | .team => some [(.team, key.syncableId)]
    | .channel => (d.channels.lookup key.syncableId).map fun teamId => [(.team, teamId),
      (.channel, key.syncableId)]
  else some []

/-- None if no membership is touched. -/
def SyncableOp.targets (key : SyncableKey) (db : Tables) : SyncableOp → Option (List (SyncableKind × Uuid))
  | link autoAdd _ => db.targets key (autoAdd.getD false)
  | unlink => if key ∈ db.groupSyncables then some [] else none
  | reconcile => ((db.groupSyncables.lookup key).filter (·.deleted = false)).bind fun row => db.targets key row.autoAdd

def Directory.Wants (d : Directory) (key : SyncableKey) (targets : List (SyncableKind × Uuid))
    (m : Membership) : Prop :=
  (m.targetType, m.targetId) ∈ targets ∧ (key.groupId, m.userId) ∈ d.groupMembers

instance (d : Directory) (key : SyncableKey) (targets : List (SyncableKind × Uuid)) (m : Membership) :
    Decidable (d.Wants key targets m) :=
  inferInstanceAs (Decidable (_ ∧ _))

/-- The membership is added, or it is there and is not removed. -/
def SyncableOp.Fulfills (op : SyncableOp) (key : SyncableKey) (db : Tables) (m : Membership) : Prop :=
  match op.targets key db with
  | none => m ∈ db.members
  | some targets =>
    db.Wants key targets m ∧ (key, m) ∉ db.tracked ∧ db.HasTarget m ∨
      m ∈ db.members ∧ (¬ db.Wants key targets m → (key, m) ∈ db.tracked → ∃ key' ≠ key, (key', m) ∈ db.tracked)

theorem eval_ask_ok {β : Type} {o : SyncAct → Meets} {db db' : Tables} (act : SyncAct) {r : act.Row}
    {f : act.Row → SyncProg β} (h : db.execute (o act) act = (.ok r, db')) :
    (ask act >>= f).run.eval (carriedOut o) db = (f r).run.eval (carriedOut o) db' := eval_run_bind_ok h

/-- A membership, with the syncables that have a tracking row of it. -/
def Tables.owned (db : Tables) (m : Membership) : Owned SyncableKey :=
  ⟨m ∈ db.members, {k | (k, m) ∈ db.tracked}⟩

section Owners
variable {o : SyncAct → Meets} {db db' db₁ : Tables} {key : SyncableKey} {m m' : Membership} {ms rows : List Membership}
  {schemeAdmin : Bool}

def Tables.cleaned (key : SyncableKey) (db : Tables) (m : Membership) : Tables :=
  let untracked := { db with tracked := db.tracked.erase (key, m) }
  if untracked.IsTracked m then untracked else { untracked with members := untracked.members.erase m }

theorem eval_cleanup : (cleanupTrackingMembership key m).run.eval (carriedOut o) db = (.ok (), db.cleaned key m) := by
  let untracked := { db with tracked := db.tracked.erase (key, m) }
  have heval : (cleanupTrackingMembership key m).run.eval (carriedOut o) db =
      (if decide (untracked.IsTracked m) then pure () else ask (.deleteMembership m) : SyncProg PUnit).run.eval
        (carriedOut o) untracked := rfl
  by_cases h : untracked.IsTracked m
  · rw [heval, decide_eq_true h]
    exact congrArg (Prod.mk _) (if_pos h).symm
  · rw [heval, decide_eq_false h]
    exact congrArg (Prod.mk _) (if_neg h).symm

theorem owned_cleaned (h : (key, m) ∈ db.tracked) :
    (db.cleaned key m).owned m' = if m' = m then (db.owned m).drop key else db.owned m' := by
  let untracked := { db with tracked := db.tracked.erase (key, m) }
  have hother (k : SyncableKey) (m' : Membership) :
      (k, m') ∈ untracked.tracked ↔ (k, m') ∈ db.tracked ∧ ¬ (k = key ∧ m' = m) := by
    rw [AList.mem_erase, and_comm, Ne, Prod.mk.injEq]
  have htracked : untracked.IsTracked m ↔ ∃ k ∈ (db.owned m).owners, k ≠ key := by
    rw [Tables.isTracked_iff]
    exact exists_congr fun k => by rw [hother, and_iff_left rfl]; rfl
  have howners : (db.cleaned key m).tracked = untracked.tracked := by
    unfold Tables.cleaned
    dsimp only
    split <;> rfl
  have hpresent (m' : Membership) : m' ∈ (db.cleaned key m).members ↔
      m' ∈ db.members ∧ (m' = m → ∃ k ∈ (db.owned m).owners, k ≠ key) := by
    rw [← htracked, Tables.cleaned]
    dsimp only
    split
    · next hk => exact (and_iff_left fun _ => hk).symm
    · next hk =>
      rw [AList.mem_erase, and_comm]
      exact and_congr_right fun _ => ⟨fun hne he => absurd he hne, fun hi he => hk (hi he)⟩
  unfold Tables.owned Owned.drop
  by_cases he : m' = m
  · subst he
    rw [if_pos rfl, howners]
    ext k
    · exact (hpresent m').trans (and_congr_right fun _ => ⟨fun hi _ => hi rfl, fun hi _ => hi h⟩)
    · exact (hother k m').trans (and_congr_right fun _ => not_congr (and_iff_left rfl))
  · rw [if_neg he, howners]
    ext k
    · exact (hpresent m').trans (and_iff_left fun h => absurd h he)
    · exact (hother k m').trans (and_iff_left fun h => he h.2)

theorem cleaned_rows (key : SyncableKey) (db : Tables) (m : Membership) : (db.cleaned key m).toDirectory = db.toDirectory ∧
    ∀ m' ∈ (db.cleaned key m).members, m' ∈ db.members := by
  unfold Tables.cleaned
  dsimp only
  split
  · exact ⟨rfl, fun _ h => h⟩
  · exact ⟨rfl, fun _ h => (AList.mem_erase.1 h).2⟩

theorem owned_foldl_cleaned (hms : ms.Nodup) (h : ∀ m ∈ ms, (key, m) ∈ db.tracked) :
    (ms.foldl (Tables.cleaned key) db).owned m = if m ∈ ms then (db.owned m).drop key else db.owned m := by
  induction ms generalizing db with
  | nil => rfl
  | cons m₀ ms ih =>
    obtain ⟨hm₀, hms⟩ := List.nodup_cons.1 hms
    have hrow : (key, m₀) ∈ db.tracked := h m₀ List.mem_cons_self
    have hrest : ∀ m ∈ ms, (key, m) ∈ (db.cleaned key m₀).tracked := by
      intro m hm
      have hne : m ≠ m₀ := ne_of_mem_of_not_mem hm hm₀
      have howned : (db.cleaned key m₀).owned m = db.owned m := by rw [owned_cleaned hrow, if_neg hne]
      exact (congrArg (key ∈ Owned.owners ·) howned).mpr (h m (List.mem_cons_of_mem _ hm))
    rw [List.foldl_cons, ih hms hrest, owned_cleaned hrow]
    by_cases he : m = m₀
    · subst he
      rw [if_neg hm₀, if_pos rfl, if_pos List.mem_cons_self]
    · simp only [he, if_false, List.mem_cons, false_or]

theorem foldl_cleaned_rows (key : SyncableKey) (ms : List Membership) (db : Tables) : (ms.foldl (Tables.cleaned key) db).toDirectory = db.toDirectory ∧
    ∀ m ∈ (ms.foldl (Tables.cleaned key) db).members, m ∈ db.members := by
  induction ms generalizing db with
  | nil => exact ⟨rfl, fun _ h => h⟩
  | cons m₀ ms ih =>
    obtain ⟨hdir, hmembers⟩ := ih (db.cleaned key m₀)
    obtain ⟨hdir₀, hmembers₀⟩ := cleaned_rows key db m₀
    exact ⟨hdir.trans hdir₀, fun m hm => hmembers₀ m (hmembers m hm)⟩

structure Adds (key : SyncableKey) (ms : List Membership) (db : Tables)
    (e : Except SyncError Unit × Tables) : Prop where
  directory : e.2.toDirectory = db.toDirectory
  members : ∀ m ∈ e.2.members, m ∈ db.members ∨ db.HasTarget m
  outcome : match e.1 with
    | .ok _ => ∀ m, e.2.owned m = if m ∈ ms then (db.owned m).add key else db.owned m
    | .error _ => ∃ m ∈ ms, m ∉ db.members ∧ ¬ db.HasTarget m

theorem adds_nil : Adds key [] db (.ok (), db) := ⟨rfl, fun _ h => .inl h, fun _ => rfl⟩

theorem Adds.cons {e : Except SyncError Unit × Tables} (h₁ : Adds key [m] db (.ok (), db₁)) (h : Adds key ms db₁ e)
    (hm : m ∉ ms) : Adds key (m :: ms) db e := by
  obtain ⟨hdir₁, hmembers₁, howned₁⟩ := h₁
  have htarget (m : Membership) : db₁.HasTarget m ↔ db.HasTarget m := by rw [hdir₁]
  have hother : ∀ m' ∈ ms, db₁.owned m' = db.owned m' := by
    intro m' hm'
    have hne : m' ≠ m := ne_of_mem_of_not_mem hm' hm
    rw [howned₁, if_neg fun he => hne (List.mem_singleton.1 he)]
  refine ⟨h.directory.trans hdir₁, fun m' hm' => ?_, ?_⟩
  · rcases h.members m' hm' with h' | h'
    · exact hmembers₁ m' h'
    · exact .inr ((htarget m').1 h')
  · obtain ⟨_ | _, db'⟩ := e
    · obtain ⟨m', hm', hnew, hnone⟩ := h.outcome
      refine ⟨m', List.mem_cons_of_mem _ hm', fun hmem => hnew ?_, fun ht => hnone ((htarget m').2 ht)⟩
      exact (congrArg Owned.present (hother m' hm')).mpr hmem
    · intro m'
      rw [h.outcome m']
      by_cases hm' : m' ∈ ms
      · rw [if_pos hm', hother m' hm', if_pos (List.mem_cons_of_mem _ hm')]
      · rw [if_neg hm', howned₁ m']
        simp only [List.mem_cons, hm', List.not_mem_nil, or_false]

theorem adds_addMembership (hgroup : key.groupId ∈ db.groups) (huser : m.userId ∈ db.users) (hnew : (key, m) ∉ db.tracked) :
    Adds key [m] db ((addMembership key schemeAdmin m).run.eval (carriedOut o) db) := by
  let act : SyncAct := .ensureMembership m (if schemeAdmin then "admin" else "member")
  by_cases hm : m ∈ db.members
  · have heval : (addMembership key schemeAdmin m).run.eval (carriedOut o) db = (.ok (), db) :=
      eval_ask_ok act (if_pos hm)
    rw [heval]
    refine ⟨rfl, fun _ h => .inl h, fun m' => ?_⟩
    split
    · next hm' =>
      rw [List.mem_singleton.1 hm']
      exact (Owned.add_of_present hm).symm
    · rfl
  · by_cases ht : db.HasTarget m
    · let row : MemberRow := ⟨if schemeAdmin then "admin" else "member", true⟩
      let inserted := { db with members := db.members.insert m row }
      let tracked := { inserted with tracked := db.tracked.insert (key, m) () }
      have hinsert : db.execute (o act) act = (.ok true, inserted) := (if_neg hm).trans (if_pos ⟨ht, huser⟩)
      have htrack : inserted.execute (o (.track key m)) (.track key m) = (.ok (), tracked) :=
        if_pos ⟨hgroup, huser⟩
      have heval : (addMembership key schemeAdmin m).run.eval (carriedOut o) db = (.ok (), tracked) :=
        (eval_ask_ok act hinsert).trans htrack
      rw [heval]
      refine ⟨rfl, fun m' hm' => ?_, fun m' => ?_⟩
      · rcases (AList.mem_insert _).1 hm' with rfl | hm'
        · exact .inr ht
        · exact .inl hm'
      · have hpresent : m' ∈ tracked.members ↔ m' = m ∨ m' ∈ db.members := AList.mem_insert _
        have howner (k : SyncableKey) : (k, m') ∈ tracked.tracked ↔
          (k = key ∧ m' = m) ∨ (k, m') ∈ db.tracked := by
          rw [← Prod.mk.injEq]
          exact AList.mem_insert _
        by_cases he : m' = m
        · subst he
          rw [if_pos (List.mem_singleton_self m')]
          ext k
          · exact iff_of_true (hpresent.2 (.inl rfl)) (.inr hnew)
          · exact (howner k).trans (or_comm.trans (or_congr_right (and_congr_right fun _ => iff_of_true rfl hm)))
        · rw [if_neg fun h => he (List.mem_singleton.1 h)]
          ext k
          · exact hpresent.trans (or_iff_right he)
          · exact (howner k).trans (or_iff_right fun h => he h.2)
    · have heval : (addMembership key schemeAdmin m).run.eval (carriedOut o) db = (.error .database, db) :=
        eval_run_bind_error (p := ask act) ((if_neg hm).trans (if_neg fun h => ht h.1))
      rw [heval]
      exact ⟨rfl, fun _ h => .inl h, m, List.mem_singleton_self m, hm, ht⟩

theorem adds_forM (hgroup : key.groupId ∈ db.groups) (husers : ∀ m ∈ ms, m.userId ∈ db.users) (hms : ms.Nodup)
    (hrows : ∀ m ∈ ms, m ∉ rows → (key, m) ∉ db.tracked) :
    Adds key (ms.filter (· ∉ rows)) db
      ((ms.forM fun m => if m ∈ rows then pure () else addMembership key schemeAdmin m).run.eval (carriedOut o) db) := by
  induction ms generalizing db with
  | nil => exact adds_nil
  | cons m ms ih =>
    obtain ⟨hm, hms⟩ := List.nodup_cons.1 hms
    have husers' : ∀ m ∈ ms, m.userId ∈ db.users := fun m hm => husers m (List.mem_cons_of_mem _ hm)
    have hrows' : ∀ m ∈ ms, m ∉ rows → (key, m) ∉ db.tracked :=
      fun m hm => hrows m (List.mem_cons_of_mem _ hm)
    have hcons : ((m :: ms).forM fun m => if m ∈ rows then pure () else addMembership key schemeAdmin m) =
        (if m ∈ rows then pure () else addMembership key schemeAdmin m) >>= fun _ =>
          ms.forM fun m => if m ∈ rows then pure () else addMembership key schemeAdmin m := rfl
    rw [hcons, eval_run_bind]
    by_cases hrow : m ∈ rows
    · rw [if_pos hrow, List.filter_cons_of_neg (by simpa using hrow)]
      exact ih hgroup husers' hms hrows'
    · rw [if_neg hrow, List.filter_cons_of_pos (by simpa using hrow)]
      have hadd : Adds key [m] db ((addMembership key schemeAdmin m).run.eval (carriedOut o) db) :=
        adds_addMembership hgroup (husers m List.mem_cons_self) (hrows m List.mem_cons_self hrow)
      generalize (addMembership key schemeAdmin m).run.eval (carriedOut o) db = e at hadd ⊢
      obtain ⟨_ | _, db₁⟩ := e
      · obtain ⟨m', hm', hnone⟩ := hadd.outcome
        exact ⟨hadd.directory, hadd.members, m', List.mem_cons.2 (.inl (List.mem_singleton.1 hm')), hnone⟩
      · have hdir : db₁.toDirectory = db.toDirectory := hadd.directory
        have hrows₁ : ∀ m' ∈ ms, m' ∉ rows → (key, m') ∉ db₁.tracked := by
          intro m' hm' hnew htracked
          have hne : m' ≠ m := ne_of_mem_of_not_mem hm' hm
          have howned : db₁.owned m' = db.owned m' := by
            rw [hadd.outcome m', if_neg fun he => hne (List.mem_singleton.1 he)]
          exact hrows' m' hm' hnew ((congrArg (key ∈ Owned.owners ·) howned).mp htracked)
        have hgroup₁ : key.groupId ∈ db₁.groups := by rw [hdir]; exact hgroup
        have husers₁ : ∀ m ∈ ms, m.userId ∈ db₁.users := by rw [hdir]; exact husers'
        exact hadd.cons (ih hgroup₁ husers₁ hms hrows₁) fun h => hm (List.mem_filter.1 h).1

end Owners

/-! ### One syncable -/

section Reconcile
variable {o : SyncAct → Meets} {db db' : Tables} {key : SyncableKey} {m : Membership} {userIds : List Uuid}
  {targets : List (SyncableKind × Uuid)}

theorem mem_groupUserIds {groupId userId : Uuid} :
    userId ∈ db.groupUserIds groupId ↔ (groupId, userId) ∈ db.groupMembers :=
  Assoc.mem_sndKeys

theorem eval_desiredMemberships (o : SyncAct → Meets) (userIds : List Uuid) {autoAdd : Bool}
    (htargets : db.targets key autoAdd = some targets) :
    ∃ ms, (desiredMemberships key autoAdd userIds).run.eval (carriedOut o) db = (.ok ms, db) ∧
      ∀ m, m ∈ ms ↔ (m.targetType, m.targetId) ∈ targets ∧ m.userId ∈ userIds := by
  unfold Directory.targets at htargets
  unfold desiredMemberships
  cases autoAdd with
  | false =>
    cases htargets
    exact ⟨[], rfl, fun m => by simp⟩
  | true =>
    rw [if_pos rfl] at htargets ⊢
    cases hkind : key.kind with
    | team =>
      rw [hkind] at htargets
      cases htargets
      refine ⟨_, rfl, fun m => ?_⟩
      obtain ⟨kind, targetId, userId⟩ := m
      simp only [List.mem_map, List.mem_singleton, Membership.mk.injEq, Prod.mk.injEq]
      constructor
      · rintro ⟨u, hu, rfl, rfl, rfl⟩
        exact ⟨⟨rfl, rfl⟩, hu⟩
      · rintro ⟨⟨rfl, rfl⟩, hu⟩
        exact ⟨userId, hu, rfl, rfl, rfl⟩
    | channel =>
      rw [hkind] at htargets
      obtain ⟨teamId, hteam, rfl⟩ := Option.map_eq_some_iff.1 htargets
      have hask : db.execute (o (.channelTeam key.syncableId)) (.channelTeam key.syncableId) = (.ok (some teamId), db) :=
        congrArg (fun team => (Except.ok team, db)) hteam
      refine ⟨_, eval_ask_ok (.channelTeam key.syncableId) hask, fun m => ?_⟩
      obtain ⟨kind, targetId, userId⟩ := m
      simp only [List.mem_flatMap, List.mem_cons, List.not_mem_nil, or_false, Membership.mk.injEq,
        Prod.mk.injEq]
      constructor
      · rintro ⟨u, hu, ⟨rfl, rfl, rfl⟩ | ⟨rfl, rfl, rfl⟩⟩
        · exact ⟨.inl ⟨rfl, rfl⟩, hu⟩
        · exact ⟨.inr ⟨rfl, rfl⟩, hu⟩
      · rintro ⟨⟨rfl, rfl⟩ | ⟨rfl, rfl⟩, hu⟩
        · exact ⟨userId, hu, .inl ⟨rfl, rfl, rfl⟩⟩
        · exact ⟨userId, hu, .inr ⟨rfl, rfl, rfl⟩⟩

theorem eval_desiredMemberships_none {autoAdd : Bool} (htargets : db.targets key autoAdd = none) :
    (desiredMemberships key autoAdd userIds).run.eval (carriedOut o) db = (.error (.notFound "Channel not found"), db) := by
  unfold Directory.targets at htargets
  unfold desiredMemberships
  cases autoAdd with
  | false => cases htargets
  | true =>
    rw [if_pos rfl] at htargets ⊢
    cases hkind : key.kind with
    | team =>
      rw [hkind] at htargets
      cases htargets
    | channel =>
      rw [hkind] at htargets
      have hask : db.execute (o (.channelTeam key.syncableId)) (.channelTeam key.syncableId) = (.ok none, db) :=
        congrArg (fun team => (Except.ok team, db)) (Option.map_eq_none_iff.1 htargets)
      exact eval_ask_ok (.channelTeam key.syncableId) hask

/-- What becomes of the memberships if a syncable is reconciled, unless one cannot be added. -/
structure Reconciles (key : SyncableKey) (targets : List (SyncableKind × Uuid)) (db : Tables)
    (e : Except SyncError Unit × Tables) : Prop where
  directory : e.2.toDirectory = db.toDirectory
  members : ∀ m ∈ e.2.members, m ∈ db.members ∨ db.HasTarget m
  outcome : match e.1 with
    | .ok _ => ∀ m, e.2.owned m = if db.Wants key targets m then (db.owned m).add key else (db.owned m).drop key
    | .error _ => ∃ m, db.Wants key targets m ∧ m ∉ db.members ∧ ¬ db.HasTarget m

theorem nodup_trackedRows : (db.trackedRows key).Nodup := Assoc.nodup_sndKeys

/-- What is wanted and not tracked is added, then what is tracked and not wanted is cleaned up. -/
theorem reconciles_loops {rows desired order : List Membership} {schemeAdmin : Bool} (hdb : db.References)
    (hgroup : key.groupId ∈ db.groups) (hrows : rows.Perm (db.trackedRows key))
    (hdesired : ∀ m, m ∈ desired ↔ db.Wants key targets m) (horder : order.Perm desired.dedup) :
    Reconciles key targets db ((do
      order.forM fun m => if m ∈ rows then pure () else addMembership key schemeAdmin m
      rows.forM fun m => if m ∈ desired then pure () else cleanupTrackingMembership key m : SyncProg PUnit).run.eval
        (carriedOut o) db) := by
  have hmemRows {m : Membership} : m ∈ rows ↔ (key, m) ∈ db.tracked :=
    hrows.mem_iff.trans Tables.mem_trackedRows
  have hmemOrder {m : Membership} : m ∈ order ↔ db.Wants key targets m :=
    (horder.mem_iff.trans List.mem_dedup).trans (hdesired m)
  have hadds : Adds key (order.filter (· ∉ rows)) db
      ((order.forM fun m => if m ∈ rows then pure () else addMembership key schemeAdmin m).run.eval (carriedOut o) db) :=
    adds_forM hgroup (fun m hm => hdb.groupUser _ (hmemOrder.1 hm).2) (horder.nodup_iff.2 (List.nodup_dedup _))
      fun m _ hnew htracked => hnew (hmemRows.2 htracked)
  have hmemAdded {m : Membership} : m ∈ order.filter (· ∉ rows) ↔
    db.Wants key targets m ∧ (key, m) ∉ db.tracked := by
    rw [List.mem_filter, hmemOrder, decide_eq_true_eq, hmemRows]
  have hcleanups (db : Tables) :
      (rows.forM fun m => if m ∈ desired then pure () else cleanupTrackingMembership key m).run.eval (carriedOut o) db =
        (.ok (), (rows.filter (· ∉ desired)).foldl (Tables.cleaned key) db) := by
    rw [List.foldl_filter]
    refine eval_run_forM (fun m db => ?_) rows db
    by_cases hm : m ∈ desired
    · rw [if_pos hm, if_neg (by simpa using hm)]
      rfl
    · rw [if_neg hm, if_pos (by simpa using hm)]
      exact eval_cleanup
  rw [eval_run_bind]
  generalize (order.forM fun m => if m ∈ rows then pure () else addMembership key schemeAdmin m).run.eval
    (carriedOut o) db = e at hadds ⊢
  obtain ⟨_ | _, db₁⟩ := e
  · obtain ⟨m, hm, hnone⟩ := hadds.outcome
    exact ⟨hadds.directory, hadds.members, m, (hmemAdded.1 hm).1, hnone⟩
  · dsimp only
    rw [hcleanups]
    obtain ⟨hdir, hmembers⟩ := foldl_cleaned_rows key (rows.filter (· ∉ desired)) db₁
    refine ⟨hdir.trans hadds.directory, fun m hm => hadds.members m (hmembers m hm), fun m => ?_⟩
    have hsame {m : Membership} (hm : ¬ db.Wants key targets m) : db₁.owned m = db.owned m := by
      rw [hadds.outcome m, if_neg fun h => hm (hmemAdded.1 h).1]
    have hmemDropped {m : Membership} :
        m ∈ rows.filter (· ∉ desired) ↔ (key, m) ∈ db.tracked ∧ ¬ db.Wants key targets m := by
      rw [List.mem_filter, decide_eq_true_eq, hmemRows, hdesired]
    have htracked : ∀ m ∈ rows.filter (· ∉ desired), (key, m) ∈ db₁.tracked := by
      intro m hm
      obtain ⟨hrow, hwants⟩ := hmemDropped.1 hm
      exact (congrArg (key ∈ Owned.owners ·) (hsame hwants)).mpr hrow
    rw [owned_foldl_cleaned ((hrows.nodup_iff.2 nodup_trackedRows).filter _) htracked]
    by_cases hwants : db.Wants key targets m
    · rw [if_pos hwants, if_neg fun h => (hmemDropped.1 h).2 hwants, hadds.outcome m]
      by_cases hrow : (key, m) ∈ db.tracked
      · rw [if_neg fun h => (hmemAdded.1 h).2 hrow]
        exact (Owned.add_of_owner hrow).symm
      · rw [if_pos (hmemAdded.2 ⟨hwants, hrow⟩)]
    · rw [if_neg hwants, hsame hwants]
      by_cases hrow : (key, m) ∈ db.tracked
      · rw [if_pos (hmemDropped.2 ⟨hrow, hwants⟩)]
      · rw [if_neg fun h => hrow (hmemDropped.1 h).1]
        exact (Owned.drop_of_not_owner hrow).symm

theorem reconciles_reconcile {row : GroupSyncableRow} (hdb : db.References) (hrow : db.groupSyncables.lookup key = some row)
    (hactive : row.deleted = false) (htargets : db.targets key row.autoAdd = some targets) :
    Reconciles key targets db ((reconcileGroupSyncable key).run.eval (carriedOut o) db) := by
  have hgroup : key.groupId ∈ db.groups := hdb.syncableGroup key (AList.lookup_isSome.1 (by rw [hrow]; rfl))
  let userIds := List.reorder (o (.groupUserIds key.groupId)).order (db.groupUserIds key.groupId)
  obtain ⟨desired, hdesired, hmem⟩ := eval_desiredMemberships o userIds htargets
  let rows := List.reorder (o (.trackedRows key)).order (db.trackedRows key)
  let order := List.reorder (o (.hashOrder (.desired key))).order desired.dedup
  have hfound : (db.groupSyncables.lookup key).filter (·.deleted = false) = some row := by
    rw [hrow, Option.filter_some, if_pos (decide_eq_true hactive)]
  have hsyncable : db.execute (o (.activeSyncable key)) (.activeSyncable key) = (.ok (some row), db) :=
    congrArg (fun found => (Except.ok found, db)) hfound
  have heval : (reconcileGroupSyncable key).run.eval (carriedOut o) db = ((do
      order.forM fun m => if m ∈ rows then pure () else addMembership key row.schemeAdmin m
      rows.forM fun m => if m ∈ desired then pure () else cleanupTrackingMembership key m : SyncProg PUnit).run.eval
        (carriedOut o) db) :=
    (eval_ask_ok (.activeSyncable key) hsyncable).trans <| (eval_ask_ok (.groupUserIds key.groupId) rfl).trans <|
      (eval_run_bind_ok hdesired).trans <| (eval_ask_ok (.trackedRows key) rfl).trans <| eval_run_bind_ok rfl
  rw [heval]
  refine reconciles_loops hdb hgroup (List.reorder_perm _ _) (fun m => ?_) (List.reorder_perm _ _)
  rw [hmem, List.mem_reorder, mem_groupUserIds]
  rfl

end Reconcile

/-! ### When every requirement is met -/

section Requirements
variable {db : Tables} {op : SyncableOp} {key : SyncableKey} {m : Membership}
    {targets : List (SyncableKind × Uuid)}

def SyncableOp.relinked (op : SyncableOp) (key : SyncableKey) (db : Tables) : Tables :=
  { db with toDirectory := op.linked key db }

theorem references_relinked (hdb : db.References) (hop : op.Accepted key db) :
    (op.relinked key db).References := by
  cases op with
  | link autoAdd schemeAdmin =>
    refine { hdb with syncableGroup := fun k hk => ?_ }
    rcases (AList.mem_insert _).1 hk with rfl | hk
    · exact hop.1
    · exact hdb.syncableGroup k hk
  | unlink => exact { hdb with syncableGroup := fun k hk => hdb.syncableGroup k (AList.mem_erase.1 hk).2 }
  | reconcile => exact hdb

theorem after_unlink (config : SyncConfig) (parseUuid : String → Option Uuid) (o : SyncAct → Meets)
    (h : key ∈ db.groupSyncables) : ∃ e, SyncableOp.unlink.after key db config parseUuid o = e.2 ∧
      Reconciles key [] (SyncableOp.unlink.relinked key db) e := by
  let db₁ := SyncableOp.unlink.relinked key db
  let rows := List.reorder (o (.trackedRows key)).order (db₁.trackedRows key)
  have hrows : rows.Perm (db₁.trackedRows key) := List.reorder_perm _ _
  have hmemRows {m : Membership} : m ∈ rows ↔ (key, m) ∈ db₁.tracked :=
    hrows.mem_iff.trans Tables.mem_trackedRows
  have hdelete : db.execute (o (.deleteSyncable key)) (.deleteSyncable key) = (.ok true, db₁) :=
    congrArg (fun found => (Except.ok found, db₁)) (decide_eq_true h)
  have heval : (SyncableOp.unlink.program key config parseUuid).run.eval (carriedOut o) db =
      (.ok (), rows.foldl (Tables.cleaned key) db₁) :=
    (eval_ask_ok (.deleteSyncable key) hdelete).trans <| (eval_ask_ok (.trackedRows key) rfl).trans <|
      eval_run_forM (fun _ _ => eval_cleanup) rows db₁
  refine ⟨_, rfl, ?_⟩
  rw [heval]
  obtain ⟨hdir, hmembers⟩ := foldl_cleaned_rows key rows db₁
  refine ⟨hdir, fun m hm => .inl (hmembers m hm), fun m => ?_⟩
  rw [if_neg fun hwants => List.not_mem_nil hwants.1]
  refine (owned_foldl_cleaned (hrows.nodup_iff.2 nodup_trackedRows) fun m hm => hmemRows.1 hm).trans ?_
  split
  · rfl
  · next hm => exact (Owned.drop_of_not_owner fun hrow => hm (hmemRows.2 hrow)).symm

theorem eval_reconcile_none {o : SyncAct → Meets} (h : (db.groupSyncables.lookup key).filter (·.deleted = false) = none) :
    (reconcileGroupSyncable key).run.eval (carriedOut o) db = (.ok (), db) :=
  eval_ask_ok (.activeSyncable key) (r := none) (congrArg (fun found => (Except.ok found, db)) h)

theorem eval_reconcile_no_channel {o : SyncAct → Meets} {row : GroupSyncableRow}
    (h : (db.groupSyncables.lookup key).filter (·.deleted = false) = some row)
    (htargets : db.targets key row.autoAdd = none) :
    (reconcileGroupSyncable key).run.eval (carriedOut o) db = (.error (.notFound "Channel not found"), db) :=
  (eval_ask_ok (.activeSyncable key) (congrArg (fun found => (Except.ok found, db)) h)).trans <|
    (eval_ask_ok (.groupUserIds key.groupId) rfl).trans <| eval_run_bind_error (eval_desiredMemberships_none htargets)

theorem after_cases (config : SyncConfig) (parseUuid : String → Option Uuid) (o : SyncAct → Meets) (op : SyncableOp)
    (hdb : db.References) (hop : op.Accepted key db) :
    op.targets key db = none ∧ op.after key db config parseUuid o = op.relinked key db ∨
      ∃ targets e, op.targets key db = some targets ∧ op.after key db config parseUuid o = e.2 ∧
        Reconciles key targets (op.relinked key db) e := by
  cases op with
  | link autoAdd schemeAdmin =>
    let row : GroupSyncableRow := ⟨autoAdd.getD false, schemeAdmin.getD false, false⟩
    let db₁ := (SyncableOp.link autoAdd schemeAdmin).relinked key db
    have hlink : db.execute (o (.upsertSyncable key row.autoAdd row.schemeAdmin))
        (.upsertSyncable key row.autoAdd row.schemeAdmin) = (.ok (), db₁) := if_pos hop.1
    have heval : (SyncableOp.link autoAdd schemeAdmin).after key db config parseUuid o =
        ((reconcileGroupSyncable key).run.eval (carriedOut o) db₁).2 :=
      congrArg Prod.snd (eval_ask_ok (.upsertSyncable key row.autoAdd row.schemeAdmin) hlink)
    have hrow : db₁.groupSyncables.lookup key = some row := Assoc.lookup_insert_self
    cases htargets : db₁.targets key row.autoAdd with
    | none =>
      refine .inl ⟨htargets, heval.trans ?_⟩
      have hfound : (db₁.groupSyncables.lookup key).filter (·.deleted = false) = some row := by
        rw [hrow]
        rfl
      rw [eval_reconcile_no_channel hfound htargets]
    | some targets =>
      exact .inr ⟨targets, _, htargets, heval,
        reconciles_reconcile (references_relinked hdb hop) hrow rfl htargets⟩
  | unlink =>
    by_cases h : key ∈ db.groupSyncables
    · obtain ⟨e, hafter, he⟩ := after_unlink config parseUuid o h
      exact .inr ⟨[], e, if_pos h, hafter, he⟩
    · have hdelete : db.execute (o (.deleteSyncable key)) (.deleteSyncable key) =
          (.ok false, SyncableOp.unlink.relinked key db) :=
        congrArg (fun found => (Except.ok found, SyncableOp.unlink.relinked key db)) (decide_eq_false h)
      exact .inl ⟨if_neg h, congrArg Prod.snd (eval_ask_ok (.deleteSyncable key) hdelete)⟩
  | reconcile =>
    cases hfound : (db.groupSyncables.lookup key).filter (·.deleted = false) with
    | none =>
      refine .inl ⟨?_, congrArg Prod.snd (eval_reconcile_none hfound)⟩
      unfold SyncableOp.targets
      rw [hfound]
      rfl
    | some row =>
      obtain ⟨hrow, hactive⟩ := Option.filter_eq_some_iff.1 hfound
      have hop : SyncableOp.reconcile.targets key db = db.targets key row.autoAdd := by
        unfold SyncableOp.targets
        rw [hfound]
        rfl
      cases htargets : db.targets key row.autoAdd with
      | none => exact .inl ⟨hop.trans htargets, congrArg Prod.snd (eval_reconcile_no_channel hfound htargets)⟩
      | some targets =>
        exact .inr ⟨targets, _, hop.trans htargets, rfl,
          reconciles_reconcile hdb hrow (of_decide_eq_true hactive) htargets⟩

/-- What a syncable wants is required, or it is a membership of its channel or of the channel's team. -/
theorem wants_cases {autoAdd : Bool} (hdb : db.References) (htargets : db.targets key autoAdd = some targets)
    (hwants : db.Wants key targets m) :
    autoAdd = true ∧ m.targetType = key.kind ∧ m.targetId = key.syncableId ∨ db.HasTarget m := by
  obtain ⟨kind, targetId, userId⟩ := m
  unfold Directory.targets at htargets
  split at htargets
  · next hauto =>
    cases hkind : key.kind with
    | team =>
      rw [hkind] at htargets
      cases htargets
      obtain ⟨hkind', hid⟩ := Prod.mk.inj (List.mem_singleton.1 hwants.1)
      exact .inl ⟨hauto, hkind', hid⟩
    | channel =>
      rw [hkind] at htargets
      obtain ⟨teamId, hteam, rfl⟩ := Option.map_eq_some_iff.1 htargets
      rcases List.mem_cons.1 hwants.1 with heq | heq
      · cases heq
        exact .inr (hdb.channelTeam _ _ hteam)
      · cases List.mem_singleton.1 heq
        exact .inr (AList.lookup_isSome.1 (by rw [hteam]; rfl))
  · cases htargets
    exact absurd hwants.1 List.not_mem_nil

theorem requires_of_wants (hdb : db.References) (htargets : op.targets key db = some targets)
    (hwants : db.Wants key targets m) (hnone : ¬ db.HasTarget m) : (op.linked key db).Requires m := by
  obtain ⟨kind, targetId, userId⟩ := m
  cases op with
  | link autoAdd schemeAdmin =>
    obtain ⟨hauto, hkind, hid⟩ := (wants_cases hdb htargets hwants).resolve_right hnone
    cases hkind
    cases hid
    exact ⟨key.groupId, _, Assoc.lookup_insert_self, rfl, hauto, hwants.2⟩
  | unlink =>
    have hlinked : (if key ∈ db.groupSyncables then some [] else none) = some targets := htargets
    split at hlinked
    · cases hlinked
      exact absurd hwants.1 List.not_mem_nil
    · cases hlinked
  | reconcile =>
    obtain ⟨row, hfound, hrow⟩ := Option.bind_eq_some_iff.1 htargets
    obtain ⟨hlookup, hactive⟩ := Option.filter_eq_some_iff.1 hfound
    obtain ⟨hauto, hkind, hid⟩ := (wants_cases hdb hrow hwants).resolve_right hnone
    cases hkind
    cases hid
    exact ⟨key.groupId, row, hlookup, of_decide_eq_true hactive, hauto, hwants.2⟩

theorem hasTarget_linked : (op.linked key db).HasTarget m ↔ db.HasTarget m := by cases op <;> rfl

theorem wants_linked : (op.linked key db).Wants key targets m ↔ db.Wants key targets m := by cases op <;> rfl

end Requirements

/-- Two groups with one user are linked to a team; the first one has made the membership. -/
def shared : Tables where
  users := AList.insert 1 ⟨none, none, false⟩ ∅
  teams := [5]
  channels := ∅
  groups := AList.insert 10 ⟨"Staff", "", "custom", none, true, false⟩
    (AList.insert 11 ⟨"Board", "", "custom", none, true, false⟩ ∅)
  groupMembers := AList.insert (10, 1) () (AList.insert (11, 1) () ∅)
  groupSyncables := AList.insert ⟨10, .team, 5⟩ ⟨true, false, false⟩
    (AList.insert ⟨11, .team, 5⟩ ⟨true, false, false⟩ ∅)
  groupDmAclFlags := ∅
  tracked := AList.insert (⟨10, .team, 5⟩, ⟨.team, 5, 1⟩) () ∅
  members := AList.insert ⟨.team, 5, 1⟩ ⟨"member", true⟩ ∅

theorem references_shared : shared.References where
  groupUser := by
    intro k hk
    have hkeys : k ∈ [((10 : Uuid), (1 : Uuid)), (11, 1)] := hk
    simp only [List.mem_cons, List.not_mem_nil, or_false] at hkeys
    rcases hkeys with rfl | rfl
    · decide
    · decide
  syncableGroup := by
    show ∀ k ∈ shared.groupSyncables.keys, k.groupId ∈ shared.groups
    decide +kernel
  channelTeam := fun c t h => by cases h
  memberTarget := by
    show ∀ m ∈ shared.members.keys, shared.HasTarget m
    decide +kernel

end Keycloak

end Rustchat
