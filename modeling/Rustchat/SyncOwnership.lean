import Rustchat.KeycloakSync

/-!
# Whose memberships a sync removes (`services/keycloak_sync.rs`)

The tracking rows say which memberships a syncable has made. A user who leaves takes the membership away and leaves the
row; the membership of a user who joins again is then removed with the row. As long as every join that makes a
membership finds no tracking row of it, and no request under way that has read one or has just made the membership,
no request about syncables removes a membership that another request has made (`Keycloak.spares_of_cleanJoins`).
-/

namespace Rustchat

namespace Keycloak

open Prog

def Tables.IsManual (db : Tables) (m : Membership) (row : MemberRow) : Prop :=
  db.members.lookup m = some row ∧ row.bySyncable = false

def SyncAct.onMembers : SyncAct → Bool
  | .ensureMembership _ _ => true
  | .track _ _ => true
  | .untrack _ _ => true
  | .deleteMembership _ => true
  | .join _ _ _ => true
  | .leave _ => true
  | .deleteUser _ => true
  | _ => false

def SyncAct.ofOther : SyncAct → Bool
  | .join _ _ _ => true
  | .leave _ => true
  | .deleteUser _ => true
  | _ => false

namespace Tables

variable {o : Meets} {db : Tables} {m : Membership} {row : MemberRow} {act : SyncAct}

theorem guarded_eq {α β : Type} (f : Tables → β) {p : Prop} [Decidable p] {a : α} {db' : Tables} (h : f db' = f db) :
    f (db.guarded p a db').2 = f db := by
  unfold guarded
  split
  · exact h
  · rfl

theorem execute_of_not_onMembers (h : act.onMembers = false) :
    (db.execute o act).2.members = db.members ∧ (db.execute o act).2.tracked = db.tracked := by
  have hguarded {α : Type} {p : Prop} [Decidable p] {a : α} {db' : Tables}
      (h' : (db'.members, db'.tracked) = (db.members, db.tracked)) :
      (db.guarded p a db').2.members = db.members ∧ (db.guarded p a db').2.tracked = db.tracked :=
    Prod.mk.inj (guarded_eq (fun d => (d.members, d.tracked)) h')
  cases act with
  | insertGroupMember groupId userId =>
    dsimp only [execute]
    split
    · exact ⟨rfl, rfl⟩
    · exact hguarded rfl
  | patchSyncable key =>
    dsimp only [execute]
    split <;> exact ⟨rfl, rfl⟩
  | upsertGroup => exact hguarded rfl
  | setDmAcl => exact hguarded rfl
  | upsertSyncable => exact hguarded rfl
  | ensureMembership => cases h
  | track => cases h
  | untrack => cases h
  | deleteMembership => cases h
  | join => cases h
  | leave => cases h
  | deleteUser => cases h
  | _ => exact ⟨rfl, rfl⟩

theorem isManual_execute (h : (db.execute o act).2.IsManual m row) :
    (∃ row₀, db.IsManual m row₀) ∨ m ∉ db.members ∧ ∃ role updateRole, act = .join m role updateRole := by
  obtain ⟨hl, hrow⟩ := h
  have hkept (hm : (db.execute o act).2.members = db.members) : ∃ row₀, db.IsManual m row₀ :=
    ⟨row, hm ▸ hl, hrow⟩
  cases act with
  | ensureMembership m' role =>
    by_cases hm' : m' ∈ db.members
    · rw [execute, ensureMembership, if_pos hm'] at hl
      exact .inl ⟨row, hl, hrow⟩
    · rw [execute, ensureMembership, if_neg hm', guarded] at hl
      split at hl
      · rcases Assoc.lookup_insert_cases hl with ⟨-, rfl⟩ | ⟨-, hl⟩
        · cases hrow
        · exact .inl ⟨row, hl, hrow⟩
      · exact .inl ⟨row, hl, hrow⟩
  | join m' role updateRole =>
    rw [execute, join] at hl
    split at hl
    · next row₀ hrow₀ =>
      cases updateRole with
      | false => exact .inl ⟨row, hl, hrow⟩
      | true =>
        rcases Assoc.lookup_insert_cases hl with ⟨rfl, rfl⟩ | ⟨-, hl⟩
        · exact .inl ⟨row₀, hrow₀, hrow⟩
        · exact .inl ⟨row, hl, hrow⟩
    · next hnone =>
      rw [guarded] at hl
      split at hl
      · rcases Assoc.lookup_insert_cases hl with ⟨rfl, -⟩ | ⟨-, hl⟩
        · exact .inr ⟨AList.lookup_eq_none.1 hnone, role, updateRole, rfl⟩
        · exact .inl ⟨row, hl, hrow⟩
      · exact .inl ⟨row, hl, hrow⟩
  | deleteMembership m' => exact .inl ⟨row, (Assoc.lookup_erase_cases hl).2, hrow⟩
  | leave ms =>
    rw [execute, Assoc.lookup_foldl_erase] at hl
    split at hl
    · cases hl
    · exact .inl ⟨row, hl, hrow⟩
  | deleteUser userId =>
    rw [execute, Assoc.lookup_eraseWhere] at hl
    split at hl
    · cases hl
    · exact .inl ⟨row, hl, hrow⟩
  | track key m' => exact .inl (hkept (guarded_eq Tables.members rfl))
  | untrack key m' => exact .inl ⟨row, hl, hrow⟩
  | _ => exact .inl (hkept (execute_of_not_onMembers rfl).1)

theorem isTracked_execute (h : (db.execute o act).2.IsTracked m) :
    db.IsTracked m ∨ ∃ key, act = .track key m := by
  have hkept (hm : (db.execute o act).2.tracked = db.tracked) : db.IsTracked m := by
    unfold IsTracked at h ⊢
    rwa [hm] at h
  cases act with
  | track key m' =>
    obtain ⟨k, hk, rfl⟩ := h
    dsimp only [execute, guarded] at hk
    split at hk
    · rcases Assoc.mem_keys_insert.1 hk with rfl | hk
      · exact .inr ⟨key, rfl⟩
      · exact .inl ⟨k, hk, rfl⟩
    · exact .inl ⟨k, hk, rfl⟩
  | untrack key m' =>
    obtain ⟨k, hk, rfl⟩ := h
    exact .inl ⟨k, (Assoc.mem_keys_erase.1 hk).2, rfl⟩
  | deleteUser userId =>
    obtain ⟨k, hk, rfl⟩ := h
    obtain ⟨u, hu⟩ := Option.isSome_iff_exists.1 (AList.lookup_isSome.2 (AList.mem_keys.2 hk))
    rw [execute, Assoc.lookup_eraseWhere] at hu
    split at hu
    · cases hu
    · exact .inl ⟨k, AList.mem_keys.1 (AList.lookup_isSome.1 (by rw [hu]; rfl)), rfl⟩
  | ensureMembership m' role =>
    refine .inl (hkept ?_)
    rw [execute, ensureMembership]
    split
    · rfl
    · exact guarded_eq Tables.tracked rfl
  | join m' role updateRole =>
    refine .inl (hkept ?_)
    rw [execute, join]
    split
    · cases updateRole <;> rfl
    · exact guarded_eq Tables.tracked rfl
  | deleteMembership m' => exact .inl h
  | leave ms => exact .inl h
  | _ => exact .inl (hkept (execute_of_not_onMembers rfl).2)

/-- A row of another request stays, unless the statement is of another request or deletes the membership. -/
theorem lookup_execute (h : db.IsManual m row) (hdelete : act ≠ .deleteMembership m) (hother : act.ofOther = false) :
    (db.execute o act).2.members.lookup m = some row := by
  obtain ⟨hl, -⟩ := h
  cases act with
  | ensureMembership m' role =>
    by_cases hm' : m' ∈ db.members
    · rw [execute, ensureMembership, if_pos hm']
      exact hl
    · rw [execute, ensureMembership, if_neg hm', guarded]
      split
      · have hne : m ≠ m' := by
          rintro rfl
          exact hm' (AList.lookup_isSome.1 (by rw [hl]; rfl))
        exact Assoc.lookup_insert_eq.trans ((if_neg hne).trans hl)
      · exact hl
  | deleteMembership m' =>
    have hne : m ≠ m' := fun hm => hdelete (by rw [hm])
    exact Assoc.lookup_erase_eq.trans ((if_neg hne).trans hl)
  | track key m' =>
    have hm : (db.execute o (.track key m')).2.members = db.members := guarded_eq Tables.members rfl
    rw [hm]
    exact hl
  | untrack key m' => exact hl
  | join => cases hother
  | leave => cases hother
  | deleteUser => cases hother
  | _ => exact (congrArg (AList.lookup m) (execute_of_not_onMembers rfl).1).trans hl

theorem mem_trackedRows {key : SyncableKey} : m ∈ db.trackedRows key ↔ (key, m) ∈ db.tracked :=
  Assoc.mem_sndKeys

theorem isTracked_iff : db.IsTracked m ↔ ∃ key, (key, m) ∈ db.tracked := by
  constructor
  · rintro ⟨k, hk, rfl⟩
    exact ⟨k.1, AList.mem_keys.1 hk⟩
  · rintro ⟨key, hkey⟩
    exact ⟨(key, m), AList.mem_keys.2 hkey, rfl⟩

theorem perform_cases (o : Meets) (db : Tables) (act : SyncAct) :
    (db.perform o act).2 = db ∨ (db.perform o act).2 = (db.execute o act).2 := by
  unfold perform
  split
  · exact .inr rfl
  · exact .inl rfl
  · exact .inr rfl

theorem answer_perform {r : act.Row} (h : (db.perform o act).1 = .ok r) : (db.execute o act).1 = .ok r := by
  unfold perform at h
  split at h
  · exact h
  · cases h
  · cases h

end Tables

section InHand

variable {m : Membership} {isOther : Bool} {α β : Type}

/-- Only what is in hand is tracked or deleted, and only another request performs its statements. -/
def MayTouch (isOther : Bool) (m : Membership) (inHand : Prop) : SyncAct → Prop
  | .track _ m' => m' = m → inHand
  | .deleteMembership m' => m' = m → inHand
  | .join _ _ _ => isOther = true
  | .leave _ => isOther = true
  | .deleteUser _ => isOther = true
  | _ => True

/-- A membership is in hand when the request reads a tracking row of it, and when it makes the membership. -/
def InHandAfter (m : Membership) (inHand : Prop) : (act : SyncAct) → act.Res → Prop
  | .trackedRows _, .ok (rows : List Membership) => m ∈ rows
  | .ensureMembership m' _, .ok (inserted : Bool) => if m' = m then inserted = true else inHand
  | _, _ => inHand

abbrev SyncTask := Pool.Task SyncRequest SyncAct SyncAct.Res (Except SyncError PUnit)

/-- What is left of a request neither tracks nor deletes the membership unless it reads a tracking row of it, or makes
it, before that. -/
def LetsGo (m : Membership) (task : SyncTask) : Prop :=
  task.prog.Ghost (MayTouch task.label.isOther m) (InHandAfter m) (fun _ _ => True) False

def Tidy (isOther : Bool) (m : Membership) (p : SyncProg α) : Prop :=
  ∀ inHand, Heeds (MayTouch isOther m) (InHandAfter m) p (fun _ _ => True) inHand

section Rules

variable {act : SyncAct} {f : act.Row → SyncProg β} {post : β → Prop → Prop} {inHand : Prop}

theorem heeds_ask_bind (h : MayTouch isOther m inHand act)
    (hf : ∀ r, Heeds (MayTouch isOther m) (InHandAfter m) (f r) post (InHandAfter m inHand act (.ok r))) :
    Heeds (MayTouch isOther m) (InHandAfter m) (ask act >>= f) post inHand := by
  refine ⟨h, fun r => ?_⟩
  cases r with
  | ok a => exact hf a
  | error e =>
    rintro b hb
    cases hb

theorem heeds_ask {post : act.Row → Prop → Prop} (h : MayTouch isOther m inHand act)
    (hpost : ∀ r, post r (InHandAfter m inHand act (.ok r))) :
    Heeds (MayTouch isOther m) (InHandAfter m) (ask act) post inHand := by
  refine ⟨h, fun r a hr => ?_⟩
  obtain rfl : r = .ok a := hr
  exact hpost a

theorem tidy_ask (h : ∀ inHand, MayTouch isOther m inHand act) : Tidy isOther m (ask act) :=
  fun inHand => heeds_ask (h inHand) fun _ => trivial

theorem tidy_ask_bind (h : ∀ inHand, MayTouch isOther m inHand act) (hf : ∀ r, Tidy isOther m (f r)) :
    Tidy isOther m (ask act >>= f) :=
  fun inHand => heeds_ask_bind (h inHand) fun r => hf r _

theorem tidy_pure (a : α) : Tidy isOther m (pure a : SyncProg α) := fun _ => heeds_pure trivial

theorem tidy_throw (e : SyncError) : Tidy isOther m (throw e : SyncProg α) := fun _ => heeds_throw e

theorem Tidy.bind {p : SyncProg α} {f : α → SyncProg β} (h : Tidy isOther m p)
    (hf : ∀ a, Tidy isOther m (f a)) : Tidy isOther m (p >>= f) :=
  fun inHand => (h inHand).bind fun a inHand' _ => hf a inHand'

theorem tidy_forM {body : β → SyncProg PUnit} {items : List β} (h : ∀ item, Tidy isOther m (body item)) :
    Tidy isOther m (items.forM body) :=
  fun _ => heeds_forM (I := fun _ => True) (fun item _ inHand _ => h item inHand) trivial

theorem Tidy.tryCatch {p : SyncProg α} {handle : SyncError → SyncProg α} (h : Tidy isOther m p)
    (hhandle : ∀ e, Tidy isOther m (handle e)) : Tidy isOther m (tryCatch p handle) :=
  fun inHand => (h inHand).tryCatch fun e inHand' => hhandle e inHand'

theorem tidy_foldlM {body : α → β → SyncProg α} {items : List β} {a : α} (h : ∀ a item, Tidy isOther m (body a item)) :
    Tidy isOther m (items.foldlM body a) :=
  fun _ => heeds_foldlM (I := fun _ => True) (fun a item inHand _ => h a item inHand) trivial

theorem tidy_ite {p q : SyncProg α} {c : Prop} [Decidable c] (hp : Tidy isOther m p) (hq : Tidy isOther m q) :
    Tidy isOther m (if c then p else q) := by
  split
  · exact hp
  · exact hq

theorem heeds_hashIter {site : HashSite} {items : List α} {I : Prop → Prop} (h : I inHand) :
    Heeds (MayTouch isOther m) (InHandAfter m) (hashIter site items) (fun _ inHand' => I inHand') inHand :=
  heeds_ask_bind trivial fun _ => heeds_pure h

theorem tidy_hashIter (site : HashSite) (items : List α) : Tidy isOther m (hashIter site items) :=
  fun _ => heeds_hashIter (I := fun _ => True) trivial

theorem tidy_of_heeds {p : SyncProg α}
    (h : ∀ inHand, Heeds (MayTouch isOther m) (InHandAfter m) p (fun _ _ => True) inHand) : Tidy isOther m p := h

theorem Tidy.heeds {p : SyncProg α} (h : Tidy isOther m p) (inHand : Prop) :
    Heeds (MayTouch isOther m) (InHandAfter m) p (fun _ _ => True) inHand := h inHand

end Rules

-- applications of the rules are not to run the programs
attribute [local irreducible] Tidy

/-! ### The programs -/

variable {key : SyncableKey} {rows : List Membership}

theorem heeds_cleanup {m' : Membership} {inHand : Prop} (h : m' = m → inHand) {I : Prop → Prop} (hI : I inHand) :
    Heeds (MayTouch isOther m) (InHandAfter m) (cleanupTrackingMembership key m') (fun _ inHand' => I inHand') inHand := by
  refine heeds_ask_bind trivial fun _ => heeds_ask_bind trivial fun (kept : Bool) => ?_
  cases kept with
  | true => exact heeds_pure hI
  | false => exact heeds_ask h fun _ => hI

theorem heeds_addMembership {schemeAdmin : Bool} {m' : Membership} {inHand : Prop} (h : m ∈ rows → inHand) (hm' : m' ∉ rows) :
    Heeds (MayTouch isOther m) (InHandAfter m) (addMembership key schemeAdmin m') (fun _ inHand' => m ∈ rows → inHand') inHand := by
  refine heeds_ask_bind trivial fun (inserted : Bool) => ?_
  have hkept : m ∈ rows → if m' = m then inserted = true else inHand := by
    intro hm
    have hne : m' ≠ m := fun he => hm' (he ▸ hm)
    rw [if_neg hne]
    exact h hm
  cases inserted with
  | true =>
    refine heeds_ask (fun he => ?_) fun _ => hkept
    show if m' = m then true = true else inHand
    rw [if_pos he]
  | false => exact heeds_pure hkept

theorem tidy_desiredMemberships (autoAdd : Bool) (userIds : List Uuid) :
    Tidy isOther m (desiredMemberships key autoAdd userIds) := by
  refine tidy_ite ?_ (tidy_pure _)
  split
  · exact tidy_pure _
  · refine tidy_ask_bind (fun _ => trivial) fun (team : Option Uuid) => ?_
    cases team with
    | none => exact tidy_throw _
    | some team => exact tidy_pure _

theorem tidy_reconcileGroupSyncable : Tidy isOther m (reconcileGroupSyncable key) := by
  refine tidy_ask_bind (fun _ => trivial) fun (syncable : Option GroupSyncableRow) => ?_
  cases syncable with
  | none => exact tidy_pure _
  | some syncable =>
    refine tidy_ask_bind (fun _ => trivial) fun (userIds : List Uuid) => ?_
    refine (tidy_desiredMemberships _ userIds).bind fun desired => tidy_of_heeds fun inHand => ?_
    refine heeds_ask_bind trivial fun (rows : List Membership) => ?_
    refine (heeds_hashIter (I := fun g => m ∈ rows → g) fun hm => hm).bind fun order g hg => ?_
    refine (heeds_forM (I := fun g => m ∈ rows → g) (fun m' _ g hg => ?_) hg).bind fun _ g hg => ?_
    · split
      · exact heeds_pure hg
      · next hm' => exact heeds_addMembership hg hm'
    · refine (heeds_forM (I := fun g => m ∈ rows → g) (fun m' hm' g hg => ?_) hg).mono fun _ _ _ => trivial
      split
      · exact heeds_pure hg
      · exact heeds_cleanup (fun he : m' = m => hg (he ▸ hm')) hg

theorem tidy_reconcileGroupSyncables (groupId : Uuid) : Tidy isOther m (reconcileGroupSyncables groupId) :=
  tidy_ask_bind (fun _ => trivial) fun _ => tidy_forM fun _ => tidy_reconcileGroupSyncable

theorem tidy_spawnReconcile (groupId : Uuid) : Tidy isOther m (spawnReconcileGroupSyncables groupId) :=
  tidy_ask_bind (fun _ => trivial) fun _ => tidy_forM fun _ => tidy_reconcileGroupSyncable.tryCatch fun _ => tidy_pure _

theorem tidy_cleanupUnlinkedSyncable : Tidy isOther m (cleanupUnlinkedSyncable key) := by
  refine tidy_of_heeds fun inHand => heeds_ask_bind trivial fun (rows : List Membership) => ?_
  refine (heeds_forM (I := fun g => m ∈ rows → g) (fun m' hm' g hg => ?_) fun hm => hm).mono fun _ _ _ => trivial
  exact heeds_cleanup (fun he : m' = m => hg (he ▸ hm')) hg

theorem tidy_syncGroupMembers (groupId : Uuid) (userIds : List Uuid) :
    Tidy isOther m (syncGroupMembers groupId userIds) := by
  refine tidy_ask_bind (fun _ => trivial) fun (current : List Uuid) => (tidy_hashIter _ _).bind fun missing => ?_
  refine Tidy.bind (tidy_foldlM fun n userId => ?_) fun added => (tidy_hashIter _ _).bind fun surplus => ?_
  · exact tidy_ask_bind (fun _ => trivial) fun _ => tidy_pure _
  · refine Tidy.bind (tidy_foldlM fun n userId => ?_) fun _ => tidy_pure _
    exact tidy_ask_bind (fun _ => trivial) fun _ => tidy_pure _

theorem tidy_syncGroupSyncables (parseUuid : String → Option Uuid) (groupId : Uuid) (group : KeycloakGroup) :
    Tidy isOther m (syncGroupSyncablesFromAttributes parseUuid groupId group) := by
  have hupsert (autoAdd schemeAdmin : Bool) (current : List (SyncableKey × GroupSyncableRow))
      (changed : List (SyncableKey × Bool)) (key : SyncableKey) :
      Tidy isOther m (upsertAttributeSyncable autoAdd schemeAdmin current changed key) :=
    tidy_ite (tidy_pure _) (tidy_ask_bind (fun _ => trivial) fun _ => tidy_pure _)
  refine tidy_ask_bind (fun _ => trivial) fun (current : List (SyncableKey × GroupSyncableRow)) => ?_
  refine (tidy_hashIter _ _).bind fun teams => (tidy_foldlM fun _ _ => hupsert _ _ _ _ _).bind fun changed => ?_
  refine (tidy_hashIter _ _).bind fun channels => (tidy_foldlM fun _ _ => hupsert _ _ _ _ _).bind fun changed => ?_
  refine (tidy_hashIter _ _).bind fun unlinked => tidy_foldlM fun changed row => ?_
  exact tidy_ask_bind (fun _ => trivial) fun _ => tidy_pure _

theorem tidy_syncGroup (config : SyncConfig) (parseUuid : String → Option Uuid) (token : String)
    (report : KeycloakSyncReport) (kcGroup : KeycloakGroup) :
    Tidy isOther m (syncGroup config parseUuid token report kcGroup) := by
  refine tidy_ask_bind (fun _ => trivial) fun (groupId : Uuid) => ?_
  refine tidy_ask_bind (fun _ => trivial) fun (kcMembers : List String) => ?_
  refine Tidy.bind (tidy_ite (tidy_pure _) (tidy_ask fun _ => trivial)) fun (userIds : List Uuid) => ?_
  refine (tidy_syncGroupMembers groupId userIds).bind fun counts => ?_
  refine tidy_ask_bind (fun _ => trivial) fun _ => (tidy_syncGroupSyncables _ _ _).bind fun changed => ?_
  refine (tidy_reconcileGroupSyncables groupId).bind fun _ => ?_
  refine (tidy_forM fun change => ?_).bind fun _ => tidy_pure _
  exact tidy_ite tidy_cleanupUnlinkedSyncable tidy_reconcileGroupSyncable

theorem tidy_deactivateRemovedKeycloakGroups (remoteIds : List String) :
    Tidy isOther m (deactivateRemovedKeycloakGroups remoteIds) := by
  refine tidy_ask_bind (fun _ => trivial) fun (existing : List (Uuid × String)) => tidy_forM fun group => ?_
  refine tidy_ite (tidy_pure _) ?_
  refine tidy_ask_bind (fun _ => trivial) fun (syncables : List SyncableKey) => ?_
  refine (tidy_forM fun _ => tidy_cleanupUnlinkedSyncable).bind fun _ => ?_
  refine tidy_ask_bind (fun _ => trivial) fun _ => tidy_ask_bind (fun _ => trivial) fun _ => ?_
  exact tidy_ask_bind (fun _ => trivial) fun _ => tidy_ask fun _ => trivial

theorem tidy_validateSyncConfig (config : SyncConfig) : Tidy isOther m (validateSyncConfig config) :=
  tidy_ite (tidy_throw _) (tidy_pure _)

theorem tidy_runFullSync (config : SyncConfig) (parseUuid : String → Option Uuid) :
    Tidy isOther m (runFullSync config parseUuid) := by
  refine (tidy_validateSyncConfig config).bind fun _ => tidy_ask_bind (fun _ => trivial) fun (token : String) => ?_
  refine tidy_ask_bind (fun _ => trivial) fun (trees : List KeycloakTree) => ?_
  refine (tidy_foldlM fun report kcGroup => tidy_syncGroup config parseUuid token report kcGroup).bind fun report => ?_
  exact (tidy_deactivateRemovedKeycloakGroups _).bind fun _ => tidy_pure _

theorem tidy_resyncGroup (token externalId : String) (userId : Uuid) (report : KeycloakSyncReport)
    (kcGroup : KeycloakGroup) : Tidy isOther m (resyncGroup token externalId userId report kcGroup) := by
  refine tidy_ask_bind (fun _ => trivial) fun (groupId : Uuid) => tidy_ask_bind (fun _ => trivial) fun _ => ?_
  refine tidy_ask_bind (fun _ => trivial) fun members => tidy_ask_bind (fun _ => trivial) fun currentlyMember => ?_
  refine tidy_ite ?_ (tidy_ite ?_ (tidy_pure _))
  · exact tidy_ask_bind (fun _ => trivial) fun _ => (tidy_reconcileGroupSyncables groupId).bind fun _ => tidy_pure _
  · exact tidy_ask_bind (fun _ => trivial) fun _ => (tidy_reconcileGroupSyncables groupId).bind fun _ => tidy_pure _

theorem tidy_resyncUser (config : SyncConfig) (userId : Uuid) :
    Tidy isOther m (resyncUser config userId) := by
  refine (tidy_validateSyncConfig config).bind fun _ => tidy_ask_bind (fun _ => trivial) fun (user : Option UserRow) => ?_
  cases user with
  | none => exact tidy_throw _
  | some user =>
    dsimp only
    split
    · exact tidy_pure _
    · next externalId _ =>
      refine tidy_ask_bind (fun _ => trivial) fun (token : String) => ?_
      refine tidy_ask_bind (fun _ => trivial) fun (trees : List KeycloakTree) => ?_
      exact tidy_foldlM fun report kcGroup => tidy_resyncGroup token externalId userId report kcGroup

theorem letsGo_program (config : SyncConfig) (parseUuid : String → Option Uuid) (request : SyncRequest) :
    LetsGo m ⟨request, (request.program config parseUuid).run⟩ := by
  have htidy : Tidy request.isOther m (request.program config parseUuid) := by
    cases request <;> dsimp only [SyncRequest.program]
    case runFullSync => exact (tidy_runFullSync config parseUuid).bind fun _ => tidy_pure _
    case resyncUser userId =>
      exact Tidy.bind (tidy_resyncUser config userId) fun _ => tidy_pure _
    case linkGroupSyncable key autoAdd schemeAdmin =>
      exact tidy_ask_bind (fun _ => trivial) fun _ => tidy_reconcileGroupSyncable
    case unlinkGroupSyncable key =>
      exact tidy_ask_bind (fun _ => trivial) fun (deleted : Bool) => tidy_ite tidy_cleanupUnlinkedSyncable (tidy_throw _)
    case patchGroupSyncable key autoAdd schemeAdmin =>
      exact tidy_ask_bind (fun _ => trivial) fun (patched : Bool) => tidy_ite tidy_reconcileGroupSyncable (tidy_throw _)
    case addGroupMembers groupId userIds =>
      refine (tidy_forM fun userId => ?_).bind fun _ => tidy_spawnReconcile groupId
      exact tidy_ask_bind (fun _ => trivial) fun _ => tidy_pure _
    case deleteGroupMembers groupId userIds =>
      refine (tidy_forM fun userId => ?_).bind fun _ => tidy_spawnReconcile groupId
      exact tidy_ask_bind (fun _ => trivial) fun _ => tidy_pure _
    case change d => exact tidy_ask fun _ => trivial
    all_goals exact tidy_ask fun _ => rfl
  exact Ghost.mono (htidy.heeds False) fun _ _ _ => trivial

end InHand

/-! ### Runs -/

abbrev SyncPool := Pool Tables SyncRequest SyncAct SyncAct.Res (Except SyncError PUnit)

abbrev SyncInput := Pool.Input SyncRequest Meets

namespace SyncPool

variable (config : SyncConfig) (parseUuid : String → Option Uuid)

def step : SyncPool → SyncInput → Option SyncPool :=
  Pool.step (fun request => (request.program config parseUuid).run) fun _ o act db => db.perform o act

def start (d : Directory) (members : Assoc Membership MemberRow) : SyncPool := Pool.start ⟨d, ∅, members⟩

/-- A join that makes a membership finds no tracking row of it, and no request that has it in hand. -/
def CleanJoin (pool : SyncPool) : SyncInput → Prop
  | .spawn _ _ => True
  | .step t _ => ∀ request m role updateRole next, pool.Performs t request (.join m role updateRole) next →
      m ∉ pool.shared.members →
        ¬ pool.shared.IsTracked m ∧ ∀ t' task, pool.tasks.lookup t' = some task → LetsGo m task

/-- A request about syncables removes and changes no membership that another request has made. -/
def SparesManual (pool : SyncPool) (input : SyncInput) : Prop :=
  ∀ pool' t o request act next, input = .step t o → pool.Performs t request act next → request.isOther = false →
    step config parseUuid pool input = some pool' →
      ∀ m row, pool.shared.IsManual m row → pool'.shared.members.lookup m = some row

/-- Of a membership that another request has made there is no tracking row, and no request has it in hand. -/
def Apart (pool : SyncPool) : Prop :=
  ∀ m row, pool.shared.IsManual m row →
    ¬ pool.shared.IsTracked m ∧ ∀ t task, pool.tasks.lookup t = some task → LetsGo m task

variable {config parseUuid} {pool pool' : SyncPool} {input : SyncInput}

theorem letsGo_answer {o : Meets} {db : Tables} {m : Membership} {row : MemberRow} {act : SyncAct} (h : db.IsManual m row)
    (htracked : ¬ db.IsTracked m) : InHandAfter m False act (db.perform o act).1 → False := by
  intro hhand
  cases hanswer : (db.perform o act).1 with
  | error e =>
    rw [hanswer] at hhand
    cases act <;> exact hhand
  | ok r =>
    have hexecute := Tables.answer_perform hanswer
    rw [hanswer] at hhand
    cases act with
    | trackedRows key =>
      have hrows : r = List.reorder o.order (db.trackedRows key) := (Except.ok.inj hexecute).symm
      have hm : m ∈ List.reorder o.order (db.trackedRows key) := hrows ▸ hhand
      exact htracked (Tables.isTracked_iff.2 ⟨key, Tables.mem_trackedRows.1 (List.mem_reorder.1 hm)⟩)
    | ensureMembership m' role =>
      have hhand : if m' = m then r = true else False := hhand
      split at hhand
      · next hm =>
        have hpresent : m' ∈ db.members := hm ▸ AList.lookup_isSome.1 (by rw [h.1]; rfl)
        rw [Tables.execute, Tables.ensureMembership, if_pos hpresent] at hexecute
        subst hhand
        cases hexecute
      · exact hhand
    | _ => exact hhand

/-- A membership of another request after a step: nothing tracks it and no request has it in hand before the step, which
finds it or is the join that makes it. -/
theorem isManual_step {t : ℕ} {o : Meets} {request : SyncRequest} {act : SyncAct} {next : act.Res → Prog SyncAct SyncAct.Res _}
    {m : Membership} {row : MemberRow} (h : pool.Apart) (hclean : pool.CleanJoin (.step t o))
    (hp : pool.Performs t request act next) (hrow : (pool.shared.perform o act).2.IsManual m row) :
    ¬ pool.shared.IsTracked m ∧ (∀ t' task, pool.tasks.lookup t' = some task → LetsGo m task) ∧
      ((∃ row₀, pool.shared.IsManual m row₀) ∨ ∃ role updateRole, act = .join m role updateRole) := by
  have hbefore : (∃ row₀, pool.shared.IsManual m row₀) ∨
      m ∉ pool.shared.members ∧ ∃ role updateRole, act = .join m role updateRole := by
    rcases Tables.perform_cases o pool.shared act with heq | heq
    · rw [heq] at hrow
      exact .inl ⟨row, hrow⟩
    · rw [heq] at hrow
      exact Tables.isManual_execute hrow
  rcases hbefore with ⟨row₀, hrow₀⟩ | ⟨hnew, role, updateRole, rfl⟩
  · exact ⟨(h m row₀ hrow₀).1, (h m row₀ hrow₀).2, .inl ⟨row₀, hrow₀⟩⟩
  · obtain ⟨htracked, hgo⟩ := hclean request m role updateRole next hp hnew
    exact ⟨htracked, hgo, .inr ⟨role, updateRole, rfl⟩⟩

theorem Apart.step (h : pool.Apart) (hclean : pool.CleanJoin input) (hs : step config parseUuid pool input = some pool') :
    pool'.Apart := by
  rcases Pool.step_cases hs with ⟨t, request, rfl, hl, rfl⟩ | ⟨t, o, request, act, next, rfl, hp, rfl⟩
  · -- a request begins
    intro m row hrow
    obtain ⟨htracked, hgo⟩ := h m row hrow
    refine ⟨htracked, fun t' task htask => ?_⟩
    rcases Assoc.lookup_insert_cases htask with ⟨-, rfl⟩ | ⟨-, htask⟩
    · exact letsGo_program config parseUuid request
    · exact hgo t' task htask
  · -- a request performs a statement
    intro m row hrow
    obtain ⟨htracked, hgo, hbefore⟩ := isManual_step h hclean hp hrow
    obtain ⟨hmay, hnext⟩ := hgo t _ hp
    constructor
    · intro htracked'
      have hafter : (pool.shared.execute o act).2.IsTracked m := by
        rcases Tables.perform_cases o pool.shared act with heq | heq
        · exact absurd (heq ▸ htracked') htracked
        · exact heq ▸ htracked'
      rcases Tables.isTracked_execute hafter with hold | ⟨key, rfl⟩
      · exact htracked hold
      · exact hmay rfl
    · intro t' task htask
      rcases Assoc.lookup_insert_cases htask with ⟨-, rfl⟩ | ⟨-, htask⟩
      · have hhand : InHandAfter m False act (pool.shared.perform o act).1 = False := by
          refine eq_false ?_
          rcases hbefore with ⟨row₀, hrow₀⟩ | ⟨role, updateRole, rfl⟩
          · exact letsGo_answer hrow₀ htracked
          · exact id
        have hrest := hnext (pool.shared.perform o act).1
        rw [hhand] at hrest
        exact hrest
      · exact hgo t' task htask

theorem Apart.spares (h : pool.Apart) : SparesManual config parseUuid pool input := by
  rintro pool' t o request act next rfl hp hrequest hs m row hrow
  obtain ⟨-, hgo⟩ := h m row hrow
  obtain ⟨hmay, -⟩ := hgo t _ hp
  have hother : act.ofOther = false := by
    cases act with
    | join => exact absurd (hrequest.symm.trans hmay) nofun
    | leave => exact absurd (hrequest.symm.trans hmay) nofun
    | deleteUser => exact absurd (hrequest.symm.trans hmay) nofun
    | _ => rfl
  have hdelete : act ≠ .deleteMembership m := by
    rintro rfl
    exact hmay rfl
  obtain rfl := Option.some.inj ((Pool.step_step hp).symm.trans hs)
  show (pool.shared.perform o act).2.members.lookup m = some row
  rcases Tables.perform_cases o pool.shared act with heq | heq
  · rw [heq]
    exact hrow.1
  · rw [heq]
    exact Tables.lookup_execute hrow hdelete hother

/-- In every run in which every join that makes a membership finds no tracking row of it, and no request that has it in
hand, no request about syncables removes a membership that another request has made. -/
theorem spares_of_cleanJoins (config : SyncConfig) (parseUuid : String → Option Uuid) (d : Directory)
    (members : Assoc Membership MemberRow) (inputs : List SyncInput)
    (hclean : Run.AllSteps (step config parseUuid) CleanJoin (start d members) inputs) :
    Run.AllSteps (step config parseUuid) (SparesManual config parseUuid) (start d members) inputs := by
  have hstart : (start d members).Apart := by
    intro m row _
    refine ⟨?_, fun t task htask => ?_⟩
    · rintro ⟨k, hk, -⟩
      exact List.not_mem_nil hk
    · rw [start, Pool.lookup_start] at htask
      cases htask
  have hapart := Run.allStates_of_allSteps (fun _ _ _ h hclean hs => Apart.step h hclean hs) hstart hclean
  exact hclean.of_invariant hapart fun _ _ h _ => h.spares

/-- A Keycloak group with a user whom it adds to a team. -/
def oneSyncable : Directory where
  users := AList.insert 1 ⟨some "keycloak", some "ann", false⟩ ∅
  teams := [5]
  channels := ∅
  groups := AList.insert 10 ⟨"Staff", "", groupSourceKeycloak, some "staff", true, false⟩ ∅
  groupMembers := AList.insert (10, 1) () ∅
  groupSyncables := ∅
  groupDmAclFlags := ∅

def syncConfig : SyncConfig := ⟨"https://sso.a.b", "chat", "chat", "secret", "keycloak"⟩

/-- A statement that is answered; Keycloak has no groups. -/
def fine : Meets := ⟨.answered, .database, [], 0, "token", [], []⟩

/-- A request that performs `n` statements. -/
def alone (t : ℕ) (request : SyncRequest) (n : ℕ) : List SyncInput :=
  .spawn t request :: List.replicate n (.step t fine)

/-- The group is linked to the team, the user leaves the team and joins again. -/
def rejoined : List SyncInput :=
  alone 0 (.linkGroupSyncable ⟨10, .team, 5⟩ (some true) none) 7 ++ alone 1 (.leave [⟨.team, 5, 1⟩]) 1 ++
    alone 2 (.join ⟨.team, 5, 1⟩ "member" false) 1

/-- The user joined again; the sync in which the group is gone from Keycloak takes the membership away. -/
theorem sync_removes_rejoined : ¬ Run.AllSteps (step syncConfig Uuid.ofHyphenated)
    (SparesManual syncConfig Uuid.ofHyphenated) (start oneSyncable ∅)
    (rejoined ++ alone 3 .runFullSync 8) := by
  intro h
  have hspares := h (rejoined ++ alone 3 .runFullSync 7) (.step 3 fine) [] rfl _ rfl _ 3 fine .runFullSync
    (.deleteMembership ⟨.team, 5, 1⟩) _ rfl rfl rfl rfl ⟨.team, 5, 1⟩ ⟨"member", false⟩ ⟨rfl, rfl⟩
  cases hspares

/-- The user is in the team before the group is linked to it, and stays when the group is gone from Keycloak. -/
theorem sync_spares_joined : Run.AllSteps (step syncConfig Uuid.ofHyphenated)
    (SparesManual syncConfig Uuid.ofHyphenated) (start oneSyncable ∅)
    (alone 0 (.join ⟨.team, 5, 1⟩ "member" false) 1 ++ alone 1 (.linkGroupSyncable ⟨10, .team, 5⟩ (some true) none) 6 ++
      alone 2 .runFullSync 9) := by
  refine spares_of_cleanJoins syncConfig Uuid.ofHyphenated oneSyncable ∅ _
    (Run.allSteps_cons.2 ⟨trivial, fun s hs => ?_⟩)
  cases hs
  refine Run.allSteps_cons.2 ⟨fun request m role updateRole next hp _ => ?_, fun s hs => ?_⟩
  · refine ⟨?_, fun t task htask => ?_⟩
    · rintro ⟨k, hk, -⟩
      exact List.not_mem_nil hk
    · rcases Assoc.lookup_insert_cases htask with ⟨-, rfl⟩ | ⟨-, htask⟩
      · exact ⟨rfl, fun _ => trivial⟩
      · cases htask
  · cases hs
    -- none of the other statements is a join
    iterate 17
      refine Run.allSteps_cons.2 ⟨?_, fun s hs => ?_⟩
      on_goal 1 => first | exact trivial | exact fun _ _ _ _ _ hp => by cases hp
      cases hs
    exact Run.allSteps_nil

end SyncPool

end Keycloak

end Rustchat
