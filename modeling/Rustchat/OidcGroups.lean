import Rustchat.KeycloakSync

/-!
# Groups of the identity token (`sync_oidc_groups`)

A login makes a group of each name in the token, and the user a member of it; nothing takes a member out. The upsert
names the columns of an index that has a predicate: PostgreSQL does not find such an index, and refuses the statement.
`infersPartial` is whether it is found, and what follows holds for both. The sync is one transaction, and a login goes on
when it fails. Keys of providers have no blanks, so that a text that is too long for its column is refused.
-/

namespace Rustchat

namespace OidcGroups

/-- The columns of `Keycloak.GroupRow`, and the name that must be unique. -/
structure GroupRow extends Keycloak.GroupRow where
  name : Option String

structure Tables where
  groups : Assoc Uuid GroupRow
  -- group and user
  groupMembers : Assoc (Uuid × Uuid) Unit

/-- What is used of PostgreSQL, and `str::to_lowercase`. -/
structure Server where
  toLowercase : String → String
  -- `LOWER`
  lower : String → String
  infersPartial : Bool
  -- the id of a new group
  drawn : String → Uuid

/-- A column `VARCHAR(n)` takes the text. -/
def Fits (n : ℕ) (text : String) : Prop := text.length ≤ n ∧ Char.ofNat 0 ∉ text.toList

instance (n : ℕ) (text : String) : Decidable (Fits n text) := inferInstanceAs (Decidable (_ ∧ _))

variable (server : Server) (source : String) (userId : Uuid)

def normalizedName (groupName : String) : String :=
  String.ofList ((server.toLowercase groupName).toList.map fun c => if c = ' ' then '_' else c)

/-- The upsert of a group with its id; `none` is an error of the database. -/
def upsertGroup (db : Tables) (groupName : String) : Option (Uuid × Tables) :=
  let remoteId := normalizedName server groupName
  if server.infersPartial = false ∨ ¬ Fits 64 remoteId ∨ ¬ Fits 128 groupName ∨ ¬ Fits 64 source then none
  else
    match db.groups.entries.find? fun e => e.2.source = source && e.2.remoteId = some remoteId with
    | some ⟨id, row⟩ =>
      some (id, { db with groups := db.groups.insert id { row with displayName := groupName, deleted := false } })
    | none =>
      -- the name of a group of any source
      if (db.groups.entries.find? fun e => e.2.name.map server.lower = some (server.lower remoteId)).isSome ∨
          server.drawn remoteId ∈ db.groups then none
      else
        let row : GroupRow :=
          { displayName := groupName, description := "", source, remoteId := some remoteId, allowReference := true,
            deleted := false, name := some remoteId }
        some (server.drawn remoteId, { db with groups := db.groups.insert (server.drawn remoteId) row })

def ensureMember (db : Tables) (groupName : String) : Option Tables :=
  (upsertGroup server source db groupName).map fun p =>
    { p.2 with groupMembers := Assoc.insertNew (p.1, userId) () p.2.groupMembers }

/-- `sync_oidc_groups` -/
def syncOidcGroups (authProvider : String) (db : Tables) (groups : List String) : Option Tables :=
  groups.foldlM (fun db groupName =>
    if trimText groupName = "" then some db
    else ensureMember server ("oidc:" ++ authProvider) userId db (trimText groupName)) db

/-- The tables after the sync of `callback`. -/
def synced (providerKey : String) (db : Tables) (groups : List String) : Tables :=
  if groups = [] then db else (syncOidcGroups server userId providerKey db groups).getD db

/-- The groups of the source that the user is in, without deleted ones. -/
def memberships (db : Tables) : List String :=
  Assoc.views (fun id row =>
    if row.source = source ∧ row.deleted = false ∧ (id, userId) ∈ db.groupMembers then row.remoteId else none) db.groups

/-- The names of the list, without blank ones. -/
def names (groups : List String) : List String := (groups.map trimText).filter (· ≠ "")

def listed (groups : List String) : List String := (names groups).map (normalizedName server)

/-- The user's groups are those of the list after the sync. -/
def Exact (providerKey : String) (db : Tables) (groups : List String) : Prop :=
  ∀ remoteId, remoteId ∈ memberships ("oidc:" ++ providerKey) userId (synced server userId providerKey db groups) ↔
    remoteId ∈ listed server groups

def HasGroup (db : Tables) (remoteId : String) : Prop :=
  Assoc.Any (fun row => row.source = source ∧ row.remoteId = some remoteId) db.groups

def NameTaken (db : Tables) (lowered : String) : Prop :=
  Assoc.Any (fun row => row.name.map server.lower = some lowered) db.groups

def FitsColumns (groupName : String) : Prop :=
  Fits 64 (normalizedName server groupName) ∧ Fits 128 groupName ∧ Fits 64 source

def Free (db : Tables) (remoteId : String) : Prop :=
  ¬ HasGroup source db remoteId → ¬ NameTaken server db (server.lower remoteId) ∧ server.drawn remoteId ∉ db.groups

def Apart (db : Tables) (n m : String) : Prop :=
  ¬ HasGroup source db n → ¬ HasGroup source db m → n ≠ m →
    server.lower n ≠ server.lower m ∧ server.drawn n ≠ server.drawn m

/-- No statement of the sync is refused. -/
structure Accepted (db : Tables) (groupNames : List String) : Prop where
  infers : server.infersPartial = true
  fits : ∀ d ∈ groupNames, FitsColumns server source d
  free : ∀ n ∈ groupNames.map (normalizedName server), Free server source db n
  apart : ∀ n ∈ groupNames.map (normalizedName server), ∀ m ∈ groupNames.map (normalizedName server),
    Apart server source db n m

/-! ### One group -/

section

variable {server : Server} {source : String} {userId : Uuid} {db db' : Tables} {groupName : String}

theorem mem_memberships {remoteId : String} : remoteId ∈ memberships source userId db ↔
    ∃ id row, db.groups.lookup id = some row ∧ row.source = source ∧ row.deleted = false ∧
      (id, userId) ∈ db.groupMembers ∧ row.remoteId = some remoteId := by
  rw [memberships, Assoc.mem_views]
  simp [and_assoc]

theorem mem_memberships_insert {id : Uuid} {row : GroupRow} {n : String} (hsource : row.source = source)
    (hdeleted : row.deleted = false) (hremote : row.remoteId = some n)
    (hold : ∀ old, db.groups.lookup id = some old → old.remoteId = some n) (remoteId : String) :
    remoteId ∈ memberships source userId
        ⟨db.groups.insert id row, Assoc.insertNew (id, userId) () db.groupMembers⟩ ↔
      remoteId ∈ memberships source userId db ∨ remoteId = n := by
  rw [mem_memberships, mem_memberships]
  constructor
  · rintro ⟨id', row', hl, hs, hd, hm, hr⟩
    rcases Assoc.lookup_insert_cases hl with ⟨rfl, rfl⟩ | ⟨hne, hl⟩
    · exact .inr (Option.some.inj (hr.symm.trans hremote))
    · rcases Assoc.mem_insertNew.1 hm with hm | heq
      · exact .inl ⟨id', row', hl, hs, hd, hm, hr⟩
      · exact absurd (Prod.ext_iff.1 heq).1 hne
  · have hnew : (id, userId) ∈ Assoc.insertNew (id, userId) () db.groupMembers := Assoc.mem_insertNew.2 (.inr rfl)
    rintro (⟨id', row', hl, hs, hd, hm, hr⟩ | rfl)
    · by_cases hid : id' = id
      · subst hid
        rw [hold row' hl] at hr
        exact ⟨id', row, Assoc.lookup_insert_self, hsource, hdeleted, hnew, hremote.trans hr⟩
      · refine ⟨id', row', ?_, hs, hd, Assoc.mem_insertNew.2 (.inl hm), hr⟩
        rw [Assoc.lookup_insert_eq, if_neg hid, hl]
    · exact ⟨id, row, Assoc.lookup_insert_self, hsource, hdeleted, hnew, hremote⟩

structure Added (server : Server) (source : String) (userId : Uuid) (db db' : Tables) (n : String) : Prop where
  memberships : ∀ m, m ∈ memberships source userId db' ↔ m ∈ memberships source userId db ∨ m = n
  hasGroup : ∀ m, HasGroup source db' m ↔ m = n ∨ HasGroup source db m
  nameTaken : ∀ l, NameTaken server db' l ↔ ¬ HasGroup source db n ∧ server.lower n = l ∨ NameTaken server db l
  used : ∀ id, id ∈ db'.groups ↔ ¬ HasGroup source db n ∧ id = server.drawn n ∨ id ∈ db.groups

theorem hasGroup_iff {n : String} : HasGroup source db n ↔
    (db.groups.entries.find? fun e => e.2.source = source && e.2.remoteId = some n) ≠ none :=
  Assoc.any_iff_find? (fun row : GroupRow => row.source = source && row.remoteId = some n) (by simp)

theorem nameTaken_iff {l : String} : NameTaken server db l ↔
    (db.groups.entries.find? fun e => e.2.name.map server.lower = some l) ≠ none :=
  Assoc.any_iff_find? (fun row : GroupRow => row.name.map server.lower = some l) (by simp)

theorem added_of_update {id : Uuid} {row : GroupRow} {n : String} (hl : db.groups.lookup id = some row)
    (hsource : row.source = source) (hremote : row.remoteId = some n) :
    Added server source userId db ⟨db.groups.insert id { row with displayName := groupName, deleted := false },
      Assoc.insertNew (id, userId) () db.groupMembers⟩ n := by
  have hhas : HasGroup source db n := ⟨id, row, hl, hsource, hremote⟩
  refine ⟨?_, ?_, ?_, ?_⟩
  · refine mem_memberships_insert hsource rfl hremote fun old hold => ?_
    rw [hl] at hold
    cases hold
    exact hremote
  · intro m
    refine (Assoc.any_insert_of_lookup hl ?_).trans ⟨.inr, ?_⟩
    · exact Iff.rfl
    · rintro (rfl | h)
      · exact hhas
      · exact h
  · intro l
    refine (Assoc.any_insert_of_lookup hl ?_).trans ?_
    · exact Iff.rfl
    · simp [hhas, NameTaken]
  · intro id'
    rw [AList.mem_insert]
    constructor
    · rintro (rfl | h)
      · exact .inr (AList.lookup_isSome.1 (by rw [hl]; rfl))
      · exact .inr h
    · rintro (⟨hnot, -⟩ | h)
      · exact absurd hhas hnot
      · exact .inr h

theorem added_of_insert {row : GroupRow} {n : String} (hnot : ¬ HasGroup source db n) (hdrawn : server.drawn n ∉ db.groups)
    (hsource : row.source = source) (hdeleted : row.deleted = false) (hremote : row.remoteId = some n)
    (hname : row.name = some n) : Added server source userId db ⟨db.groups.insert (server.drawn n) row,
      Assoc.insertNew (server.drawn n, userId) () db.groupMembers⟩ n := by
  have hnew := AList.lookup_eq_none.2 hdrawn
  refine ⟨?_, ?_, ?_, ?_⟩
  · refine mem_memberships_insert hsource hdeleted hremote fun old hold => ?_
    rw [hnew] at hold
    cases hold
  · intro m
    rw [HasGroup, Assoc.any_insert_new hnew]
    simp [HasGroup, hsource, hremote, eq_comm]
  · intro l
    rw [NameTaken, Assoc.any_insert_new hnew]
    simp [hnot, hname, NameTaken]
  · intro id
    rw [AList.mem_insert]
    simp [hnot]

theorem exists_ensureMember (userId : Uuid) (hinfers : server.infersPartial = true) (hfits : FitsColumns server source groupName)
    (hfree : Free server source db (normalizedName server groupName)) :
    ∃ db', ensureMember server source userId db groupName = some db' ∧
      Added server source userId db db' (normalizedName server groupName) := by
  have hcolumns : ¬ (server.infersPartial = false ∨ ¬ Fits 64 (normalizedName server groupName) ∨
      ¬ Fits 128 groupName ∨ ¬ Fits 64 source) := by
    simp [hinfers, hfits.1, hfits.2.1, hfits.2.2]
  rw [ensureMember, upsertGroup]
  dsimp only
  rw [if_neg hcolumns]
  cases hfind : db.groups.entries.find? fun e =>
      e.2.source = source && e.2.remoteId = some (normalizedName server groupName) with
  | some e =>
    obtain ⟨hsource, hremote⟩ : e.2.source = source ∧ e.2.remoteId = some (normalizedName server groupName) := by
      simpa using List.find?_some hfind
    have hl := Assoc.mem_entries_iff.1 (List.mem_of_find?_eq_some hfind)
    exact ⟨_, rfl, added_of_update hl hsource hremote⟩
  | none =>
    have hnot : ¬ HasGroup source db (normalizedName server groupName) := fun h => hasGroup_iff.1 h hfind
    obtain ⟨hname, hdrawn⟩ := hfree hnot
    rw [nameTaken_iff, ← Option.isSome_iff_ne_none] at hname
    dsimp only
    rw [if_neg (not_or.2 ⟨hname, hdrawn⟩)]
    exact ⟨_, rfl, added_of_insert hnot hdrawn rfl rfl rfl rfl⟩

theorem of_ensureMember_eq_some (h : ensureMember server source userId db groupName = some db') :
    server.infersPartial = true ∧ FitsColumns server source groupName ∧
      Free server source db (normalizedName server groupName) := by
  obtain ⟨⟨id, db₁⟩, h, -⟩ := Option.map_eq_some_iff.1 h
  rw [upsertGroup] at h
  dsimp only at h
  split at h
  · cases h
  · rename_i htaken
    simp only [not_or, not_not, Bool.not_eq_false] at htaken
    refine ⟨htaken.1, htaken.2, fun hnot => ?_⟩
    rw [hasGroup_iff, ne_eq, not_not] at hnot
    rw [hnot] at h
    dsimp only at h
    split at h
    · cases h
    · rename_i hfree
      rw [nameTaken_iff, ← Option.isSome_iff_ne_none]
      exact not_or.1 hfree

section Added

variable {d n m : String} (h : Added server source userId db db' d)
include h

theorem free_iff_of_added : Free server source db' n ↔ n = d ∨ Free server source db n ∧ Apart server source db d n := by
  rw [Free, h.hasGroup, h.nameTaken, h.used, Free, Apart]
  by_cases hn : n = d
  · simp [hn]
  · simp only [hn, false_or, not_or, not_and, ne_eq, Ne.symm hn, not_false_eq_true, true_imp_iff]
    have hcomm : server.drawn n = server.drawn d ↔ server.drawn d = server.drawn n := eq_comm
    rw [hcomm]
    tauto

theorem apart_iff_of_added : Apart server source db' n m ↔ n = d ∨ m = d ∨ Apart server source db n m := by
  rw [Apart, h.hasGroup, h.hasGroup, Apart]
  tauto

theorem accepted_cons {groupNames : List String} (hd : normalizedName server groupName = d) :
    Accepted server source db (groupName :: groupNames) ↔ FitsColumns server source groupName ∧
      Free server source db d ∧ Accepted server source db' groupNames := by
  subst hd
  constructor
  · rintro ⟨hinfers, hfits, hfree, hapart⟩
    rw [List.map_cons] at hfree hapart
    refine ⟨hfits _ List.mem_cons_self, hfree _ List.mem_cons_self, hinfers, ?_, ?_, ?_⟩
    · exact fun g hg => hfits g (List.mem_cons_of_mem _ hg)
    · intro n hn
      exact (free_iff_of_added h).2 (.inr ⟨hfree n (List.mem_cons_of_mem _ hn),
        hapart _ List.mem_cons_self n (List.mem_cons_of_mem _ hn)⟩)
    · intro n hn m hm
      exact (apart_iff_of_added h).2 (.inr (.inr (hapart n (List.mem_cons_of_mem _ hn) m (List.mem_cons_of_mem _ hm))))
  · rintro ⟨hfit, hfree, hinfers, hfits, hrest, hapart⟩
    have hfirst : ∀ n ∈ groupNames.map (normalizedName server),
        Apart server source db (normalizedName server groupName) n := by
      intro n hn
      rcases (free_iff_of_added h).1 (hrest n hn) with rfl | ⟨-, hn⟩
      · exact fun _ _ hne => absurd rfl hne
      · exact hn
    have hsymm : ∀ n m, Apart server source db n m → Apart server source db m n :=
      fun n m hnm hm hn hne => (hnm hn hm hne.symm).imp Ne.symm Ne.symm
    refine ⟨hinfers, List.forall_mem_cons.2 ⟨hfit, hfits⟩, ?_, ?_⟩
    · refine List.forall_mem_cons.2 ⟨hfree, fun n hn => ?_⟩
      rcases (free_iff_of_added h).1 (hrest n hn) with rfl | ⟨hn, -⟩
      · exact hfree
      · exact hn
    · refine List.forall_mem_cons.2 ⟨List.forall_mem_cons.2 ⟨fun _ _ hne => absurd rfl hne, hfirst⟩, fun n hn => ?_⟩
      refine List.forall_mem_cons.2 ⟨hsymm _ _ (hfirst n hn), fun m hm => ?_⟩
      rcases (apart_iff_of_added h).1 (hapart n hn m hm) with rfl | rfl | hnm
      · exact hfirst m hm
      · exact hsymm _ _ (hfirst n hn)
      · exact hnm

end Added

/-! ### The list -/

theorem exists_of_accepted (userId : Uuid) {groupNames : List String} (h : Accepted server source db groupNames) :
    ∃ db', groupNames.foldlM (ensureMember server source userId) db = some db' ∧
      ∀ n, n ∈ memberships source userId db' ↔
        n ∈ memberships source userId db ∨ n ∈ groupNames.map (normalizedName server) := by
  induction groupNames generalizing db with
  | nil => exact ⟨db, rfl, by simp⟩
  | cons d groupNames ih =>
    obtain ⟨db₁, hensure, hadded⟩ := exists_ensureMember userId h.infers (h.fits d List.mem_cons_self)
      (h.free _ (List.mem_map_of_mem List.mem_cons_self))
    obtain ⟨-, -, hrest⟩ := (accepted_cons hadded rfl).1 h
    obtain ⟨db', hfold, hmem⟩ := ih hrest
    refine ⟨db', ?_, fun n => ?_⟩
    · rw [List.foldlM_cons, hensure]
      exact hfold
    · rw [hmem, hadded.memberships, List.map_cons, List.mem_cons, or_assoc]

theorem accepted_of_eq_some {groupNames : List String} (hinfers : server.infersPartial = true)
    (h : groupNames.foldlM (ensureMember server source userId) db = some db') :
    Accepted server source db groupNames := by
  induction groupNames generalizing db with
  | nil => exact ⟨hinfers, by simp, by simp, by simp⟩
  | cons d groupNames ih =>
    rw [List.foldlM_cons] at h
    obtain ⟨db₁, hensure, hrest⟩ := Option.bind_eq_some_iff.1 h
    obtain ⟨-, hfits, hfree⟩ := of_ensureMember_eq_some hensure
    obtain ⟨db₂, hensure', hadded⟩ := exists_ensureMember userId hinfers hfits hfree
    obtain rfl := Option.some.inj (hensure.symm.trans hensure')
    exact (accepted_cons hadded rfl).2 ⟨hfits, hfree, ih hrest⟩

theorem syncOidcGroups_eq (authProvider : String) (groups : List String) :
    syncOidcGroups server userId authProvider db groups =
      (names groups).foldlM (ensureMember server ("oidc:" ++ authProvider) userId) db := by
  unfold syncOidcGroups
  induction groups generalizing db with
  | nil => rfl
  | cons groupName groups ih =>
    rw [List.foldlM_cons, names, List.map_cons]
    split
    · rename_i hblank
      rw [List.filter_cons_of_neg (by simpa using hblank)]
      exact ih
    · rename_i hblank
      rw [List.filter_cons_of_pos (by simpa using hblank), List.foldlM_cons]
      exact congrArg _ (funext fun db₁ => ih)

theorem mem_synced_of_accepted {providerKey : String} {groups : List String}
    (h : Accepted server ("oidc:" ++ providerKey) db (names groups)) (n : String) :
    n ∈ memberships ("oidc:" ++ providerKey) userId (synced server userId providerKey db groups) ↔
      n ∈ memberships ("oidc:" ++ providerKey) userId db ∨ n ∈ listed server groups := by
  obtain ⟨db', hfold, hmem⟩ := exists_of_accepted userId h
  rw [synced, syncOidcGroups_eq, hfold]
  split
  · rename_i hgroups
    simp [hgroups, listed, names]
  · exact hmem n

theorem synced_of_not_accepted {providerKey : String} {groups : List String}
    (h : ¬ Accepted server ("oidc:" ++ providerKey) db (names groups)) :
    synced server userId providerKey db groups = db := by
  rw [synced, syncOidcGroups_eq]
  split
  · rfl
  · cases hfold : (names groups).foldlM (ensureMember server ("oidc:" ++ providerKey) userId) db with
    | none => rfl
    | some db' =>
      cases hnames : names groups with
      | nil =>
        rw [hnames] at hfold
        exact (Option.some.inj hfold).symm
      | cons d rest =>
        have hfirst := hfold
        rw [hnames, List.foldlM_cons] at hfirst
        obtain ⟨db₁, hensure, -⟩ := Option.bind_eq_some_iff.1 hfirst
        exact absurd (accepted_of_eq_some (of_ensureMember_eq_some hensure).1 hfold) h

/-- After the sync the user's groups are those of the list exactly if the list has all that were there before, and it
brings nothing new or the database takes it. -/
theorem exact_iff (server : Server) (userId : Uuid) (providerKey : String) (db : Tables) (groups : List String) :
    Exact server userId providerKey db groups ↔
      memberships ("oidc:" ++ providerKey) userId db ⊆ listed server groups ∧
        (listed server groups ⊆ memberships ("oidc:" ++ providerKey) userId db ∨
          Accepted server ("oidc:" ++ providerKey) db (names groups)) := by
  by_cases h : Accepted server ("oidc:" ++ providerKey) db (names groups)
  · simp only [Exact, mem_synced_of_accepted h, h, or_true, and_true]
    constructor
    · intro hexact n hn
      exact (hexact n).1 (.inl hn)
    · intro hsub n
      exact ⟨fun hn => hn.elim (@hsub n) id, .inr⟩
  · simp only [Exact, synced_of_not_accepted h, h, or_false]
    constructor
    · intro hexact
      exact ⟨fun n hn => (hexact n).1 hn, fun n hn => (hexact n).2 hn⟩
    · rintro ⟨hsub, hsub'⟩ n
      exact ⟨@hsub n, @hsub' n⟩

end

/-- On names that are ASCII. -/
def asciiServer (infersPartial : Bool) : Server where
  toLowercase := Keycloak.asciiLower
  lower := Keycloak.asciiLower
  infersPartial
  drawn := fun _ => 7

/-- A first group is not stored, and where it is, the next login with an empty list leaves it. -/
theorem staff_not_synced : ¬ Exact (asciiServer false) 1 "okta" ⟨∅, ∅⟩ ["Staff"] ∧
    ¬ Exact (asciiServer true) 1 "okta" (synced (asciiServer true) 1 "okta" ⟨∅, ∅⟩ ["Staff"]) [] := by
  constructor
  · intro h
    have hlisted : "staff" ∈ listed (asciiServer false) ["Staff"] := by decide
    exact absurd ((h "staff").2 hlisted) (by decide)
  · intro h
    have hleft : "staff" ∈ memberships ("oidc:" ++ "okta") 1 (synced (asciiServer true) 1 "okta"
        (synced (asciiServer true) 1 "okta" ⟨∅, ∅⟩ ["Staff"]) []) := by decide
    exact absurd ((h "staff").1 hleft) (by decide)

def googleStaff : GroupRow where
  displayName := "Staff"
  description := ""
  source := "oidc:google"
  remoteId := some "staff"
  allowReference := true
  deleted := false
  name := some "staff"

/-- A group of another provider has the name. -/
example : syncOidcGroups (asciiServer true) 1 "okta" ⟨(∅ : Assoc Uuid GroupRow).insert 8 googleStaff, ∅⟩ ["Staff"] = none :=
  rfl

end OidcGroups

end Rustchat
