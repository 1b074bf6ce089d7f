import Rustchat.Lib.Run
import Rustchat.SidebarAnswers
import Rustchat.SidebarIsolation

/-!
# Whether the categories part the channels of a user

An answer of `get_categories` has every channel of the user once and no other channel exactly if the mappings are tidy
(`partitions_iff`): each is to a channel the user is in, no channel is mapped to two categories, and an archived one to
some category. Mappings outlive a membership, and a body may map any channel anywhere. The runs in which every answer is
a partition are those whose steps leave the mappings tidy (`partitions_iff_allSteps`).
-/

namespace Rustchat

open SidebarDb SidebarEnv

/-- What changes categories and memberships. -/
inductive SidebarAct where
  | join (channelId userId : Uuid)
  | leave (channelId userId : Uuid)
  | create (userId teamId : Uuid) (drawn : CategoryDraw) (input : CreateCategoryRequest)
  | updateCategories (userId teamId : Uuid) (now : Int) (cats : List SidebarCategory)
  | updateOrder (userId teamId : Uuid) (order : List String)
  | updateCategory (userId teamId : Uuid) (now : Int) (categoryId : String) (input : UpdateCategoryRequest)
  | delete (userId teamId : Uuid) (now : Int) (categoryId : String)

namespace SidebarEnv

variable (env : SidebarEnv)

/-- The tables after a request or a change of members. -/
def perform (db : SidebarDb) : SidebarAct → SidebarDb
  | .join channelId userId => db.join channelId userId
  | .leave channelId userId => db.leave channelId userId
  | .create userId teamId drawn input => commit db (env.createCategory db drawn userId teamId input)
  | .updateCategories userId teamId now cats => commit db (env.updateCategories db now userId teamId cats)
  | .updateOrder userId teamId order => commit db (env.updateCategoryOrder db userId teamId order)
  | .updateCategory userId teamId now categoryId input => (env.updateCategory db now userId teamId categoryId input).1
  | .delete userId teamId now categoryId => (env.deleteCategory db now userId teamId categoryId).toOption.getD db

def step (db : SidebarDb) (act : SidebarAct) : Option SidebarDb := some (env.perform db act)

end SidebarEnv

namespace SidebarPartition

def start (teams : List Uuid) (teamMembers : List (Uuid × Uuid)) (channels : Assoc Uuid SidebarChannel) : SidebarDb :=
  ⟨teams, teamMembers, channels, ∅, ∅, ∅, fun _ hm => absurd hm (AList.notMem_empty _),
    fun _ hm => absurd hm (AList.notMem_empty _)⟩

def Belongs (db : SidebarDb) (userId teamId ch : Uuid) : Prop :=
  (ch, userId) ∈ db.channelMembers ∧ ∃ channel, db.channels.lookup ch = some channel ∧ InSidebar teamId channel

structure IsPartition (db : SidebarDb) (userId teamId : Uuid) (answer : SidebarCategories) : Prop where
  once : ∀ ch, Belongs db userId teamId ch →
    (answer.categories.flatMap fun cat => cat.channelIds).count (encodeMmId ch) = 1
  joined : ∀ id ∈ answer.categories.flatMap fun cat => cat.channelIds,
    ∃ ch, id = encodeMmId ch ∧ (ch, userId) ∈ db.channelMembers

def Partitions (env : SidebarEnv) (userId teamId : Uuid) (db : SidebarDb) : Prop :=
  ∀ drawn answer, env.getCategories db drawn userId teamId = .ok answer → IsPartition db userId teamId answer

/-- Categories `R` of channels part those of the user, but for the ones in no category. -/
structure Tidy (db : SidebarDb) (userId teamId : Uuid) (R : Uuid → Uuid → Prop) : Prop where
  joined : ∀ c ch, R c ch → (ch, userId) ∈ db.channelMembers
  once : ∀ c c' ch, Belongs db userId teamId ch → R c ch → R c' ch → c = c'
  -- only these are put into a category
  unarchived : ∀ ch channel, (ch, userId) ∈ db.channelMembers → db.channels.lookup ch = some channel →
    InSidebar teamId channel → channel.isArchived = true → ∃ c, R c ch

/-- The channel is mapped to a category of the user in the team that is not deleted. -/
def Shows (db : SidebarDb) (userId teamId c ch : Uuid) : Prop := Live db userId teamId c ∧ (c, ch) ∈ db.mappings

variable {env : SidebarEnv} {db db' : SidebarDb} {userId teamId c ch : Uuid} {R R' : Uuid → Uuid → Prop}

theorem Tidy.congr (h : ∀ c ch, R' c ch ↔ R c ch) (hchannels : db'.channels = db.channels)
    (hmembers : db'.channelMembers = db.channelMembers) : Tidy db' userId teamId R' ↔ Tidy db userId teamId R := by
  obtain rfl : R' = R := funext fun c => funext fun ch => propext (h c ch)
  have hbelongs (ch : Uuid) : Belongs db' userId teamId ch ↔ Belongs db userId teamId ch := by
    rw [Belongs, Belongs, hchannels, hmembers]
  constructor
  · rintro ⟨hjoined, honce, hun⟩
    exact ⟨fun c ch hR => hmembers ▸ hjoined c ch hR, fun c c' ch hb => honce c c' ch ((hbelongs ch).2 hb),
      fun ch channel hm hch => hun ch channel (hmembers.symm ▸ hm) (hchannels.symm ▸ hch)⟩
  · rintro ⟨hjoined, honce, hun⟩
    exact ⟨fun c ch hR => hmembers.symm ▸ hjoined c ch hR, fun c c' ch hb => honce c c' ch ((hbelongs ch).1 hb),
      fun ch channel hm hch => hun ch channel (hmembers ▸ hm) (hchannels ▸ hch)⟩

theorem countP_eq_one_iff {α : Type*} {p : α → Bool} {rows : List α} (h : rows.Nodup) :
    rows.countP p = 1 ↔ ∃ x ∈ rows, p x = true ∧ ∀ y ∈ rows, p y = true → y = x := by
  rw [List.countP_eq_length_filter, List.length_eq_one_iff]
  constructor
  · rintro ⟨x, hx⟩
    have hmem (y : α) : y ∈ rows ∧ p y = true ↔ y = x := by
      rw [← List.mem_filter, hx, List.mem_singleton]
    obtain ⟨hxrows, hpx⟩ := (hmem x).2 rfl
    exact ⟨x, hxrows, hpx, fun y hy hpy => (hmem y).1 ⟨hy, hpy⟩⟩
  · rintro ⟨x, hx, hpx, hunique⟩
    refine ⟨x, (List.perm_singleton.1 ?_)⟩
    refine (List.perm_ext_iff_of_nodup (h.filter _) (List.nodup_singleton x)).2 fun y => ?_
    rw [List.mem_filter, List.mem_singleton]
    exact ⟨fun hy => hunique y hy.1 hy.2, fun hy => hy ▸ ⟨hx, hpx⟩⟩

theorem shows_iff (env : SidebarEnv) : Shows db userId teamId c ch ↔
    ∃ row, (c, row) ∈ env.liveCategories db userId teamId ∧ ch ∈ env.channelIds db c := by
  rw [Shows, live_iff_mem env]
  exact ⟨fun ⟨⟨row, hrow⟩, hm⟩ => ⟨row, hrow, mem_channelIds.2 hm⟩,
    fun ⟨row, hrow, hch⟩ => ⟨⟨row, hrow⟩, mem_channelIds.1 hch⟩⟩

theorem count_mapped : (env.mapped db userId teamId).count ch =
    (env.liveCategories db userId teamId).countP fun row => ch ∈ env.channelIds db row.1 := by
  unfold mapped
  induction env.liveCategories db userId teamId with
  | nil => rfl
  | cons row rows ih =>
    rw [List.flatMap_cons, List.count_append, ih, List.countP_cons, add_comm]
    congr 1
    by_cases hch : ch ∈ env.channelIds db row.1
    · rw [if_pos (decide_eq_true hch)]
      exact List.count_eq_one_of_mem nodup_channelIds hch
    · rw [if_neg (by simpa using hch)]
      exact List.count_eq_zero_of_not_mem hch

theorem count_mapped_eq_one_iff : (env.mapped db userId teamId).count ch = 1 ↔
    ∃ c, Shows db userId teamId c ch ∧ ∀ c', Shows db userId teamId c' ch → c' = c := by
  rw [count_mapped, countP_eq_one_iff (nodup_liveCategories.of_map _)]
  simp only [decide_eq_true_eq]
  constructor
  · rintro ⟨row, hrow, hch, hunique⟩
    refine ⟨row.1, (shows_iff env).2 ⟨row.2, hrow, hch⟩, fun c' hc' => ?_⟩
    obtain ⟨row', hrow', hch'⟩ := (shows_iff env).1 hc'
    exact congrArg Prod.fst (hunique (c', row') hrow' hch')
  · rintro ⟨c, hc, hunique⟩
    obtain ⟨row, hrow, hch⟩ := (shows_iff env).1 hc
    refine ⟨(c, row), hrow, hch, fun row' hrow' hch' => ?_⟩
    have hid : row'.1 = c := hunique _ ((shows_iff env).2 ⟨row'.2, hrow', hch'⟩)
    exact List.inj_on_of_nodup_map nodup_liveCategories hrow' hrow hid

theorem mem_mapped_iff : ch ∈ env.mapped db userId teamId ↔ ∃ c, Shows db userId teamId c ch := mem_mapped

theorem count_listed (hb : Belongs db userId teamId ch) :
    (env.mapped db userId teamId ++ env.unmapped db userId teamId).count ch = 1 ↔
      (∀ c c', Shows db userId teamId c ch → Shows db userId teamId c' ch → c = c') ∧
        (∀ channel, db.channels.lookup ch = some channel → channel.isArchived = true →
          ∃ c, Shows db userId teamId c ch) := by
  rw [List.count_append]
  by_cases hmapped : ch ∈ env.mapped db userId teamId
  · have hzero : (env.unmapped db userId teamId).count ch = 0 := by
      refine List.count_eq_zero_of_not_mem fun hmem => ?_
      simpa [hmapped] using (List.mem_filter.1 hmem).2
    rw [hzero, Nat.add_zero, count_mapped_eq_one_iff]
    obtain ⟨c₀, hc₀⟩ := mem_mapped_iff.1 hmapped
    constructor
    · rintro ⟨c₁, -, hunique⟩
      exact ⟨fun c c' hc hc' => (hunique c hc).trans (hunique c' hc').symm, fun _ _ _ => ⟨c₀, hc₀⟩⟩
    · rintro ⟨honce, -⟩
      exact ⟨c₀, hc₀, fun c' hc' => honce c' c₀ hc' hc₀⟩
  · have hnone (c : Uuid) : ¬ Shows db userId teamId c ch := fun hc => hmapped (mem_mapped_iff.2 ⟨c, hc⟩)
    obtain ⟨hmember, channel, hchannel, hsidebar⟩ := hb
    have hnodup : (env.unmapped db userId teamId).Nodup := nodup_candidates.filter _
    have hmem : ch ∈ env.unmapped db userId teamId ↔ channel.isArchived = false := by
      rw [unmapped, List.mem_filter, decide_eq_true_eq, and_iff_left hmapped, List.mem_map]
      constructor
      · rintro ⟨row, hrow, rfl⟩
        obtain ⟨hlookup, -, harchived, -⟩ := mem_candidates.1 hrow
        rwa [Option.some.inj (hchannel.symm.trans hlookup)]
      · exact fun harchived => ⟨(ch, channel), mem_candidates.2 ⟨hchannel, hmember, harchived, hsidebar⟩, rfl⟩
    rw [List.count_eq_zero_of_not_mem hmapped, Nat.zero_add]
    constructor
    · intro hone
      have hin : ch ∈ env.unmapped db userId teamId := List.count_pos_iff.1 (by omega)
      refine ⟨fun c c' hc => absurd hc (hnone c), fun channel' hchannel' harchived => ?_⟩
      rw [Option.some.inj (hchannel.symm.trans hchannel')] at hmem
      rw [hmem.1 hin] at harchived
      cases harchived
    · rintro ⟨-, hun⟩
      refine List.count_eq_one_of_mem hnodup (hmem.2 ?_)
      by_contra harchived
      obtain ⟨c, hc⟩ := hun channel hchannel (by simpa using harchived)
      exact hnone c hc

theorem isPartition_iff (drawn : CategoryDraw) : IsPartition db userId teamId (env.categoriesOf db drawn userId teamId) ↔
    Tidy db userId teamId (Shows db userId teamId) := by
  have hlisted := @listed_perm env db userId teamId drawn
  have hcount (ch : Uuid) : ((env.categoriesOf db drawn userId teamId).categories.flatMap
      fun cat => cat.channelIds).count (encodeMmId ch) =
      (env.mapped db userId teamId ++ env.unmapped db userId teamId).count ch := by
    rw [hlisted.count_eq, List.count_map_of_injective _ _ encodeMmId_injective]
  constructor
  · rintro ⟨honce, hjoined⟩
    refine ⟨fun c ch hc => ?_, fun c c' ch hb => ?_, fun ch channel hm hch hs ha => ?_⟩
    · have hmem : ch ∈ env.mapped db userId teamId ++ env.unmapped db userId teamId :=
        List.mem_append_left _ (mem_mapped_iff.2 ⟨c, hc⟩)
      obtain ⟨ch', heq, hmember⟩ := hjoined _ (hlisted.mem_iff.2 (List.mem_map_of_mem hmem))
      rwa [encodeMmId_injective heq]
    · exact ((count_listed hb).1 (hcount ch ▸ honce ch hb)).1 c c'
    · exact ((count_listed ⟨hm, channel, hch, hs⟩).1 (hcount ch ▸ honce ch ⟨hm, channel, hch, hs⟩)).2 channel hch ha
  · rintro ⟨hjoined, honce, hun⟩
    refine ⟨fun ch hb => ?_, fun id hid => ?_⟩
    · rw [hcount, count_listed hb]
      refine ⟨fun c c' => honce c c' ch hb, fun channel hch ha => ?_⟩
      obtain ⟨hm, channel', hch', hs⟩ := hb
      rw [Option.some.inj (hch'.symm.trans hch)] at hs
      exact hun ch channel hm hch hs ha
    · obtain ⟨ch, hmem, rfl⟩ := List.mem_map.1 (hlisted.mem_iff.1 hid)
      refine ⟨ch, rfl, ?_⟩
      rcases List.mem_append.1 hmem with hmem | hmem
      · obtain ⟨c, hc⟩ := mem_mapped_iff.1 hmem
        exact hjoined c ch hc
      · obtain ⟨row, hrow, rfl⟩ := List.mem_map.1 (List.mem_filter.1 hmem).1
        exact (mem_candidates.1 hrow).2.1

theorem partitions_iff : Partitions env userId teamId db ↔
    (IsTeamMember db userId teamId → Tidy db userId teamId (Shows db userId teamId)) := by
  constructor
  · intro h hmember
    refine (isPartition_iff ⟨0, 0⟩).1 (h ⟨0, 0⟩ (env.categoriesOf db ⟨0, 0⟩ userId teamId) ?_)
    rw [getCategories, (ensureTeamMember_eq_ok (u := ())).2 hmember]
    rfl
  · intro h drawn answer hanswer
    obtain ⟨_, hmember, rfl⟩ := map_eq_ok.1 hanswer
    exact (isPartition_iff drawn).2 (h (ensureTeamMember_eq_ok.1 hmember))

/-! ### One step -/

/-- The channels that `update_category` maps: the named ones until one does not exist or comes twice. -/
def insertable (env : SidebarEnv) (channels : Assoc Uuid SidebarChannel) : List Uuid → List String → List Uuid
  | _, [] => []
  | seen, id :: ids => match env.parse id with
    | none => insertable env channels seen ids
    | some ch => if ch ∈ channels ∧ ch ∉ seen then ch :: insertable env channels (ch :: seen) ids else []

def Edits (env : SidebarEnv) (db : SidebarDb) (userId teamId : Uuid) (categoryId : String)
    (input : UpdateCategoryRequest) : Prop :=
  ∃ row, liveCategory db (env.categoryUuid categoryId) userId teamId = some row ∧
    (fitsColumn 64 (input.displayName.getD row.displayName) && fitsColumn 32 (input.sorting.getD row.sorting)) = true

/-- The request deletes its category, and there is none that takes its channels. -/
def Unmaps (env : SidebarEnv) (db : SidebarDb) (userId teamId : Uuid) (categoryId : String) : Prop :=
  (∃ row, liveCategory db (env.categoryUuid categoryId) userId teamId = some row ∧
    row.type ∉ ["channels", "direct_messages", "favorites"]) ∧
  ∀ row ∈ env.liveCategories db userId teamId, row.2.type ≠ "channels"

/-- The steps that leave the mappings tidy. -/
def Keeps (env : SidebarEnv) (userId teamId : Uuid) (db : SidebarDb) (act : SidebarAct) : Prop :=
  IsTeamMember db userId teamId → match act with
  | .join ch v => v = userId → ∀ channel, db.channels.lookup ch = some channel → InSidebar teamId channel →
      channel.isArchived = true → (ch, userId) ∈ db.channelMembers
  | .leave ch v => v = userId → ∀ c, ¬ Shows db userId teamId c ch
  | .create .. => True
  | .updateCategories v t _ cats => env.Accepts db v t cats →
      Tidy db userId teamId fun c ch => Live db userId teamId c ∧
        (env.assigned cats c).elim ((c, ch) ∈ db.mappings) fun channels => ch ∈ channels
  | .updateOrder .. => True
  | .updateCategory v t _ categoryId input => Edits env db v t categoryId input →
      ∀ ids, input.channelIds = some ids → Tidy db userId teamId fun c ch => Live db userId teamId c ∧
        if c = env.categoryUuid categoryId then ch ∈ insertable env db.channels [] ids else (c, ch) ∈ db.mappings
  | .delete v t _ categoryId => v = userId → t = teamId → Unmaps env db v t categoryId →
      Tidy db userId teamId fun c ch => c ≠ env.categoryUuid categoryId ∧ Shows db userId teamId c ch

theorem tidy_join_iff {v : Uuid} (h : Tidy db userId teamId (Shows db userId teamId)) :
    Tidy (db.join ch v) userId teamId (Shows (db.join ch v) userId teamId) ↔
      (v = userId → ∀ channel, db.channels.lookup ch = some channel → InSidebar teamId channel →
        channel.isArchived = true → (ch, userId) ∈ db.channelMembers) := by
  unfold SidebarDb.join
  by_cases hch : ch ∈ db.channels
  · rw [dif_pos hch]
    constructor
    · rintro ht rfl channel hchannel hsidebar harchived
      obtain ⟨c, hc⟩ := ht.unarchived ch channel (Assoc.mem_insertNew.2 (.inr rfl)) hchannel hsidebar harchived
      exact h.joined c ch hc
    · intro hkeeps
      refine ⟨fun c ch' hc => Assoc.mem_insertNew.2 (.inl (h.joined c ch' hc)), fun c c' ch' hb hc hc' => ?_, ?_⟩
      · exact h.once c c' ch' ⟨h.joined c ch' hc, hb.2⟩ hc hc'
      · intro ch' channel hm hchannel hsidebar harchived
        refine h.unarchived ch' channel ?_ hchannel hsidebar harchived
        rcases Assoc.mem_insertNew.1 hm with hm | heq
        · exact hm
        · obtain ⟨rfl, rfl⟩ := Prod.mk.inj heq
          exact hkeeps rfl channel hchannel hsidebar harchived
  · rw [dif_neg hch]
    refine iff_of_true h fun _ channel hchannel => absurd ?_ hch
    exact AList.lookup_isSome.1 (Option.isSome_iff_exists.2 ⟨channel, hchannel⟩)

theorem tidy_leave_iff {v : Uuid} (h : Tidy db userId teamId (Shows db userId teamId)) :
    Tidy (db.leave ch v) userId teamId (Shows (db.leave ch v) userId teamId) ↔
      (v = userId → ∀ c, ¬ Shows db userId teamId c ch) := by
  have hmem (ch' : Uuid) : (ch', userId) ∈ (db.leave ch v).channelMembers ↔
      ¬ (ch' = ch ∧ userId = v) ∧ (ch', userId) ∈ db.channelMembers := by
    refine AList.mem_erase.trans (and_congr_left' ?_)
    rw [Ne, Prod.mk.injEq]
  constructor
  · rintro ht rfl c hc
    exact ((hmem ch).1 (ht.joined c ch hc)).1 ⟨rfl, rfl⟩
  · intro hkeeps
    refine ⟨fun c ch' hc => (hmem ch').2 ⟨?_, h.joined c ch' hc⟩, fun c c' ch' hb => ?_, fun ch' channel hm => ?_⟩
    · rintro ⟨rfl, rfl⟩
      exact hkeeps rfl c hc
    · exact h.once c c' ch' ⟨((hmem ch').1 hb.1).2, hb.2⟩
    · exact h.unarchived ch' channel ((hmem ch').1 hm).2

theorem tidy_create_iff {v t : Uuid} {drawn : CategoryDraw} {input : CreateCategoryRequest} :
    Tidy (commit db (env.createCategory db drawn v t input)) userId teamId
      (Shows (commit db (env.createCategory db drawn v t input)) userId teamId) ↔
      Tidy db userId teamId (Shows db userId teamId) := by
  cases hresult : env.createCategory db drawn v t input with
  | error e => exact Iff.rfl
  | ok out =>
    simp only [createCategory, bind_eq_ok] at hresult
    obtain ⟨-, -, -, -, -, -, hresult⟩ := hresult
    split at hresult
    · next hrow =>
      rw [← Except.ok.inj hresult]
      refine Tidy.congr (fun c ch => ?_) rfl rfl
      refine and_congr_left fun hm => ?_
      -- the new category has no channels
      have hne : c ≠ drawn.id := fun he => hrow.2 (he ▸ (db.mappings_exist (c, ch) hm).1)
      refine exists_congr fun row => and_congr_left' ?_
      exact iff_of_eq (congrArg (· = some row) (AList.lookup_insert_ne hne))
    · cases hresult

theorem setOrders_spec {v t : Uuid} {i : ℕ} {order : List String} :
    db.SameMembers (env.setOrders v t i order db) ∧ (env.setOrders v t i order db).mappings = db.mappings ∧
      ∀ c, Live (env.setOrders v t i order db) userId teamId c ↔ Live db userId teamId c := by
  induction order generalizing i db with
  | nil => exact ⟨.refl, rfl, fun _ => Iff.rfl⟩
  | cons id order ih =>
    obtain ⟨hsame, hmap, hlive⟩ := @ih (db.editCategory (env.categoryUuid id) v t fun row => { row with sortOrder := i })
      (i + 1)
    refine ⟨⟨hsame.teams, hsame.teamMembers, hsame.channels, hsame.channelMembers⟩, hmap, fun c => ?_⟩
    refine (hlive c).trans (live_congr (fun id => lookup_editCategory) fun id row _ => ?_)
    split <;> exact ⟨rfl, rfl, rfl⟩

theorem tidy_updateOrder_iff {v t : Uuid} {order : List String} :
    Tidy (commit db (env.updateCategoryOrder db v t order)) userId teamId
      (Shows (commit db (env.updateCategoryOrder db v t order)) userId teamId) ↔
      Tidy db userId teamId (Shows db userId teamId) := by
  cases hresult : env.updateCategoryOrder db v t order with
  | error e => exact Iff.rfl
  | ok out =>
    obtain ⟨_, -, rfl⟩ := map_eq_ok.1 hresult
    obtain ⟨hsame, hmap, hlive⟩ := @setOrders_spec env db userId teamId v t 0 order
    refine Tidy.congr (fun c ch => ?_) hsame.channels hsame.channelMembers
    rw [Shows, Shows, commit, hmap, hlive]

theorem tidy_updateCategories_iff {v t : Uuid} {now : Int} {cats : List SidebarCategory}
    (h : Tidy db userId teamId (Shows db userId teamId)) :
    Tidy (commit db (env.updateCategories db now v t cats)) userId teamId
      (Shows (commit db (env.updateCategories db now v t cats)) userId teamId) ↔
      (env.Accepts db v t cats → Tidy db userId teamId fun c ch => Live db userId teamId c ∧
        (env.assigned cats c).elim ((c, ch) ∈ db.mappings) fun channels => ch ∈ channels) := by
  by_cases haccepts : env.Accepts db v t cats
  · rw [imp_iff_right haccepts]
    obtain ⟨db', hok, hsame, hcats, hmap⟩ := updateCategories_spec haccepts now
    rw [hok]
    refine Tidy.congr (fun c ch => ?_) hsame.channels hsame.channelMembers
    refine and_congr (live_congr hcats fun id row _ => foldl_editRow_owner cats row id) ?_
    show (c, ch) ∈ db'.mappings ↔ _
    rw [← AList.lookup_isSome, hmap]
    cases env.assigned cats c with
    | none => exact AList.lookup_isSome
    | some channels =>
      rw [Option.elim_some, Option.elim_some, place]
      by_cases hch : ch ∈ channels
      · simp [hch]
      · simp [hch]
  · rw [commit_of_not_accepts haccepts]
    exact iff_of_true h fun h' => absurd h' haccepts

theorem sameMembers_insertEach (env : SidebarEnv) (ids : List String) (db : SidebarDb) (i : ℕ) :
    db.SameMembers (env.insertEach c i ids db).1 := by
  induction ids generalizing i db with
  | nil => exact .refl
  | cons id ids ih =>
    rw [insertEach]
    split
    · exact ih db (i + 1)
    · split
      · next hinsert => exact (insertMapping_eq_ok hinsert).2.1.trans (ih _ (i + 1))
      · exact .refl

theorem insertEach_spec (env : SidebarEnv) (ids : List String) (db : SidebarDb) (i : ℕ) (seen : List Uuid) (hc : c ∈ db.categories)
    (hseen : ∀ ch, (c, ch) ∈ db.mappings ↔ ch ∈ seen) :
    (env.insertEach c i ids db).1.categories = db.categories ∧
      ∀ m : Uuid × Uuid, m ∈ (env.insertEach c i ids db).1.mappings ↔
        m ∈ db.mappings ∨ m.1 = c ∧ m.2 ∈ insertable env db.channels seen ids := by
  induction ids generalizing i db seen with
  | nil => exact ⟨rfl, fun m => by simp [insertEach, insertable]⟩
  | cons id ids ih =>
    rw [insertEach, insertable]
    cases env.parse id with
    | none => exact ih db (i + 1) seen hc hseen
    | some ch =>
      dsimp only
      by_cases hch : ch ∈ db.channels ∧ ch ∉ seen
      · obtain ⟨db₁, hinsert⟩ := exists_insertMapping (i : Int) hc hch.1 fun hm => hch.2 ((hseen ch).1 hm)
        obtain ⟨-, hsame, hcats, hmap⟩ := insertMapping_eq_ok hinsert
        obtain ⟨hcats', hmap'⟩ := ih db₁ (i + 1) (ch :: seen) (hcats ▸ hc) fun ch' => by
          rw [hmap, AList.mem_insert, hseen, List.mem_cons, Prod.mk.injEq, eq_self, true_and]
        rw [hinsert, if_pos hch]
        refine ⟨hcats'.trans hcats, fun m => (hmap' m).trans ?_⟩
        rw [hmap, AList.mem_insert, hsame.channels, List.mem_cons, and_or_left, ← or_assoc]
        refine or_congr_left ?_
        rw [or_comm]
        exact or_congr_right Prod.ext_iff
      · have herror : db.insertMapping c ch i = .error .database :=
          dif_neg fun h => hch ⟨h.2.1, fun hm => h.2.2 ((hseen ch).2 hm)⟩
        rw [herror, if_neg hch]
        exact ⟨rfl, fun m => by simp⟩

theorem liveCategory_eq_some {v t : Uuid} {row : CategoryRow} : liveCategory db c v t = some row ↔
    db.categories.lookup c = some row ∧ row.userId = v ∧ row.teamId = t ∧ row.deleteAt = 0 := by
  rw [liveCategory, Option.filter_eq_some_iff, decide_eq_true_eq]

theorem tidy_updateCategory_iff {v t : Uuid} {now : Int} {categoryId : String} {input : UpdateCategoryRequest}
    (h : Tidy db userId teamId (Shows db userId teamId)) :
    Tidy (env.updateCategory db now v t categoryId input).1 userId teamId
      (Shows (env.updateCategory db now v t categoryId input).1 userId teamId) ↔
      (Edits env db v t categoryId input → ∀ ids, input.channelIds = some ids →
        Tidy db userId teamId fun c ch => Live db userId teamId c ∧
          if c = env.categoryUuid categoryId then ch ∈ insertable env db.channels [] ids
          else (c, ch) ∈ db.mappings) := by
  unfold updateCategory
  dsimp only
  cases hrow : liveCategory db (env.categoryUuid categoryId) v t with
  | none =>
    refine iff_of_true h ?_
    rintro ⟨row, hrow', -⟩
    rw [hrow] at hrow'
    cases hrow'
  | some row =>
    dsimp only
    split
    · next hfits =>
      rw [imp_iff_right ⟨row, hrow, hfits⟩]
      obtain ⟨hlookup, -, -, hdelete⟩ := liveCategory_eq_some.1 hrow
      set id := env.categoryUuid categoryId
      set edited := db.editCategory id v t fun _ => row.edit (input.displayName.getD row.displayName)
        (input.sorting.getD row.sorting) (input.muted.getD row.muted) (input.collapsed.getD row.collapsed) now hfits
      have hlive (c : Uuid) : Live edited userId teamId c ↔ Live db userId teamId c := by
        refine live_congr (fun id => lookup_editCategory) fun c row' hrow' => ?_
        split
        · next hown =>
          rw [← hown.1] at hrow'
          obtain rfl : row = row' := Option.some.inj (hlookup.symm.trans hrow')
          exact ⟨rfl, rfl, rfl⟩
        · exact ⟨rfl, rfl, rfl⟩
      cases hids : input.channelIds with
      | none =>
        refine iff_of_true ?_ fun ids hids' => absurd hids' (by simp)
        have hedited : Tidy edited userId teamId (Shows edited userId teamId) ↔
            Tidy db userId teamId (Shows db userId teamId) :=
          Tidy.congr (fun c ch => and_congr_left' (hlive c)) rfl rfl
        exact hedited.2 h
      | some ids =>
        have hin : id ∈ db.categories := AList.lookup_isSome.1 (Option.isSome_iff_exists.2 ⟨row, hlookup⟩)
        have hcleared (m : Uuid × Uuid) : m ∈ (edited.clearMappings id).mappings ↔ m.1 ≠ id ∧ m ∈ db.mappings := by
          refine Assoc.mem_eraseWhere.trans (and_congr_left' ?_)
          simp
        have hsame := @sameMembers_insertEach id env ids (edited.clearMappings id) 0
        obtain ⟨hcats, hmap⟩ := insertEach_spec env ids (edited.clearMappings id) 0 []
          (Assoc.mem_modify.2 hin) fun ch => by simp [hcleared]
        simp only [Option.some.injEq, forall_eq']
        refine Tidy.congr (fun c ch => ?_) hsame.channels hsame.channelMembers
        have hlive' : Live (env.insertEach id 0 ids (edited.clearMappings id)).1 userId teamId c ↔
            Live db userId teamId c := by
          rw [← hlive c, Live, Live, hcats]
          rfl
        refine and_congr hlive' ((hmap (c, ch)).trans ?_)
        rw [hcleared]
        by_cases hc : c = id
        · rw [if_pos hc]
          simp [hc]
          rfl
        · simp [hc]
    · next hfits =>
      refine iff_of_true h ?_
      rintro ⟨row', hrow', hfits'⟩
      rw [hrow] at hrow'
      cases hrow'
      exact absurd hfits' hfits

theorem moveMappings_eq_ok {target source : Uuid} (h : moveMappings db target source = .ok db') :
    db.SameMembers db' ∧ db'.categories = db.categories ∧ ∀ m : Uuid × Uuid, m ∈ db'.mappings ↔
      (m.1 ≠ source ∧ m ∈ db.mappings) ∨ (m.1 = target ∧ (source, m.2) ∈ db.mappings) := by
  unfold moveMappings at h
  split at h
  · rw [← Except.ok.inj h]
    refine ⟨⟨rfl, rfl, rfl, rfl⟩, rfl, fun m => Assoc.mem_foldl_insert.trans (or_congr ?_ ?_)⟩
    · rw [Assoc.mem_eraseWhere]
      simp
    · rw [← mem_mappingsOf]
      constructor
      · rintro ⟨p, hp, rfl⟩
        obtain ⟨q, hq, rfl⟩ := List.mem_map.1 hp
        exact ⟨rfl, q.2, hq⟩
      · rintro ⟨hm, i, hi⟩
        exact ⟨((target, m.2), i), List.mem_map.2 ⟨(m.2, i), hi, rfl⟩, Prod.ext hm.symm rfl⟩
  · cases h

theorem shows_softDelete {id : Uuid} {now : Int} (h : ∀ ch, (id, ch) ∉ db.mappings) :
    Shows (softDelete db id now) userId teamId c ch ↔ c ≠ id ∧ Shows db userId teamId c ch := by
  have hlookup (hc : c ≠ id) : (softDelete db id now).categories.lookup c = db.categories.lookup c :=
    (Assoc.lookup_modify _).trans (if_neg hc)
  constructor
  · rintro ⟨hlive, hm⟩
    have hc : c ≠ id := fun he => h ch (he ▸ hm)
    rw [Live, hlookup hc] at hlive
    exact ⟨hc, hlive, hm⟩
  · rintro ⟨hc, hlive, hm⟩
    refine ⟨?_, hm⟩
    rw [Live, hlookup hc]
    exact hlive

theorem Tidy.move (target source : Uuid) (h : Tidy db userId teamId R)
    (hR : ∀ c ch, R' c ch ↔ (c ≠ source ∧ R c ch) ∨ (c = target ∧ R source ch)) : Tidy db userId teamId R' := by
  refine ⟨fun c ch hc => ?_, fun c c' ch hb hc hc' => ?_, fun ch channel hm hch hs ha => ?_⟩
  · rcases (hR c ch).1 hc with ⟨-, hc⟩ | ⟨-, hc⟩
    · exact h.joined c ch hc
    · exact h.joined source ch hc
  · rcases (hR c ch).1 hc with ⟨hne, hc⟩ | ⟨rfl, hc⟩
    · rcases (hR c' ch).1 hc' with ⟨-, hc'⟩ | ⟨-, hc'⟩
      · exact h.once c c' ch hb hc hc'
      · exact absurd (h.once c source ch hb hc hc') hne
    · rcases (hR c' ch).1 hc' with ⟨hne, hc'⟩ | ⟨rfl, -⟩
      · exact absurd (h.once c' source ch hb hc' hc) hne
      · rfl
  · obtain ⟨c, hc⟩ := h.unarchived ch channel hm hch hs ha
    by_cases he : c = source
    · exact ⟨target, (hR target ch).2 (.inr ⟨rfl, he ▸ hc⟩)⟩
    · exact ⟨c, (hR c ch).2 (.inl ⟨he, hc⟩)⟩

theorem tidy_delete_iff {v t : Uuid} {now : Int} {categoryId : String}
    (h : Tidy db userId teamId (Shows db userId teamId)) :
    Tidy ((env.deleteCategory db now v t categoryId).toOption.getD db) userId teamId
      (Shows ((env.deleteCategory db now v t categoryId).toOption.getD db) userId teamId) ↔
      (v = userId → t = teamId → Unmaps env db v t categoryId →
        Tidy db userId teamId fun c ch => c ≠ env.categoryUuid categoryId ∧ Shows db userId teamId c ch) := by
  unfold deleteCategory
  dsimp only
  cases hrow : liveCategory db (env.categoryUuid categoryId) v t with
  | none =>
    refine iff_of_true h ?_
    rintro - - ⟨⟨row, hrow', -⟩, -⟩
    rw [hrow] at hrow'
    cases hrow'
  | some row =>
    obtain ⟨hlookup, huser, hteam, hdelete⟩ := liveCategory_eq_some.1 hrow
    by_cases htype : row.type ∈ ["channels", "direct_messages", "favorites"]
    · rw [okOr, Option.elim_some, Except.bind, ensure, if_neg (not_not.2 htype)]
      refine iff_of_true h ?_
      rintro - - ⟨⟨row', hrow', htype'⟩, -⟩
      rw [hrow] at hrow'
      cases hrow'
      exact absurd htype htype'
    · rw [okOr, Option.elim_some, Except.bind, ensure, if_pos htype, Except.bind]
      set id := env.categoryUuid categoryId
      -- in a sidebar of someone else nothing of the category is shown
      have hothers (c ch : Uuid) (hother : ¬ (v = userId ∧ t = teamId)) (hc : Shows db userId teamId c ch) : c ≠ id := by
        rintro rfl
        obtain ⟨⟨row', hrow', huser', hteam', -⟩, -⟩ := hc
        rw [hlookup] at hrow'
        cases hrow'
        exact hother ⟨huser.symm.trans huser', hteam.symm.trans hteam'⟩
      cases hdefault : (env.liveCategories db v t).find? fun row => row.2.type = "channels" with
      | none =>
        have hshows (c ch : Uuid) : Shows (softDelete (db.clearMappings id) id now) userId teamId c ch ↔
            c ≠ id ∧ Shows db userId teamId c ch := by
          refine (shows_softDelete fun ch hm => by simpa using (Assoc.mem_eraseWhere.1 hm).1).trans ?_
          refine and_congr_right fun hc => and_congr_right fun _ => Assoc.mem_eraseWhere.trans ?_
          simp [hc]
        have hcongr : Tidy (softDelete (db.clearMappings id) id now) userId teamId
            (Shows (softDelete (db.clearMappings id) id now) userId teamId) ↔
            Tidy db userId teamId fun c ch => c ≠ id ∧ Shows db userId teamId c ch :=
          Tidy.congr hshows rfl rfl
        have hunmaps : Unmaps env db v t categoryId :=
          ⟨⟨row, hrow, htype⟩, fun row' hrow' => by simpa using List.find?_eq_none.1 hdefault row' hrow'⟩
        refine hcongr.trans ⟨fun ht _ _ _ => ht, fun ht => ?_⟩
        by_cases hown : v = userId ∧ t = teamId
        · exact ht hown.1 hown.2 hunmaps
        · refine (Tidy.congr (fun c ch => ?_) rfl rfl).2 h
          exact and_iff_right_of_imp (hothers c ch hown)
      | some d =>
        have hd := List.find?_some hdefault
        have hdlive := mem_liveCategories.1 (List.mem_of_find?_eq_some hdefault)
        refine iff_of_true ?_ fun _ _ hunmaps => absurd (by simpa using hd)
          (hunmaps.2 d (List.mem_of_find?_eq_some hdefault))
        dsimp only
        cases hmove : moveMappings db d.1 id with
        | error e => exact h
        | ok moved =>
          obtain ⟨hsame, hcats, hmap⟩ := moveMappings_eq_ok hmove
          have hne : d.1 ≠ id := by
            intro he
            rw [he, hlookup] at hdlive
            obtain rfl := Option.some.inj hdlive.1
            simp [show d.2.type = "channels" by simpa using hd] at htype
          have hshows (c ch : Uuid) : Shows (softDelete moved id now) userId teamId c ch ↔
              c ≠ id ∧ Live db userId teamId c ∧
                ((c, ch) ∈ db.mappings ∨ c = d.1 ∧ (id, ch) ∈ db.mappings) := by
            refine (shows_softDelete fun ch hm => ?_).trans (and_congr_right fun hc => ?_)
            · rcases (hmap (id, ch)).1 hm with ⟨hid, -⟩ | ⟨hid, -⟩
              · exact hid rfl
              · exact hne hid.symm
            · rw [Shows, Live, hcats, hmap]
              simp [hc, Live]
          have hcongr : Tidy (softDelete moved id now) userId teamId
              (Shows (softDelete moved id now) userId teamId) ↔
              Tidy db userId teamId fun c ch => c ≠ id ∧ Live db userId teamId c ∧
                ((c, ch) ∈ db.mappings ∨ c = d.1 ∧ (id, ch) ∈ db.mappings) :=
            Tidy.congr hshows hsame.channels hsame.channelMembers
          refine hcongr.2 ?_
          by_cases hown : v = userId ∧ t = teamId
          · obtain ⟨rfl, rfl⟩ := hown
            have hlive : Live db v t id := ⟨row, hlookup, huser, hteam, hdelete⟩
            refine Tidy.move d.1 id h fun c ch => ?_
            constructor
            · rintro ⟨hc, hlivec, hm | ⟨hcd, hm⟩⟩
              · exact .inl ⟨hc, hlivec, hm⟩
              · exact .inr ⟨hcd, hlive, hm⟩
            · rintro (⟨hc, hlivec, hm⟩ | ⟨rfl, -, hm⟩)
              · exact ⟨hc, hlivec, .inl hm⟩
              · exact ⟨hne, ⟨d.2, hdlive⟩, .inr ⟨rfl, hm⟩⟩
          · refine (Tidy.congr (fun c ch => ?_) rfl rfl).2 h
            constructor
            · rintro ⟨hc, hlivec, hm | ⟨rfl, -⟩⟩
              · exact ⟨hlivec, hm⟩
              · obtain ⟨row', hrow', huser', hteam', -⟩ := hlivec
                rw [hdlive.1] at hrow'
                cases hrow'
                exact absurd ⟨hdlive.2.1.symm.trans huser', hdlive.2.2.1.symm.trans hteam'⟩ hown
            · exact fun hs => ⟨hothers c ch hown hs, hs.1, .inl hs.2⟩

/-! ### Runs -/

theorem isTeamMember_perform (act : SidebarAct) :
    IsTeamMember (env.perform db act) userId teamId ↔ IsTeamMember db userId teamId := by
  suffices h : (env.perform db act).teams = db.teams ∧ (env.perform db act).teamMembers = db.teamMembers by
    rw [IsTeamMember, IsTeamMember, h.1, h.2]
  cases act with
  | join ch v =>
    rw [perform, SidebarDb.join]
    split <;> exact ⟨rfl, rfl⟩
  | leave ch v => exact ⟨rfl, rfl⟩
  | create v t drawn input =>
    rw [perform]
    cases hresult : env.createCategory db drawn v t input with
    | error e => exact ⟨rfl, rfl⟩
    | ok out =>
      simp only [createCategory, bind_eq_ok] at hresult
      obtain ⟨-, -, -, -, -, -, hresult⟩ := hresult
      split at hresult
      · rw [← Except.ok.inj hresult]
        exact ⟨rfl, rfl⟩
      · cases hresult
  | updateCategories v t now cats =>
    rw [perform]
    by_cases haccepts : env.Accepts db v t cats
    · obtain ⟨db', hok, hsame, -⟩ := updateCategories_spec haccepts now
      rw [hok]
      exact ⟨hsame.teams, hsame.teamMembers⟩
    · rw [commit_of_not_accepts haccepts]
      exact ⟨rfl, rfl⟩
  | updateOrder v t order =>
    rw [perform]
    cases hresult : env.updateCategoryOrder db v t order with
    | error e => exact ⟨rfl, rfl⟩
    | ok out =>
      obtain ⟨_, -, rfl⟩ := map_eq_ok.1 hresult
      obtain ⟨hsame, -⟩ := @setOrders_spec env db userId teamId v t 0 order
      exact ⟨hsame.teams, hsame.teamMembers⟩
  | updateCategory v t now categoryId input =>
    rw [perform]
    unfold updateCategory
    dsimp only
    split
    · exact ⟨rfl, rfl⟩
    · split
      · cases input.channelIds with
        | none => exact ⟨rfl, rfl⟩
        | some ids =>
          have hsame := sameMembers_insertEach (c := env.categoryUuid categoryId) env ids
          exact ⟨(hsame _ 0).teams, (hsame _ 0).teamMembers⟩
      · exact ⟨rfl, rfl⟩
  | delete v t now categoryId =>
    rw [perform]
    cases hresult : env.deleteCategory db now v t categoryId with
    | error e => exact ⟨rfl, rfl⟩
    | ok db' =>
      simp only [deleteCategory, bind_eq_ok, map_eq_ok] at hresult
      obtain ⟨row, -, -, -, moved, hmoved, rfl⟩ := hresult
      split at hmoved
      · obtain ⟨hsame, -⟩ := moveMappings_eq_ok hmoved
        exact ⟨hsame.teams, hsame.teamMembers⟩
      · rw [← Except.ok.inj hmoved]
        exact ⟨rfl, rfl⟩

theorem partitions_perform_iff (h : Partitions env userId teamId db) (act : SidebarAct) :
    Partitions env userId teamId (env.perform db act) ↔ Keeps env userId teamId db act := by
  rw [partitions_iff] at h ⊢
  rw [isTeamMember_perform]
  unfold Keeps
  refine imp_congr_right fun hmember => ?_
  have ht := h hmember
  cases act with
  | join ch v => exact tidy_join_iff ht
  | leave ch v => exact tidy_leave_iff ht
  | create v t drawn input => exact tidy_create_iff.trans (iff_true_intro ht)
  | updateCategories v t now cats => exact tidy_updateCategories_iff ht
  | updateOrder v t order => exact tidy_updateOrder_iff.trans (iff_true_intro ht)
  | updateCategory v t now categoryId input => exact tidy_updateCategory_iff ht
  | delete v t now categoryId => exact tidy_delete_iff ht

theorem partitions_start (teams : List Uuid) (teamMembers : List (Uuid × Uuid)) (channels : Assoc Uuid SidebarChannel) :
    Partitions env userId teamId (start teams teamMembers channels) := by
  refine partitions_iff.2 fun _ => ⟨fun c ch hs => ?_, fun c c' ch _ hs => ?_, fun ch channel hm => ?_⟩
  · exact absurd hs.2 (AList.notMem_empty _)
  · exact absurd hs.2 (AList.notMem_empty _)
  · exact absurd hm (AList.notMem_empty _)

/-- Every answer along a run is a partition exactly if every step leaves the mappings tidy. -/
theorem partitions_iff_allSteps (env : SidebarEnv) (userId teamId : Uuid) (teams : List Uuid)
    (teamMembers : List (Uuid × Uuid)) (channels : Assoc Uuid SidebarChannel) (acts : List SidebarAct) :
    Run.AllStates env.step (Partitions env userId teamId) (start teams teamMembers channels) acts ↔
      Run.AllSteps env.step (Keeps env userId teamId) (start teams teamMembers channels) acts := by
  obtain ⟨db, hrun⟩ := @Run.exists_exec_of_enabled _ _ env.step (fun db act => ⟨env.perform db act, rfl⟩)
    (start teams teamMembers channels) acts
  refine Run.allStates_iff_allSteps (I := fun _ => True) (fun _ _ _ _ _ => trivial) ?_ trivial
    (partitions_start teams teamMembers channels) hrun
  rintro db act db' - h hstep
  rw [← Option.some.inj hstep]
  exact partitions_perform_iff h act

/-- The user `1` maps the channel `5` to a category and leaves it. -/
def leftChannel : List SidebarAct :=
  [.join 5 1, .create 1 3 ⟨9, 0⟩ ⟨none, none, "Mine", none, none⟩,
    .updateCategories 1 3 0 [{ SidebarIsolation.emptyEntry with channelIds := [(5 : Uuid).hyphenated] }], .leave 5 1]

def oneChannel : Assoc Uuid SidebarChannel := (∅ : Assoc Uuid SidebarChannel).insert 5 ⟨3, .Public, "general", none, false⟩

theorem lists_left_channel : ¬ Run.AllStates SidebarIsolation.plainEnv.step (Partitions SidebarIsolation.plainEnv 1 3)
    (start [3] [(3, 1)] oneChannel) leftChannel := by
  intro h
  set env := SidebarIsolation.plainEnv
  set created := env.perform (env.perform (start [3] [(3, 1)] oneChannel) (.join 5 1))
    (.create 1 3 ⟨9, 0⟩ ⟨none, none, "Mine", none, none⟩)
  set entry : SidebarCategory := { SidebarIsolation.emptyEntry with channelIds := [(5 : Uuid).hyphenated] }
  have hchannels : env.entryChannels entry = [5] := by
    show List.filterMap env.parse [(5 : Uuid).hyphenated] = [5]
    rw [List.filterMap_cons_some (SidebarIsolation.parse_hyphenated 5), List.filterMap_nil]
  have hid : env.categoryUuid entry.id = 9 := by
    show env.categoryUuid (9 : Uuid).hyphenated = 9
    rw [categoryUuid, SidebarIsolation.parse_hyphenated]
    rfl
  have haccepts : env.Accepts created 1 3 [entry] := by
    refine ⟨⟨by decide, by decide⟩, fun cat hcat => ?_⟩
    obtain rfl := List.mem_singleton.1 hcat
    exact
      { user := SidebarIsolation.parse_hyphenated 1
        team := SidebarIsolation.parse_hyphenated 3
        fits := by decide
        parsed := fun id hid => by
          rw [List.mem_singleton.1 hid, SidebarIsolation.parse_hyphenated]
          rfl
        category := fun _ => by
          rw [hid]
          decide
        channels := fun ch hch => by
          rw [hchannels, List.mem_singleton] at hch
          rw [hch]
          decide
        nodup := by
          rw [hchannels]
          decide }
  obtain ⟨updated, hok, hsame, hcats, hmap⟩ := updateCategories_spec haccepts 0
  have hexec : Run.exec env.step (start [3] [(3, 1)] oneChannel) leftChannel = some (updated.leave 5 1) := by
    show some ((commit created (env.updateCategories created 0 1 3 [entry])).leave 5 1) = _
    rw [hok]
    rfl
  have hmember : IsTeamMember updated 1 3 := by
    rw [IsTeamMember, hsame.teams, hsame.teamMembers]
    exact haccepts.1
  have hlive : Live updated 1 3 9 :=
    (live_congr hcats fun id row _ => foldl_editRow_owner _ row id).2 ⟨_, rfl, rfl, rfl, rfl⟩
  have hmapped : (9, 5) ∈ updated.mappings := by
    rw [← AList.lookup_isSome, hmap, assigned_cons, hid, if_pos rfl, hchannels]
    rfl
  have hshows : Shows (updated.leave 5 1) 1 3 9 5 := ⟨hlive, hmapped⟩
  have hjoined := (partitions_iff.1 (h.last hexec) hmember).joined 9 5 hshows
  exact (AList.mem_erase.1 hjoined).1 rfl

end SidebarPartition
end Rustchat
