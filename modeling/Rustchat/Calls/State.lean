import Mathlib.Data.Finset.Insert
import Mathlib.Data.Prod.Lex
import Rustchat.Lib.Assoc
import Rustchat.MmId

/-!
# The state of a call (`calls_plugin/state.rs`)

A `CallState` has its participants by user, who shares the screen and who is the host. `Mutation` lists what the
callers of `mutate_call` do to it. `select_next_host` takes the participant who joined first
(`selectNextHost_eq_some`), in whatever order the hash map gives them.
-/

namespace Rustchat.Calls

structure Participant where
  userId : Uuid
  sessionId : Uuid
  joinedAt : Int
  muted : Bool
  screenSharing : Bool
  handRaised : Bool
deriving DecidableEq

/-- The participants of a call by their users. -/
structure Participants where
  table : Assoc Uuid Participant
  keyed : ∀ u p, table.lookup u = some p → p.userId = u

namespace Participants

def empty : Participants := ⟨∅, fun _ _ h => by rw [AList.lookup_empty] at h; cases h⟩

def lookup (ps : Participants) (userId : Uuid) : Option Participant := ps.table.lookup userId

def values (ps : Participants) : List Participant := ps.table.entries.map (·.2)

def len (ps : Participants) : ℕ := ps.table.entries.length

def insert (ps : Participants) (p : Participant) : Participants where
  table := ps.table.insert p.userId p
  keyed u q h := by
    rcases Assoc.lookup_insert_cases h with ⟨rfl, rfl⟩ | ⟨-, h⟩
    · rfl
    · exact ps.keyed u q h

def remove (ps : Participants) (userId : Uuid) : Participants where
  table := ps.table.erase userId
  keyed u p h := ps.keyed u p (Assoc.lookup_erase_cases h).2

/-- `get_mut` of a participant and a change that keeps the user. -/
def update (ps : Participants) (userId : Uuid) (f : Participant → Participant)
    (hf : ∀ p, (f p).userId = p.userId) : Participants where
  table := Assoc.modify userId f ps.table
  keyed u p h := by
    rw [Assoc.lookup_modify] at h
    split at h
    · next hu =>
      obtain ⟨q, hq, rfl⟩ := Option.map_eq_some_iff.1 h
      rw [hf, ps.keyed _ _ hq, hu]
    · exact ps.keyed u p h

variable {ps : Participants} {p : Participant} {u v : Uuid} {f : Participant → Participant}
  {hf : ∀ p, (f p).userId = p.userId}

@[simp] theorem lookup_empty : empty.lookup u = none := AList.lookup_empty u

theorem userId_of_lookup (h : ps.lookup u = some p) : p.userId = u := ps.keyed u p h

@[simp] theorem lookup_insert : (ps.insert p).lookup u = if u = p.userId then some p else ps.lookup u :=
  Assoc.lookup_insert_eq

@[simp] theorem lookup_remove : (ps.remove v).lookup u = if u = v then none else ps.lookup u :=
  Assoc.lookup_erase_eq

@[simp] theorem lookup_update :
    (ps.update v f hf).lookup u = if u = v then (ps.lookup v).map f else ps.lookup u := Assoc.lookup_modify f

theorem isSome_lookup_update : ((ps.update v f hf).lookup u).isSome = (ps.lookup u).isSome := by
  rw [lookup_update]
  split
  · next hu => rw [hu, Option.isSome_map]
  · rfl

theorem mem_values : p ∈ ps.values ↔ ps.lookup p.userId = some p := by
  rw [values, List.mem_map]
  constructor
  · rintro ⟨⟨u, q⟩, he, rfl⟩
    have hl := Assoc.mem_entries_iff.1 he
    rw [ps.keyed u q hl]
    exact hl
  · exact fun h => ⟨⟨p.userId, p⟩, Assoc.mem_entries_iff.2 h, rfl⟩

theorem mem_values_of_lookup (h : ps.lookup u = some p) : p ∈ ps.values := by
  rw [mem_values, userId_of_lookup h, h]

theorem len_eq_total : ps.len = Assoc.total (fun _ => 1) ps.table := by
  rw [len, Assoc.total]
  induction ps.table.entries with
  | nil => rfl
  | cons e es ih => rw [List.length_cons, ih, List.map_cons, List.sum_cons, Nat.add_comm]

theorem len_eq_zero : ps.len = 0 ↔ ∀ u, ps.lookup u = none := by
  rw [len, List.length_eq_zero_iff]
  constructor
  · intro h u
    cases hl : ps.lookup u with
    | none => rfl
    | some p =>
      have hmem := Assoc.mem_entries_iff.2 hl
      rw [h] at hmem
      cases hmem
  · intro h
    refine List.eq_nil_iff_forall_not_mem.2 fun ⟨u, p⟩ he => ?_
    have hl := Assoc.mem_entries_iff.1 he
    rw [show ps.table.lookup u = none from h u] at hl
    cases hl

theorem len_insert (h : ps.lookup p.userId = none) : (ps.insert p).len = ps.len + 1 := by
  rw [len_eq_total, len_eq_total, Nat.add_comm]
  exact Assoc.total_insert_new h

theorem len_insert_of_lookup {q : Participant} (h : ps.lookup p.userId = some q) :
    (ps.insert p).len = ps.len := by
  rw [len_eq_total, len_eq_total, Assoc.total_eq_of_lookup h]
  exact Assoc.total_insert

theorem len_le_len_insert : ps.len ≤ (ps.insert p).len := by
  cases h : ps.lookup p.userId with
  | none => rw [len_insert h]; exact Nat.le_succ _
  | some q => rw [len_insert_of_lookup h]

theorem len_update : (ps.update u f hf).len = ps.len := by
  unfold update
  cases h : ps.table.lookup u with
  | none => rw [len]; simp only [Assoc.modify_of_none f h]; rfl
  | some p =>
    have hl : ps.lookup (f p).userId = some p := by rw [hf, ps.keyed _ _ h]; exact h
    rw [← len_insert_of_lookup hl, len, len]
    simp only [Assoc.modify_of_lookup f h, insert, hf, ps.keyed _ _ h]

end Participants

/-! ### The host -/

/-- The key `(joined_at, user_id)`. -/
def Participant.key (p : Participant) : ℤ ×ₗ ℕ := toLex (p.joinedAt, p.userId.toNat)

/-- `min_by_key(|participant| (participant.joined_at, participant.user_id))`. -/
def minByKey : List Participant → Option Participant
  | [] => none
  | p :: ps =>
    match minByKey ps with
    | none => some p
    | some q => if q.key < p.key then some q else some p

def selectNextHost (participants : Participants) : Option Uuid :=
  (minByKey participants.values).map (·.userId)

theorem userId_of_key {p q : Participant} (h : p.key = q.key) : p.userId = q.userId := by
  have hpair := toLex.injective h
  exact BitVec.eq_of_toNat_eq (congrArg Prod.snd hpair)

theorem minByKey_eq_none {ps : List Participant} : minByKey ps = none ↔ ps = [] := by
  cases ps with
  | nil => exact ⟨fun _ => rfl, fun _ => rfl⟩
  | cons p ps =>
    refine ⟨fun h => ?_, fun h => by cases h⟩
    rw [minByKey] at h
    split at h
    · cases h
    · split at h <;> cases h

theorem minByKey_spec {ps : List Participant} {p : Participant} (h : minByKey ps = some p) :
    p ∈ ps ∧ ∀ q ∈ ps, p.key ≤ q.key := by
  induction ps generalizing p with
  | nil => cases h
  | cons q ps ih =>
    rw [minByKey] at h
    split at h
    · next hnone =>
      obtain rfl := Option.some.inj h
      obtain rfl := minByKey_eq_none.1 hnone
      exact ⟨List.mem_singleton_self _, fun r hr => (List.mem_singleton.1 hr ▸ le_refl _)⟩
    · next r hr =>
      obtain ⟨hmem, hmin⟩ := ih hr
      split at h
      · next hlt =>
        obtain rfl := Option.some.inj h
        exact ⟨List.mem_cons_of_mem _ hmem, List.forall_mem_cons.2 ⟨hlt.le, hmin⟩⟩
      · next hle =>
        obtain rfl := Option.some.inj h
        exact ⟨List.mem_cons_self, List.forall_mem_cons.2 ⟨le_refl _, fun r' hr' => (not_lt.1 hle).trans (hmin r' hr')⟩⟩

theorem selectNextHost_eq_some {ps : Participants} {u : Uuid} : selectNextHost ps = some u ↔
    ∃ p, ps.lookup u = some p ∧ ∀ v q, ps.lookup v = some q → p.key ≤ q.key := by
  rw [selectNextHost, Option.map_eq_some_iff]
  constructor
  · rintro ⟨p, hp, rfl⟩
    obtain ⟨hmem, hmin⟩ := minByKey_spec hp
    exact ⟨p, Participants.mem_values.1 hmem, fun v q hq => hmin q (Participants.mem_values_of_lookup hq)⟩
  · rintro ⟨p, hp, hmin⟩
    cases hq : minByKey ps.values with
    | none =>
      have hmem := Participants.mem_values_of_lookup hp
      rw [minByKey_eq_none.1 hq] at hmem
      cases hmem
    | some q =>
      obtain ⟨hmem, hmin'⟩ := minByKey_spec hq
      have hkey := le_antisymm (hmin' p (Participants.mem_values_of_lookup hp)) (hmin _ q (Participants.mem_values.1 hmem))
      exact ⟨q, rfl, (userId_of_key hkey).trans (Participants.userId_of_lookup hp)⟩

theorem selectNextHost_eq_none {ps : Participants} : selectNextHost ps = none ↔ ps.len = 0 := by
  rw [selectNextHost, Option.map_eq_none_iff, minByKey_eq_none, Participants.values, List.map_eq_nil_iff,
    Participants.len, List.length_eq_zero_iff]

/-! ### The call -/

structure CallState where
  callId : Uuid
  channelId : Uuid
  ownerId : Uuid
  hostId : Uuid
  startedAt : Int
  participants : Participants
  screenSharer : Option Uuid
  threadId : Option Uuid
  dismissedUsers : Finset Uuid

/-- What the callers of `mutate_call` do to a call. -/
inductive Mutation
  | addParticipant (participant : Participant)
  | removeParticipant (userId : Uuid)
  | setMuted (userId : Uuid) (muted : Bool)
  | setScreenSharing (userId : Uuid) (sharing : Bool)
  | setScreenSharer (userId : Option Uuid)
  | setHandRaised (userId : Uuid) (raised : Bool)
  | setHost (hostId : Uuid)
  | setThreadId (threadId : Option Uuid)
  | dismissUserNotification (userId : Uuid)

def Mutation.apply : Mutation → CallState → CallState
  | addParticipant participant, call => { call with participants := call.participants.insert participant }
  | removeParticipant userId, call =>
    { call with
      participants := call.participants.remove userId
      -- if the screen sharer left, clear the screen sharer
      screenSharer := if call.screenSharer = some userId then none else call.screenSharer }
  | setMuted userId muted, call =>
    { call with participants := call.participants.update userId (fun p => { p with muted }) fun _ => rfl }
  | setScreenSharing userId sharing, call =>
    { call with
      participants := call.participants.update userId (fun p => { p with screenSharing := sharing }) fun _ => rfl }
  | setScreenSharer userId, call => { call with screenSharer := userId }
  | setHandRaised userId raised, call =>
    { call with participants := call.participants.update userId (fun p => { p with handRaised := raised }) fun _ => rfl }
  | setHost hostId, call => { call with hostId }
  | setThreadId threadId, call => { call with threadId }
  | dismissUserNotification userId, call => { call with dismissedUsers := insert userId call.dismissedUsers }

@[simp] theorem Mutation.apply_callId (m : Mutation) (call : CallState) :
    (m.apply call).callId = call.callId := by
  cases m <;> rfl

@[simp] theorem Mutation.apply_channelId (m : Mutation) (call : CallState) :
    (m.apply call).channelId = call.channelId := by
  cases m <;> rfl

end Rustchat.Calls
