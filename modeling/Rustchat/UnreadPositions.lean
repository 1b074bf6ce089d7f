import Rustchat.Unreads

/-!
# Read positions

Every operation that reads a channel first asks how far, or is told, and then overwrites the position whatever it is by
then. A position is put back where an operation that finishes later has asked, or was sent, earlier, and by the deletion
of the latest posts. It never goes back exactly as long as no position is overwritten that lies beyond what the operation
was to read (`Unreads.neverBack_iff`).
-/

namespace Rustchat.Unreads

/-- The stored position of a user in a channel does not go back, and what was read stays read. -/
structure NeverBack (userId channelId : Uuid) (s s' : Store) : Prop where
  position : ∀ a, s.reads.lookup (userId, channelId) = some a →
    ∃ b, s'.reads.lookup (userId, channelId) = some b ∧ a ≤ b
  read : ∀ seq a, s.reads.lookup (userId, channelId) = some a → seq ≤ a →
    ∃ b, s'.reads.lookup (userId, channelId) = some b ∧ seq ≤ b

/-- The largest number in the channel when the task asked for it, with what it did last. -/
def largest (older : List Event) (e : Event) (channelId : Uuid) (undeleted : Bool) : Option Int :=
  (Pool.lastOf older e.task).map fun asked => (asked.before.maxSeq channelId undeleted).getD 0

/-- How far an operation is to read a channel: to the post that is sent, to what the request says, or to the last post
of the channel. -/
def target (older : List Event) (e : Event) (channelId : Uuid) : Option Int :=
  match e.label with
  | .createPost post => some post.seq
  | .markChannelAsRead _ _ (some seq) => some seq
  | .markChannelAsRead _ _ none => largest older e channelId true
  | .markAllAsRead _ => largest older e channelId false
  | _ => none

/-- A position that is overwritten does not lie beyond what the operation is to read. -/
def Onward (db : Tables) (userId channelId : Uuid) (older : List Event) (e : Event) : Prop :=
  match e.act with
  | .upsertRead v c _ => v = userId → c = channelId → channelId ∈ db.teams →
    ∀ a ∈ e.before.reads.lookup (userId, channelId), ∀ seq ∈ target older e channelId, a ≤ seq
  | _ => True

instance (db : Tables) (userId channelId : Uuid) (older : List Event) (e : Event) :
    Decidable (Onward db userId channelId older e) := by
  unfold Onward
  split <;> infer_instance

/-! ### What the operations write -/

/-- Positions are written as the operation was told, or as it has just asked. -/
def Told (op : Operation) (past : List (Sigma UnreadAct.Res)) : UnreadAct → Prop
  | .upsertRead _ channelId seq =>
    match op with
    | .createPost post => seq = post.seq
    | .markChannelAsRead _ _ (some target) => seq = target
    | .markChannelAsRead _ _ none =>
      ∃ r : Option Int, past.getLast? = some ⟨.selectMaxSeq channelId true, r⟩ ∧ seq = r.getD 0
    | .markAllAsRead _ =>
      ∃ r : Option Int, past.getLast? = some ⟨.selectMaxSeq channelId false, r⟩ ∧ seq = r.getD 0
    | _ => False
  | _ => True

def UnreadAct.moves : UnreadAct → Bool
  | .upsertRead _ _ _ => true
  | _ => false

section Programs

variable {op : Operation} {config : UnreadConfig} {order : List Uuid → List Uuid} {userId channelId teamId : Uuid}
  {α : Type}

theorem told_query {act : UnreadAct} (h : act.moves = false) : Prog.Always (Told op) (query act) := by
  refine Prog.always_lift fun past => ?_
  cases act with
  | upsertRead v c seq => cases h
  | _ => exact trivial

theorem told_of_recounts {p : UnreadProg α} (h : Recounts p) : Prog.Always (Told op) p := by
  refine h.mono fun past act hact => ?_
  cases act with
  | upsertRead v c seq => cases hact
  | _ => exact trivial

theorem told_writePosition {seq : Int} (h : ∀ past, Told op past (.upsertRead userId channelId seq)) :
    Prog.Always (Told op) (writePosition userId channelId seq) := by
  refine (Prog.always_lift h).bind fun written => ?_
  split
  · exact Prog.always_throw _
  · exact Prog.always_pure _

theorem told_of_caches {p : UnreadProg α} (h : Caches p) : Prog.Always (Told op) p := by
  refine h.mono fun past act hact => ?_
  cases act with
  | upsertRead v c seq => cases hact
  | _ => exact trivial

theorem told_createPost (post : PostRow) : Prog.Always (Told (.createPost post)) (createPost post) := by
  refine (told_query rfl).bind fun inserted => ?_
  split
  · exact Prog.always_throw _
  · have hposition : Prog.Always (Told (.createPost post)) (writePosition post.userId post.channelId post.seq) :=
      told_writePosition fun past => rfl
    refine (told_of_recounts recounts_fetchTeamId).bind fun teamId => hposition.bind fun _ =>
      (told_query rfl).bind fun members => (told_query rfl).bind fun conn => ?_
    split
    · exact Prog.always_forM (fun _ => told_of_recounts recounts_markDirtyBestEffort) _
    · exact (told_query rfl).bind fun _ => Prog.always_forM (fun _ => told_of_caches caches_incrementMember) _

variable (op userId channelId) in
theorem told_asked {undeleted : Bool} (h : ∀ (past : List (Sigma UnreadAct.Res)) (r : Option Int),
      past.getLast? = some ⟨.selectMaxSeq channelId undeleted, r⟩ →
        Told op past (.upsertRead userId channelId (r.getD 0))) :
    Prog.Always (Told op) (do
      let r ← query (.selectMaxSeq channelId undeleted)
      writePosition userId channelId (r.getD 0)) := by
  refine fun past => Prog.follows_run_call.2 ⟨trivial,
    fun r => Prog.follows_run_call.2 ⟨?_, fun written => ?_⟩⟩
  · exact h _ r (by simp)
  · split <;> exact trivial

theorem told_markChannelAsRead (config : UnreadConfig) (userId channelId : Uuid) (target : Option Int) :
    Prog.Always (Told (.markChannelAsRead userId channelId target)) (markChannelAsRead config userId channelId target) := by
  have hall (hposition : Prog.Always (Told (.markChannelAsRead userId channelId target)) (do
        let lastReadId ← targetSeq channelId target
        writePosition userId channelId lastReadId)) :
      Prog.Always (Told (.markChannelAsRead userId channelId target)) (markChannelAsRead config userId channelId target) := by
    have hrest : Recounts (recacheChannel config userId channelId) := recounts_recacheChannel
    have h := hposition.bind fun _ => told_of_recounts hrest
    rw [bind_assoc] at h
    exact h
  refine hall ?_
  cases target with
  | none =>
    have h := told_asked (.markChannelAsRead userId channelId none) userId channelId
      fun past r hlast => ⟨r, hlast, rfl⟩
    exact h
  | some seq =>
    have h : Prog.Always (Told (.markChannelAsRead userId channelId (some seq))) (writePosition userId channelId seq) :=
      told_writePosition fun past => rfl
    exact h

theorem told_markAllAsRead (order : List Uuid → List Uuid) (userId : Uuid) :
    Prog.Always (Told (.markAllAsRead userId)) (markAllAsRead order userId) := by
  refine (told_query rfl).bind fun channelRows => (Prog.always_forM (fun channel => ?_) _).bind fun _ =>
    told_of_recounts recounts_dropCached
  exact told_asked _ _ _ fun past r h => ⟨r, h, rfl⟩

end Programs

/-! ### Every run -/

section Runs

variable {db : Tables} {order : List Uuid → List Uuid} {s : Store} {inputs : List Input} {operations : Operations}
  {userId channelId : Uuid}

theorem told_operation (op : Operation) : Prog.Always (Told op) (operation db.config order op) := by
  cases op with
  | createPost post => exact (told_createPost post).bind fun _ => Prog.always_pure _
  | deletePost id => exact (told_query rfl).bind fun _ => Prog.always_pure _
  | markChannelAsRead v c target => exact (told_markChannelAsRead _ v c target).bind fun _ => Prog.always_pure _
  | markAllAsRead v => exact (told_markAllAsRead order v).bind fun _ => Prog.always_pure _
  | getUnreadOverview v =>
    exact (told_of_recounts recounts_getUnreadOverview).bind fun overview => Prog.always_pure (some overview)
  | syncUserUnreadCache v => exact (told_of_recounts recounts_syncUserUnreadCache).bind fun _ => Prog.always_pure _

theorem target_of_run (hrun : Run.exec (step db order) (Pool.start s) inputs = some operations)
    {older newer : List Event} {e : Event} (hsplit : trace db order s inputs = older ++ e :: newer)
    {v c : Uuid} {seq : Int} (hact : e.act = .upsertRead v c seq) : target older e c = some seq := by
  have htold : Told e.label (Pool.performed older e.task) e.act :=
    Pool.follows_of_run (W := Told) (fun op => told_operation op []) hrun older e newer hsplit
  have hlargest : ∀ undeleted (r : Option Int),
      (Pool.performed older e.task).getLast? = some ⟨.selectMaxSeq c undeleted, r⟩ →
        largest older e c undeleted = some (r.getD 0) := by
    intro undeleted r hlast
    rw [Pool.getLast?_performed, Option.map_eq_some_iff] at hlast
    obtain ⟨asked, hasked, heq⟩ := hlast
    have hmem : asked ∈ trace db order s inputs := by
      rw [hsplit]
      exact List.mem_append_left _ (Pool.mem_of_lastOf hasked)
    obtain ⟨o, hres, -⟩ := Pool.sem_of_run hrun asked hmem
    rw [largest, hasked, Option.map_some]
    obtain ⟨t, label, act, res, before, after⟩ := asked
    cases heq
    exact congrArg (fun r => some (Option.getD r 0)) hres.symm
  rw [hact] at htold
  unfold target
  obtain ⟨t, label, act, res, before, after⟩ := e
  cases label with
  | createPost post => exact congrArg some (Eq.symm htold)
  | markChannelAsRead v' c' target =>
    cases target with
    | none =>
      obtain ⟨r, hlast, rfl⟩ := htold
      exact hlargest true r hlast
    | some seq' => exact congrArg some (Eq.symm htold)
  | markAllAsRead v' =>
    obtain ⟨r, hlast, rfl⟩ := htold
    exact hlargest false r hlast
  | deletePost id => exact htold.elim
  | getUnreadOverview v' => exact htold.elim
  | syncUserUnreadCache v' => exact htold.elim

theorem NeverBack.refl (s : Store) : NeverBack userId channelId s s :=
  ⟨fun a ha => ⟨a, ha, le_refl a⟩, fun _ a ha hle => ⟨a, ha, hle⟩⟩

theorem NeverBack.trans {s t u : Store} (h : NeverBack userId channelId s t) (h' : NeverBack userId channelId t u) :
    NeverBack userId channelId s u := by
  constructor
  · intro a ha
    obtain ⟨b, hb, hab⟩ := h.position a ha
    obtain ⟨c, hc, hbc⟩ := h'.position b hb
    exact ⟨c, hc, hab.trans hbc⟩
  · intro seq a ha hle
    obtain ⟨b, hb, hab⟩ := h.position a ha
    exact h'.read seq b hb (hle.trans hab)

theorem neverBack_of_lookup_eq {s t : Store}
    (h : t.reads.lookup (userId, channelId) = s.reads.lookup (userId, channelId)) :
    NeverBack userId channelId s t :=
  ⟨fun a ha => ⟨a, h.trans ha, le_refl a⟩, fun _ a ha hle => ⟨a, h.trans ha, hle⟩⟩

theorem neverBack_of_lookup {s t : Store} {seq : Int} (h : t.reads.lookup (userId, channelId) = some seq) :
    NeverBack userId channelId s t ↔ ∀ a ∈ s.reads.lookup (userId, channelId), a ≤ seq := by
  constructor
  · intro hback a ha
    obtain ⟨b, hb, hle⟩ := hback.position a ha
    rw [h] at hb
    cases hb
    exact hle
  · intro hle
    exact ⟨fun a ha => ⟨seq, h, hle a ha⟩, fun seq' a ha hseq => ⟨seq, h, hseq.trans (hle a ha)⟩⟩

theorem reads_perform {redis : Except String Unit} {act : UnreadAct} (h : act.moves = false) :
    (s.perform db redis act).2.reads = s.reads := by
  cases act with
  | upsertRead v c seq => cases h
  | insertPost post =>
    show (s.insertPost db post).2.reads = s.reads
    unfold Store.insertPost
    split <;> rfl
  | _ => rfl

theorem lookup_upsertRead {v c : Uuid} {seq : Int} : (s.upsertRead db v c seq).2.reads.lookup (userId, channelId) =
    if userId = v ∧ channelId = c ∧ c ∈ db.teams then some seq else s.reads.lookup (userId, channelId) := by
  unfold Store.upsertRead
  by_cases hc : c ∈ db.teams
  · rw [if_pos hc]
    show (s.reads.insert (v, c) seq).lookup (userId, channelId) = _
    rw [Assoc.lookup_insert_eq]
    simp [hc]
  · rw [if_neg hc, if_neg fun h => hc h.2.2]

/-- The step lemma: a position is kept from going back exactly by writing one that lies onward. -/
theorem neverBack_iff_onward (hrun : Run.exec (step db order) (Pool.start s) inputs = some operations)
    {older newer : List Event} {e : Event} (hsplit : trace db order s inputs = older ++ e :: newer) :
    NeverBack userId channelId e.before e.after ↔ Onward db userId channelId older e := by
  have hmem : e ∈ trace db order s inputs := by
    rw [hsplit]
    exact List.mem_append_right _ List.mem_cons_self
  obtain ⟨o, -, hafter⟩ := Pool.sem_of_run hrun e hmem
  cases hact : e.act with
  | upsertRead v c seq =>
    have htarget := target_of_run hrun hsplit hact
    rw [hact] at hafter
    replace hafter : e.after = (e.before.upsertRead db v c seq).2 := hafter
    have hlookup : e.after.reads.lookup (userId, channelId) =
        if userId = v ∧ channelId = c ∧
          c ∈ db.teams then some seq else e.before.reads.lookup (userId, channelId) := by
      rw [hafter, lookup_upsertRead]
    unfold Onward
    rw [hact]
    by_cases h : userId = v ∧ channelId = c ∧ c ∈ db.teams
    · rw [if_pos h] at hlookup
      obtain ⟨rfl, rfl, hc⟩ := h
      rw [neverBack_of_lookup hlookup]
      constructor
      · intro hle _ _ _ a ha seq' hseq'
        rw [htarget] at hseq'
        cases hseq'
        exact hle a ha
      · intro h a ha
        exact h rfl rfl hc a ha seq htarget
    · rw [if_neg h] at hlookup
      constructor
      · rintro - rfl rfl hc
        exact absurd ⟨rfl, rfl, hc⟩ h
      · exact fun _ => neverBack_of_lookup_eq hlookup
  | _ =>
    have hreads : e.after.reads = e.before.reads := by
      rw [hafter]
      exact reads_perform (by rw [hact]; rfl)
    unfold Onward
    rw [hact]
    exact ⟨fun _ => trivial, fun _ => neverBack_of_lookup_eq (by rw [hreads])⟩

/-- In a run the position never goes back if and only if every position that is written lies onward. -/
theorem neverBack_iff (db : Tables) (order : List Uuid → List Uuid) (s : Store) (userId channelId : Uuid)
    (inputs : List Input) (operations : Operations)
    (hrun : Run.exec (step db order) (Pool.start s) inputs = some operations) :
    Run.AllSpans (step db order) (fun p q => NeverBack userId channelId p.shared q.shared) (Pool.start s) inputs ↔
      Run.Each (Onward db userId channelId) (trace db order s inputs) := by
  rw [Pool.allSpans_iff_trace NeverBack.refl (fun _ _ _ h h' => h.trans h') hrun]
  constructor
  · intro h older e newer hsplit
    have hmem : e ∈ trace db order s inputs := by
      rw [hsplit]
      exact List.mem_append_right _ List.mem_cons_self
    exact (neverBack_iff_onward hrun hsplit).1 (h e hmem)
  · intro h e he
    obtain ⟨older, newer, hsplit⟩ := List.append_of_mem he
    exact (neverBack_iff_onward hrun hsplit).2 (h older e newer hsplit)

end Runs

/-- The first post of user `1` is counted after the second. -/
def overtaken : List Input :=
  [.spawn 1 (.createPost (pairPost 1 10)), .spawn 2 (.createPost (pairPost 1 11)), .step 1 (.ok ()), .step 2 (.ok ()),
    .step 1 (.ok ()), .step 2 (.ok ()), .step 2 (.ok ()), .step 1 (.ok ())]

theorem overtaken_back : ∃ operations, Run.exec (step pair id) (Pool.start .empty) overtaken = some operations ∧
    ¬ Run.AllSpans (step pair id) (fun p q => NeverBack 1 5 p.shared q.shared) (Pool.start .empty) overtaken := by
  refine ⟨_, rfl, fun h => ?_⟩
  have hback := h (overtaken.take 7) [.step 1 (.ok ())] [] rfl _ _ rfl rfl
  obtain ⟨b, hb, hle⟩ := hback.position 11 rfl
  cases hb
  exact absurd hle (by decide)

/-- User `1` sends two posts, one after the other, and reads the channel. -/
def inTurn : List Input :=
  .spawn 1 (.createPost (pairPost 1 10)) :: List.replicate 17 (.step 1 (.ok ())) ++
    .spawn 2 (.createPost (pairPost 1 11)) :: List.replicate 17 (.step 2 (.ok ())) ++
      .spawn 3 (.markChannelAsRead 1 5 none) :: List.replicate 13 (.step 3 (.ok ()))

theorem inTurn_neverBack : ∃ operations, Run.exec (step pair id) (Pool.start .empty) inTurn = some operations ∧
    Run.Each (Onward pair 1 5) (trace pair id .empty inTurn) ∧
      (Run.AllSpans (step pair id) (fun p q => NeverBack 1 5 p.shared q.shared) (Pool.start .empty) inTurn ↔
        Run.Each (Onward pair 1 5) (trace pair id .empty inTurn)) :=
  ⟨_, rfl, by decide +kernel, neverBack_iff pair id .empty 1 5 inTurn _ rfl⟩

end Rustchat.Unreads
