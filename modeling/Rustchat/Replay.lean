import Rustchat.ConnStore

/-!
# Replay after a resumption

The buffer of a stream holds the last `messageBufferSize` of the messages queued on it
(`ConnectionState.Holds`, kept by every operation of the store). `resume_or_create` resumes every
stored stream of its owner and never looks whether the buffer still reaches back to the sequence
number the client reports, so the answer is complete exactly when the client missed no more messages
than the buffer keeps (`StoreState.resume_replays_iff`).
-/

namespace Rustchat

variable {V : Type*}

/-- The number and the payload of a message, without the time it was buffered. -/
def SequencedMessage.entry (m : SequencedMessage V) : Int × V := (m.seq, m.message)

/-- The stream belongs to `owner` and its counter and buffer are those of the queued `log`. -/
structure ConnectionState.Holds (owner : Uuid) (log : List V) (c : ConnectionState V) : Prop where
  owner_eq : c.userId = owner
  sequence : c.sequence = log.length + 1
  buffer : c.messageBuffer.map SequencedMessage.entry = (Window.number log).rtake messageBufferSize

namespace ConnectionState.Holds
variable {owner : Uuid} {log : List V} {c c' : ConnectionState V}

theorem new (connId : String) (now : Instant) :
    (ConnectionState.new connId owner 1 now : ConnectionState V).Holds owner [] :=
  ⟨rfl, rfl, by simp [ConnectionState.new, Window.number, List.rtake]⟩

theorem congr (h : c.Holds owner log) (hu : c'.userId = c.userId) (hs : c'.sequence = c.sequence)
    (hb : c'.messageBuffer = c.messageBuffer) : c'.Holds owner log :=
  ⟨hu.trans h.owner_eq, hs.trans h.sequence, by rw [hb]; exact h.buffer⟩

theorem queue (h : c.Holds owner log) (event : V) (now : Instant) :
    ((c.nextSequence.2).bufferMessage c.sequence event now).Holds owner (log ++ [event]) := by
  refine ⟨h.owner_eq, ?_, ?_⟩
  · show c.sequence + 1 = _
    rw [h.sequence, List.length_append, List.length_singleton]; push_cast; ring
  · show (Window.push messageBufferSize c.messageBuffer ⟨c.sequence, event, now⟩).map _ = _
    rw [Window.map_push, h.buffer, Window.number_concat, ← Window.push_rtake (by decide)]
    show _ = Window.push _ _ ((log.length : Int) + 1, event)
    rw [← h.sequence]; rfl

theorem missed (h : c.Holds owner log) (r : Nat) :
    (c.getMissedMessages r).map SequencedMessage.entry =
      (Window.number log).drop (max (log.length - messageBufferSize) r) := by
  rw [← Window.filter_rtake_number, ← h.buffer, List.filter_map]; rfl

end ConnectionState.Holds

/-- An answer of `resume_or_create` that resumes the stream replays the messages `requestedSeq + 1`,
…, `currentSequence - 1` of `log`, in this order, and nothing else. -/
def ReplaysExactly (log : List V) (requestedSeq : Int)
    (answer : ConnectionState V × Bool × List (SequencedMessage V)) : Prop :=
  answer.2.1 = true →
    answer.2.2.map SequencedMessage.seq =
        (List.range (answer.1.currentSequence - 1 - requestedSeq).toNat).map
          (fun i : Nat => requestedSeq + 1 + i) ∧
      ∀ m ∈ answer.2.2, m.entry ∈ Window.number log

instance [DecidableEq V] (log : List V) (requestedSeq : Int)
    (answer : ConnectionState V × Bool × List (SequencedMessage V)) :
    Decidable (ReplaysExactly log requestedSeq answer) :=
  inferInstanceAs (Decidable (_ → _ ∧ _))

namespace StoreState

/-- The messages that the operations queue on `connId`, in order. -/
def queuedTo (connId : String) : List (StoreOp V) → List V
  | [] => []
  | .queueMessage id event :: ops =>
    if id = connId then event :: queuedTo connId ops else queuedTo connId ops
  | _ :: ops => queuedTo connId ops

/-- `connId` was drawn, and as long as it is stored its state holds `log`. -/
structure Tracks (owner : Uuid) (connId : String) (log : List V) (s : StoreState V) : Prop where
  issued : connId ∈ s.issued
  stream : ∀ c, s.store.connections.lookup connId = some c → c.Holds owner log

variable {owner : Uuid} {connId : String} {log : List V} {s s₀ s₁ s' : StoreState V}
  {op : StoreOp V} {ops : List (StoreOp V)}

theorem Tracks.create {connectionId : Option String} {requestedSeq : Option Int}
    (h : s.step (.resumeOrCreate connectionId owner requestedSeq connId) = some s')
    (hnew : (s.store.resumeOrCreate connectionId owner requestedSeq connId s.now).1.2.1 = false) :
    s'.Tracks owner connId [] := by
  simp only [step] at h
  split at h
  · cases h
  cases h
  refine ⟨List.mem_cons_self, fun c hc => ?_⟩
  rcases s.store.resumeOrCreate_cases connectionId owner requestedSeq connId s.now with
    ⟨id, existing, rfl, hl, hu, he⟩ | he
  · rw [he] at hnew; cases hnew
  · simp only [he, ConnectionStore.lookup_create, ↓reduceIte, Option.some.injEq] at hc
    subst c
    exact .new connId s.now

theorem Tracks.step (h : s.Tracks owner connId log) (hs : s.step op = some s') :
    s'.Tracks owner connId (log ++ queuedTo connId [op]) := by
  refine ⟨issued_of_step hs h.issued, fun c' hc' => ?_⟩
  obtain ⟨c, hc, ⟨event, rfl, rfl⟩ | ⟨hop, hu, hq, hb⟩⟩ := lookup_of_step hs h.issued hc'
  · simpa [queuedTo] using (h.stream c hc).queue event s.now
  · have hnil : queuedTo connId [op] = [] := by
      cases op with
      | queueMessage id event =>
        have hne : id ≠ connId := fun he => hop event (by rw [he])
        simp [queuedTo, hne]
      | _ => rfl
    rw [hnil, List.append_nil]
    exact (h.stream c hc).congr hu hq hb

theorem queuedTo_cons (op : StoreOp V) (ops : List (StoreOp V)) :
    queuedTo connId (op :: ops) = queuedTo connId [op] ++ queuedTo connId ops := by
  cases op with
  | queueMessage id event => simp only [queuedTo]; split <;> rfl
  | _ => rfl

theorem Tracks.exec (h : s.Tracks owner connId log) (hs : Run.exec StoreState.step s ops = some s') :
    s'.Tracks owner connId (log ++ queuedTo connId ops) := by
  induction ops generalizing s log with
  | nil =>
    cases hs
    rw [queuedTo, List.append_nil]; exact h
  | cons op ops ih =>
    obtain ⟨t, ht, hs⟩ := Run.exec_cons_eq_some.1 hs
    rw [queuedTo_cons, ← List.append_assoc]
    exact ih (h.step ht) hs

theorem Tracks.replaysExactly_iff (h : s.Tracks owner connId log) {c : ConnectionState V}
    (hc : s.store.getConnection connId = some c) {r : Int} (h0 : 0 ≤ r)
    (hr : r ≤ c.currentSequence - 1) (newConnId : String) :
    ReplaysExactly log r (s.store.resumeOrCreate (some connId) owner (some r) newConnId s.now).1 ↔
      c.currentSequence - 1 - r ≤ messageBufferSize := by
  have hh := h.stream c hc
  obtain ⟨k, rfl⟩ := Int.eq_ofNat_of_zero_le h0
  have hseq : c.currentSequence = log.length + 1 := hh.sequence
  have hk : k ≤ log.length := by omega
  have hm : ((c.markActive s.now).getMissedMessages k).map SequencedMessage.entry =
      (Window.number log).drop (max (log.length - messageBufferSize) k) := hh.missed k
  rw [ConnectionStore.resumeOrCreate_of_owner hc hh.owner_eq]
  show (true = true → ((c.markActive s.now).getMissedMessages k).map SequencedMessage.seq =
    (List.range (c.currentSequence - 1 - k).toNat).map (fun i : Nat => (k : Int) + 1 + i) ∧ _) ↔ _
  constructor
  · intro hall
    have hlen := congrArg List.length (hall rfl).1
    have hlen' := congrArg List.length hm
    simp only [List.length_map, List.length_range, List.length_drop, Window.length_number]
      at hlen hlen'
    omega
  · intro hle _
    have hmax : max (log.length - messageBufferSize) k = k := by omega
    rw [hmax] at hm
    refine ⟨?_, fun m hmem => ?_⟩
    · have hfst := congrArg (List.map Prod.fst) hm
      rw [List.map_map, Window.map_fst_drop_number] at hfst
      refine Eq.trans hfst (List.ext_getElem (by simp; omega) fun i _ _ => ?_)
      simp only [List.getElem_map, List.getElem_range', List.getElem_range]
      push_cast; ring
    · have hdrop : m.entry ∈ (Window.number log).drop k := by
        rw [← hm]; exact List.mem_map_of_mem hmem
      exact List.mem_of_mem_drop hdrop

/-- Take the run from the creation of the stream `connId` of `owner` on: resuming it with a reported
number `r` between `0` and the last assigned one replays exactly what came after `r` if and only if
that is no more than the buffer keeps (or the stream is no longer stored). -/
theorem resume_replays_iff {connectionId : Option String} {requestedSeq : Option Int} {r : Int}
    {newConnId : String}
    (hcreate : s₀.step (.resumeOrCreate connectionId owner requestedSeq connId) = some s₁)
    (hnew : (s₀.store.resumeOrCreate connectionId owner requestedSeq connId s₀.now).1.2.1 = false)
    (hrun : Run.exec StoreState.step s₁ ops = some s) (h0 : 0 ≤ r)
    (hr : ∀ c, s.store.getConnection connId = some c → r ≤ c.currentSequence - 1) :
    ReplaysExactly (queuedTo connId ops) r
        (s.store.resumeOrCreate (some connId) owner (some r) newConnId s.now).1 ↔
      ∀ c, s.store.getConnection connId = some c → c.currentSequence - 1 - r ≤ messageBufferSize := by
  have ht : s.Tracks owner connId (queuedTo connId ops) := (Tracks.create hcreate hnew).exec hrun
  cases hc : s.store.getConnection connId with
  | none =>
    rw [ConnectionStore.resumeOrCreate_of_none hc]
    exact ⟨fun _ _ => nofun, fun _ => nofun⟩
  | some c =>
    rw [ht.replaysExactly_iff hc h0 (hr c hc) newConnId]
    exact ⟨fun h c' hc' => by cases hc'; exact h, fun h => h c rfl⟩

/-- Five messages, of which the client saw three. -/
theorem resume_replays_iff_five :
    ∃ s₁ s : StoreState Nat,
      init.step (.resumeOrCreate none 7 none "c") = some s₁ ∧
      Run.exec StoreState.step s₁ ((List.range 5).map (.queueMessage "c") ++ [.disconnectConnection "c"]) =
        some s ∧
      ReplaysExactly (queuedTo "c" ((List.range 5).map (.queueMessage "c") ++ [.disconnectConnection "c"])) 3
        (s.store.resumeOrCreate (some "c") 7 (some 3) "d" s.now).1 := by
  have hcreate : init.step (.resumeOrCreate none 7 none "c") = some (_ : StoreState Nat) := rfl
  refine ⟨_, _, hcreate, rfl, (resume_replays_iff hcreate rfl rfl (by decide) ?_).2 ?_⟩
  · intro c hc
    cases hc; decide
  · intro c hc
    cases hc; decide

/-- After one message more than the buffer keeps, a client that saw none of them is still told that
its stream was resumed, and message `1` is not replayed. -/
theorem resume_with_gap :
    ∃ s₁ s : StoreState Nat,
      init.step (.resumeOrCreate none 7 none "c") = some s₁ ∧
      Run.exec StoreState.step s₁ ((List.range 129).map (.queueMessage "c") ++ [.disconnectConnection "c"]) =
        some s ∧
      (s.store.resumeOrCreate (some "c") 7 (some 0) "d" s.now).1.2.1 = true ∧
      ¬ ReplaysExactly (queuedTo "c" ((List.range 129).map (.queueMessage "c") ++ [.disconnectConnection "c"])) 0
        (s.store.resumeOrCreate (some "c") 7 (some 0) "d" s.now).1 := by
  refine ⟨_, _, rfl, rfl, ?_, ?_⟩
  · decide +kernel
  · decide +kernel

end StoreState

end Rustchat
