import Rustchat.ConnStore

/-!
# Numbering and sending on one stream (`realtime/connection_store.rs`, `api/v4/websocket.rs`)

Every socket attached to a stream has two producers: the hub forward task and the main loop with its
reconnect snapshot. A producer draws a number, buffers the message and hands it to the actor of its
socket, in three separate steps, after the main loop has replayed the missed messages. `OrderState.numbers_stay_ordered`
says when the numbers stay in order in the buffer and towards every actor: no producer draws a number
while another one of the stream has not buffered its own, or another one of the socket has not sent it.
Any other draw may be followed by an overtaking. The hello message carries a number of the client and is
left out.
-/

namespace Rustchat

inductive ProducerTask where
  | hubForward
  | mainLoop
deriving DecidableEq

structure Producer where
  socket : Nat
  task : ProducerTask
deriving DecidableEq

/-- The message a producer works on: its number is drawn, and it may be buffered already. -/
structure HeldMessage (V : Type*) where
  seq : Int
  message : V
  buffered : Bool

/-- Towards the actor of a socket: the numbers still to be replayed, and those handed over. -/
structure Outbox where
  replays : List Int
  handed : List Int

structure OrderState (V : Type*) where
  conn : ConnectionState V
  sockets : Assoc Nat Outbox
  held : Assoc Producer (HeldMessage V)

inductive OrderOp (V : Type*) where
  | attach (socket : Nat) (sinceSeq : Int)
  | replay (socket : Nat)
  -- the send fails and `run_connection` gives up the rest
  | replayFailed (socket : Nat)
  | draw (p : Producer) (message : V)
  | buffer (p : Producer) (now : Instant)
  | send (p : Producer) (delivered : Bool)

namespace OrderState

variable {V : Type*}

def init (connectionId : String) (userId : Uuid) (now : Instant) : OrderState V :=
  ⟨.new connectionId userId 1 now, ∅, ∅⟩

def step (s : OrderState V) : OrderOp V → Option (OrderState V)
  | .attach socket sinceSeq =>
    match s.sockets.lookup socket with
    | some _ => none
    | none =>
      let missed := (s.conn.getMissedMessages sinceSeq).map SequencedMessage.seq
      some { s with sockets := s.sockets.insert socket ⟨missed, []⟩ }
  | .replay socket =>
    match s.sockets.lookup socket with
    | some ⟨n :: rest, handed⟩ =>
      some { s with sockets := s.sockets.insert socket ⟨rest, handed ++ [n]⟩ }
    | _ => none
  | .replayFailed socket =>
    match s.sockets.lookup socket with
    | some ⟨_ :: _, handed⟩ => some { s with sockets := s.sockets.insert socket ⟨[], handed⟩ }
    | _ => none
  | .draw p message =>
    match s.sockets.lookup p.socket, s.held.lookup p with
    | some ⟨[], _⟩, none =>
      some { s with
        conn := s.conn.nextSequence.2
        held := s.held.insert p ⟨s.conn.nextSequence.1, message, false⟩ }
    | _, _ => none
  | .buffer p now =>
    match s.held.lookup p with
    | some ⟨n, message, false⟩ =>
      some { s with
        conn := s.conn.bufferMessage n message now
        held := s.held.insert p ⟨n, message, true⟩ }
    | _ => none
  | .send p delivered =>
    match s.held.lookup p, s.sockets.lookup p.socket with
    | some ⟨n, _, true⟩, some o =>
      some { s with
        sockets := if delivered then s.sockets.insert p.socket { o with handed := o.handed ++ [n] } else s.sockets
        held := s.held.erase p }
    | _, _ => none

/-- The numbers increase in the replay buffer and in what each actor was handed. -/
def Ordered (s : OrderState V) : Prop :=
  (s.conn.messageBuffer.map SequencedMessage.seq).Pairwise (· < ·) ∧
    ∀ socket o, s.sockets.lookup socket = some o → o.handed.Pairwise (· < ·)

/-- A producer draws a number when no other one of the stream has still to buffer its message, and no
other one of the socket has still to send it. -/
def DrawsAlone (s : OrderState V) : OrderOp V → Prop
  | .draw p _ => ∀ q h, s.held.lookup q = some h → h.buffered = true ∧ q.socket ≠ p.socket
  | _ => True

variable {s s' : OrderState V} {op : OrderOp V}

/-- All numbers in use were drawn, and a producer only works once the replay of its socket is over. -/
structure Ok (s : OrderState V) : Prop where
  buffer : ∀ m ∈ s.conn.messageBuffer, m.seq < s.conn.sequence
  held : ∀ p h, s.held.lookup p = some h → h.seq < s.conn.sequence
  outbox : ∀ k o, s.sockets.lookup k = some o → ∀ n, n ∈ o.handed ∨ n ∈ o.replays → n < s.conn.sequence
  replayed : ∀ p h, s.held.lookup p = some h → ∃ handed, s.sockets.lookup p.socket = some ⟨[], handed⟩

theorem Ok.init (connectionId : String) (userId : Uuid) (now : Instant) :
    (init connectionId userId now : OrderState V).Ok :=
  ⟨fun _ h => by (cases h), fun _ _ h => by (cases h), fun _ _ h => by (cases h), fun _ _ h => by cases h⟩

theorem step_cases (h : s.step op = some s') :
    (∃ k r, op = .attach k r ∧ s.sockets.lookup k = none ∧
      s' = { s with sockets := s.sockets.insert k ⟨(s.conn.getMissedMessages r).map SequencedMessage.seq, []⟩ }) ∨
    (∃ k n rest handed, s.sockets.lookup k = some ⟨n :: rest, handed⟩ ∧ (op = .replay k ∨ op = .replayFailed k) ∧
      (s' = { s with sockets := s.sockets.insert k ⟨rest, handed ++ [n]⟩ } ∨
        s' = { s with sockets := s.sockets.insert k ⟨[], handed⟩ })) ∨
    (∃ p message handed, op = .draw p message ∧ s.sockets.lookup p.socket = some ⟨[], handed⟩ ∧
      s.held.lookup p = none ∧
      s' = { s with
        conn := { s.conn with sequence := s.conn.sequence + 1 }
        held := s.held.insert p ⟨s.conn.sequence, message, false⟩ }) ∨
    (∃ p now n message, op = .buffer p now ∧ s.held.lookup p = some ⟨n, message, false⟩ ∧
      s' = { s with conn := s.conn.bufferMessage n message now, held := s.held.insert p ⟨n, message, true⟩ }) ∨
    (∃ p delivered n message o, op = .send p delivered ∧ s.held.lookup p = some ⟨n, message, true⟩ ∧
      s.sockets.lookup p.socket = some o ∧
      s' = { s with
        sockets := if delivered then s.sockets.insert p.socket { o with handed := o.handed ++ [n] } else s.sockets
        held := s.held.erase p }) := by
  cases op with
  | attach k r =>
    simp only [step] at h
    split at h
    · cases h
    · next hk => cases h; exact .inl ⟨k, r, rfl, hk, rfl⟩
  | replay k =>
    simp only [step] at h
    split at h
    · next n rest handed hk => cases h; exact .inr (.inl ⟨k, n, rest, handed, hk, .inl rfl, .inl rfl⟩)
    · cases h
  | replayFailed k =>
    simp only [step] at h
    split at h
    · next n rest handed hk => cases h; exact .inr (.inl ⟨k, n, rest, handed, hk, .inr rfl, .inr rfl⟩)
    · cases h
  | draw p message =>
    simp only [step] at h
    split at h
    · next handed hk hp => cases h; exact .inr (.inr (.inl ⟨p, message, handed, rfl, hk, hp, rfl⟩))
    · cases h
  | buffer p now =>
    simp only [step] at h
    split at h
    · next n message hp => cases h; exact .inr (.inr (.inr (.inl ⟨p, now, n, message, rfl, hp, rfl⟩)))
    · cases h
  | send p delivered =>
    simp only [step] at h
    split at h
    · next n message o hp hk =>
      cases h; exact .inr (.inr (.inr (.inr ⟨p, delivered, n, message, o, rfl, hp, hk, rfl⟩)))
    · cases h

theorem mem_bufferMessage {c : ConnectionState V} {n : Int} {message : V} {now : Instant}
    {m : SequencedMessage V} (h : m ∈ (c.bufferMessage n message now).messageBuffer) :
    m ∈ c.messageBuffer ∨ m.seq = n := by
  rcases Window.mem_push h with h | rfl
  · exact .inl h
  · exact .inr rfl

theorem Ok.step (h : s.Ok) (hs : s.step op = some s') : s'.Ok := by
  rcases step_cases hs with ⟨k, r, -, hk, rfl⟩ | ⟨k, n, rest, handed, hk, -, hs'⟩ |
    ⟨p, message, handed, -, hk, hp, rfl⟩ | ⟨p, now, n, message, -, hp, rfl⟩ |
    ⟨p, delivered, n, message, o, -, hp, hk, rfl⟩
  · refine ⟨h.buffer, h.held, fun j o ho m hm => ?_, fun p g hg => ?_⟩
    · rcases Assoc.lookup_insert_cases ho with ⟨-, rfl⟩ | ⟨-, ho⟩
      · rcases hm with hm | hm
        · cases hm
        · obtain ⟨msg, hmsg, rfl⟩ := List.mem_map.1 hm
          exact h.buffer msg (List.mem_filter.1 hmsg).1
      · exact h.outbox j o ho m hm
    · obtain ⟨handed, hp⟩ := h.replayed p g hg
      have hne : p.socket ≠ k := fun he => by rw [he, hk] at hp; cases hp
      exact ⟨handed, by rw [Assoc.lookup_insert_eq, if_neg hne]; exact hp⟩
  · -- either way the outbox keeps some of its numbers
    obtain ⟨o, hsub, rfl⟩ : ∃ o : Outbox, (∀ m, m ∈ o.handed ∨ m ∈ o.replays → m ∈ handed ∨ m ∈ n :: rest) ∧
        s' = { s with sockets := s.sockets.insert k o } := by
      rcases hs' with rfl | rfl
      · refine ⟨_, fun m hm => ?_, rfl⟩
        simp only [List.mem_append, List.mem_cons] at hm ⊢
        tauto
      · refine ⟨_, fun m hm => ?_, rfl⟩
        rcases hm with hm | hm
        · exact .inl hm
        · cases hm
    refine ⟨h.buffer, h.held, fun j o' ho m hm => ?_, fun p g hg => ?_⟩
    · rcases Assoc.lookup_insert_cases ho with ⟨-, rfl⟩ | ⟨-, ho⟩
      · exact h.outbox k _ hk m (hsub m hm)
      · exact h.outbox j o' ho m hm
    · obtain ⟨handed', hp⟩ := h.replayed p g hg
      have hne : p.socket ≠ k := fun he => by rw [he, hk] at hp; cases hp
      exact ⟨handed', by rw [Assoc.lookup_insert_eq, if_neg hne]; exact hp⟩
  · refine ⟨fun m hm => ?_, fun q g hg => ?_, fun j o ho m hm => ?_, fun q g hg => ?_⟩
    · exact Int.lt_trans (h.buffer m hm) (Int.lt_succ _)
    · rcases Assoc.lookup_insert_cases hg with ⟨-, rfl⟩ | ⟨-, hg⟩
      · exact Int.lt_succ _
      · exact Int.lt_trans (h.held q g hg) (Int.lt_succ _)
    · exact Int.lt_trans (h.outbox j o ho m hm) (Int.lt_succ _)
    · rcases Assoc.lookup_insert_cases hg with ⟨rfl, -⟩ | ⟨-, hg⟩
      · exact ⟨handed, hk⟩
      · exact h.replayed q g hg
  · refine ⟨fun m hm => ?_, fun q g hg => ?_, h.outbox, fun q g hg => ?_⟩
    · rcases mem_bufferMessage hm with hm | hm
      · exact h.buffer m hm
      · rw [hm]; exact h.held p _ hp
    · rcases Assoc.lookup_insert_cases hg with ⟨-, rfl⟩ | ⟨-, hg⟩
      · exact h.held p ⟨n, message, false⟩ hp
      · exact h.held q g hg
    · rcases Assoc.lookup_insert_cases hg with ⟨rfl, -⟩ | ⟨-, hg⟩
      · exact h.replayed _ _ hp
      · exact h.replayed q g hg
  · have hheld : ∀ q g, (s.held.erase p).lookup q = some g → s.held.lookup q = some g :=
      fun q g hg => (Assoc.lookup_erase_cases hg).2
    refine ⟨h.buffer, fun q g hg => h.held q g (hheld q g hg), fun j o' ho m hm => ?_, fun q g hg => ?_⟩
    · simp only at ho
      split at ho
      · rcases Assoc.lookup_insert_cases ho with ⟨-, rfl⟩ | ⟨-, ho⟩
        · rcases hm with hm | hm
          · rcases List.mem_append.1 hm with hm | hm
            · exact h.outbox _ _ hk m (.inl hm)
            · rw [List.mem_singleton.1 hm]; exact h.held p _ hp
          · exact h.outbox _ _ hk m (.inr hm)
        · exact h.outbox j o' ho m hm
      · exact h.outbox j o' ho m hm
    · obtain ⟨handed, hq⟩ := h.replayed q g (hheld q g hg)
      simp only
      split
      · rw [Assoc.lookup_insert_eq]
        split
        · next he =>
          rw [he, hk] at hq
          cases hq
          exact ⟨_, rfl⟩
        · exact ⟨handed, hq⟩
      · exact ⟨handed, hq⟩

/-! ### The discipline is enough -/

/-- At most one producer of the stream has to buffer, at most one of a socket has to send, and their
numbers are past everything before them. -/
structure Serial (s : OrderState V) : Prop where
  buffer : (s.conn.messageBuffer.map SequencedMessage.seq).Pairwise (· < ·)
  outbox : ∀ k o, s.sockets.lookup k = some o → (o.handed ++ o.replays).Pairwise (· < ·)
  pending : ∀ p h, s.held.lookup p = some h → h.buffered = false →
    (∀ m ∈ s.conn.messageBuffer, m.seq < h.seq) ∧
      ∀ q g, s.held.lookup q = some g → g.buffered = false → q = p
  alone : ∀ p q h g, s.held.lookup p = some h → s.held.lookup q = some g → q.socket = p.socket → q = p
  handed : ∀ p h o, s.held.lookup p = some h → s.sockets.lookup p.socket = some o →
    ∀ n ∈ o.handed, n < h.seq

theorem Serial.init (connectionId : String) (userId : Uuid) (now : Instant) :
    (init connectionId userId now : OrderState V).Serial :=
  ⟨List.Pairwise.nil, fun _ _ h => by (cases h), fun _ _ h => by (cases h), fun _ _ _ _ h => by (cases h),
    fun _ _ _ h => by cases h⟩

theorem Serial.ordered (h : s.Serial) : s.Ordered :=
  ⟨h.buffer, fun k o ho => (List.pairwise_append.1 (h.outbox k o ho)).1⟩

theorem pairwise_concat {xs : List Int} {n : Int} (h : xs.Pairwise (· < ·)) (hn : ∀ m ∈ xs, m < n) :
    (xs ++ [n]).Pairwise (· < ·) :=
  List.pairwise_append.2 ⟨h, List.pairwise_singleton _ _, fun m hm k hk => by
    rw [List.mem_singleton.1 hk]; exact hn m hm⟩

theorem Serial.step (h : s.Serial) (hok : s.Ok) (hP : s.DrawsAlone op) (hs : s.step op = some s') :
    s'.Serial := by
  rcases step_cases hs with ⟨k, r, -, hk, rfl⟩ | ⟨k, n, rest, handed, hk, -, hs'⟩ |
    ⟨p, message, handed, rfl, hk, hp, rfl⟩ | ⟨p, now, n, message, -, hp, rfl⟩ |
    ⟨p, delivered, n, message, o, -, hp, hk, rfl⟩
  · refine ⟨h.buffer, fun j o ho => ?_, h.pending, h.alone, fun p g o hg ho m hm => ?_⟩
    · rcases Assoc.lookup_insert_cases ho with ⟨-, rfl⟩ | ⟨-, ho⟩
      · exact h.buffer.sublist (List.Sublist.map _ List.filter_sublist)
      · exact h.outbox j o ho
    · obtain ⟨handed, hp⟩ := hok.replayed p g hg
      have hne : p.socket ≠ k := fun he => by rw [he, hk] at hp; cases hp
      rw [Assoc.lookup_insert_eq, if_neg hne] at ho
      exact h.handed p g o hg ho m hm
  · have hbox := h.outbox k _ hk
    obtain ⟨o, hsub, rfl⟩ : ∃ o : Outbox, (o.handed ++ o.replays).Pairwise (· < ·) ∧
        s' = { s with sockets := s.sockets.insert k o } := by
      rcases hs' with rfl | rfl
      · exact ⟨_, by rw [List.append_assoc]; exact hbox, rfl⟩
      · exact ⟨_, by rw [List.append_nil]; exact (List.pairwise_append.1 hbox).1, rfl⟩
    refine ⟨h.buffer, fun j o' ho => ?_, h.pending, h.alone, fun p g o' hg ho m hm => ?_⟩
    · rcases Assoc.lookup_insert_cases ho with ⟨-, rfl⟩ | ⟨-, ho⟩
      · exact hsub
      · exact h.outbox j o' ho
    · obtain ⟨handed', hp⟩ := hok.replayed p g hg
      have hne : p.socket ≠ k := fun he => by rw [he, hk] at hp; cases hp
      rw [Assoc.lookup_insert_eq, if_neg hne] at ho
      exact h.handed p g o' hg ho m hm
  · have hother : ∀ q g, s.held.lookup q = some g → g.buffered = true ∧ q.socket ≠ p.socket := hP
    refine ⟨h.buffer, h.outbox, fun q g hg hb => ?_, fun q₁ q₂ g₁ g₂ h₁ h₂ he => ?_,
      fun q g o hg ho m hm => ?_⟩
    · rcases Assoc.lookup_insert_cases hg with ⟨rfl, rfl⟩ | ⟨-, hg⟩
      · refine ⟨hok.buffer, fun q' g' hg' hb' => ?_⟩
        rcases Assoc.lookup_insert_cases hg' with ⟨he, -⟩ | ⟨-, hg'⟩
        · exact he
        · rw [(hother q' g' hg').1] at hb'; cases hb'
      · rw [(hother q g hg).1] at hb; cases hb
    · rcases Assoc.lookup_insert_cases h₁ with ⟨e₁, -⟩ | ⟨-, h₁⟩ <;>
        rcases Assoc.lookup_insert_cases h₂ with ⟨e₂, -⟩ | ⟨-, h₂⟩
      · exact e₂.trans e₁.symm
      · exact absurd (e₁ ▸ he) (hother q₂ g₂ h₂).2
      · exact absurd (e₂ ▸ he.symm) (hother q₁ g₁ h₁).2
      · exact h.alone q₁ q₂ g₁ g₂ h₁ h₂ he
    · rcases Assoc.lookup_insert_cases hg with ⟨rfl, rfl⟩ | ⟨-, hg⟩
      · exact hok.outbox _ o ho m (.inl hm)
      · exact h.handed q g o hg ho m hm
  · obtain ⟨hlt, huniq⟩ := h.pending p _ hp rfl
    have hheld : ∀ q g, (s.held.insert p ⟨n, message, true⟩).lookup q = some g →
        ∃ g', s.held.lookup q = some g' ∧ g'.seq = g.seq ∧ (g.buffered = false → g' = g ∧ q ≠ p) := by
      intro q g hg
      rcases Assoc.lookup_insert_cases hg with ⟨rfl, rfl⟩ | ⟨hne, hg⟩
      · exact ⟨_, hp, rfl, fun hb => by cases hb⟩
      · exact ⟨g, hg, rfl, fun _ => ⟨rfl, hne⟩⟩
    refine ⟨?_, h.outbox, fun q g hg hb => ?_, fun q₁ q₂ g₁ g₂ h₁ h₂ he => ?_, fun q g o hg ho m hm => ?_⟩
    · show ((Window.push messageBufferSize s.conn.messageBuffer ⟨n, message, now⟩).map _).Pairwise _
      rw [Window.map_push]
      refine pairwise_concat ?_ ?_
      · split
        · exact h.buffer.sublist (List.tail_sublist _)
        · exact h.buffer
      · intro m hm
        have hm' : m ∈ s.conn.messageBuffer.map SequencedMessage.seq := by
          split at hm
          · exact List.mem_of_mem_tail hm
          · exact hm
        obtain ⟨msg, hmsg, rfl⟩ := List.mem_map.1 hm'
        exact hlt msg hmsg
    · obtain ⟨g', hg', -, himp⟩ := hheld q g hg
      obtain ⟨rfl, hne⟩ := himp hb
      exact absurd (huniq q g' hg' hb) hne
    · obtain ⟨g₁', h₁', -, -⟩ := hheld q₁ g₁ h₁
      obtain ⟨g₂', h₂', -, -⟩ := hheld q₂ g₂ h₂
      exact h.alone q₁ q₂ g₁' g₂' h₁' h₂' he
    · obtain ⟨g', hg', hseq, -⟩ := hheld q g hg
      rw [← hseq]
      exact h.handed q g' o hg' ho m hm
  · have hheld : ∀ q g, (s.held.erase p).lookup q = some g → q ≠ p ∧ s.held.lookup q = some g :=
      fun q g => Assoc.lookup_erase_cases
    obtain ⟨handed, hreplayed⟩ := hok.replayed p _ hp
    rw [hk] at hreplayed
    obtain rfl : o = ⟨[], handed⟩ := Option.some.inj hreplayed
    refine ⟨h.buffer, fun j o' ho => ?_, fun q g hg hb => ?_, fun q₁ q₂ g₁ g₂ h₁ h₂ he => ?_,
      fun q g o' hg ho m hm => ?_⟩
    · simp only at ho
      split at ho
      · rcases Assoc.lookup_insert_cases ho with ⟨-, rfl⟩ | ⟨-, ho⟩
        · rw [List.append_nil]
          exact pairwise_concat (List.pairwise_append.1 (h.outbox _ _ hk)).1 (h.handed p _ _ hp hk)
        · exact h.outbox j o' ho
      · exact h.outbox j o' ho
    · obtain ⟨-, hg'⟩ := hheld q g hg
      obtain ⟨hlt, huniq⟩ := h.pending q g hg' hb
      exact ⟨hlt, fun r f hf hfb => huniq r f (hheld r f hf).2 hfb⟩
    · exact h.alone q₁ q₂ g₁ g₂ (hheld q₁ g₁ h₁).2 (hheld q₂ g₂ h₂).2 he
    · obtain ⟨hne, hg'⟩ := hheld q g hg
      have hsock : q.socket ≠ p.socket := fun he => hne (h.alone p q _ g hp hg' he)
      simp only at ho
      split at ho
      · rw [Assoc.lookup_insert_eq, if_neg hsock] at ho
        exact h.handed q g o' hg' ho m hm
      · exact h.handed q g o' hg' ho m hm

/-! ### Outside of the discipline -/

theorem step_buffer {p : Producer} {n : Int} {message : V} (now : Instant)
    (hp : s.held.lookup p = some ⟨n, message, false⟩) :
    s.step (.buffer p now) = some { s with
      conn := s.conn.bufferMessage n message now
      held := s.held.insert p ⟨n, message, true⟩ } := by
  simp only [step, hp]

theorem step_send {p : Producer} {n : Int} {message : V} {o : Outbox}
    (hp : s.held.lookup p = some ⟨n, message, true⟩) (ho : s.sockets.lookup p.socket = some o) :
    s.step (.send p true) = some { s with
      sockets := s.sockets.insert p.socket { o with handed := o.handed ++ [n] }
      held := s.held.erase p } := by
  simp only [step, hp, ho, ↓reduceIte]

theorem not_pairwise_append_pair (pre : List Int) {m n : Int} (h : m < n) :
    ¬ (pre ++ [n, m]).Pairwise (· < ·) := by
  intro hp
  have hlt := List.rel_of_pairwise_cons (List.pairwise_append.1 hp).2.1 (List.mem_singleton_self m)
  omega

theorem exists_overtaking (hok : s.Ok) {p : Producer} {message : V} (hs : s.step (.draw p message) = some s')
    (hP : ¬ s.DrawsAlone (.draw p message)) : ∃ more, ¬ Run.AllStates step Ordered s' more := by
  simp only [DrawsAlone, not_forall, not_and_or, Bool.not_eq_true, not_not] at hP
  obtain ⟨q, ⟨m, other, buffered⟩, hq, hbad⟩ := hP
  have hmn : m < s.conn.sequence := hok.held q _ hq
  rcases step_cases hs with ⟨_, _, h, -⟩ | ⟨_, _, _, _, -, h | h, -⟩ |
    ⟨p', message', handed, h, hk, hp, rfl⟩ | ⟨_, _, _, _, h, -⟩ | ⟨_, _, _, _, _, h, -⟩
  · cases h
  · cases h
  · cases h
  · cases h
    have hqp : q ≠ p := fun he => by rw [he, hp] at hq; cases hq
    set n := s.conn.sequence
    have hbuf := step_buffer (s := { s with
        conn := { s.conn with sequence := n + 1 }, held := s.held.insert p ⟨n, message, false⟩ }) 0
      Assoc.lookup_insert_self
    have hq₁ : ∀ b, ((s.held.insert p ⟨n, message, false⟩).insert p ⟨n, message, b⟩).lookup q =
        some ⟨m, other, buffered⟩ := by
      intro b
      rw [Assoc.lookup_insert_eq, if_neg hqp, Assoc.lookup_insert_eq, if_neg hqp]; exact hq
    cases buffered with
    | false =>
      -- both buffer, the later number first
      have hbuf' := step_buffer (s := { s with
          conn := ({ s.conn with sequence := n + 1 }).bufferMessage n message 0
          held := (s.held.insert p ⟨n, message, false⟩).insert p ⟨n, message, true⟩ }) 0 (hq₁ true)
      refine ⟨[.buffer p 0, .buffer q 0], fun hall => ?_⟩
      have hord := hall.last (Run.exec_cons_eq_some.2 ⟨_, hbuf, Run.exec_singleton.trans hbuf'⟩)
      obtain ⟨pre, hpre⟩ := Window.push_push (show 1 < messageBufferSize by decide) s.conn.messageBuffer
        ⟨n, message, 0⟩ ⟨m, other, 0⟩
      have hsorted : ((Window.push messageBufferSize (Window.push messageBufferSize s.conn.messageBuffer
          ⟨n, message, 0⟩) ⟨m, other, 0⟩).map SequencedMessage.seq).Pairwise (· < ·) := hord.1
      rw [hpre, List.map_append] at hsorted
      exact not_pairwise_append_pair _ hmn hsorted
    | true =>
      have hsock : q.socket = p.socket := by simpa using hbad
      -- the later number is buffered and sent first
      have hsend := step_send (s := { s with
          conn := ({ s.conn with sequence := n + 1 }).bufferMessage n message 0
          held := (s.held.insert p ⟨n, message, false⟩).insert p ⟨n, message, true⟩ })
        Assoc.lookup_insert_self hk
      have hq₂ : (((s.held.insert p ⟨n, message, false⟩).insert p ⟨n, message, true⟩).erase p).lookup q =
          some ⟨m, other, true⟩ := by
        rw [Assoc.lookup_erase_eq, if_neg hqp]; exact hq₁ true
      have hsend' := step_send (s := {
          conn := ({ s.conn with sequence := n + 1 }).bufferMessage n message 0
          sockets := s.sockets.insert p.socket ⟨[], handed ++ [n]⟩
          held := ((s.held.insert p ⟨n, message, false⟩).insert p ⟨n, message, true⟩).erase p })
        hq₂ (by rw [hsock]; exact Assoc.lookup_insert_self)
      refine ⟨[.buffer p 0, .send p true, .send q true], fun hall => ?_⟩
      have hord := hall.last (Run.exec_cons_eq_some.2 ⟨_, hbuf,
        Run.exec_cons_eq_some.2 ⟨_, hsend, Run.exec_singleton.trans hsend'⟩⟩)
      have hsorted := hord.2 q.socket _ Assoc.lookup_insert_self
      rw [List.append_assoc] at hsorted
      exact not_pairwise_append_pair _ hmn hsorted
  · cases h
  · cases h

/-- In every run in which no draw overlaps with another producer, the replay buffer and what every actor
was handed stay in increasing order. After any other draw that a run can reach, they may get out of
order. -/
theorem numbers_stay_ordered (connectionId : String) (userId : Uuid) (now : Instant) :
    (∀ ops : List (OrderOp V), Run.AllSteps step DrawsAlone (init connectionId userId now) ops →
      Run.AllStates step Ordered (init connectionId userId now) ops) ∧
    (∀ (ops : List (OrderOp V)) op s s', Run.exec step (init connectionId userId now) ops = some s →
      s.step op = some s' → ¬ s.DrawsAlone op → ∃ more, ¬ Run.AllStates step Ordered s' more) := by
  constructor
  · intro ops h
    have hinv : Run.AllStates step (fun s => s.Ok ∧ s.Serial) (init connectionId userId now) ops :=
      Run.allStates_of_allSteps (fun s op s' hi hP hs => ⟨hi.1.step hs, hi.2.step hi.1 hP hs⟩)
        ⟨Ok.init connectionId userId now, Serial.init connectionId userId now⟩ h
    exact hinv.mono fun s hs => hs.2.ordered
  · intro ops op s s' hs hstep hP
    have hok : s.Ok :=
      Run.invariant_last (fun s op s' h hs => h.step hs) (Ok.init connectionId userId now) hs
    cases op with
    | draw p message => exact exists_overtaking hok hstep hP
    | _ => exact absurd trivial hP

/-- The forward task draws `1`, the main loop draws, buffers and sends `2`, and then the forward task
goes on. -/
theorem snapshot_overtakes :
    ∃ s : OrderState Nat,
      Run.exec step (init "c" 7 0) [.attach 0 0, .draw ⟨0, .hubForward⟩ 10, .draw ⟨0, .mainLoop⟩ 20,
        .buffer ⟨0, .mainLoop⟩ 0, .send ⟨0, .mainLoop⟩ true, .buffer ⟨0, .hubForward⟩ 0,
        .send ⟨0, .hubForward⟩ true] = some s ∧
      s.conn.messageBuffer.map SequencedMessage.seq = [2, 1] ∧
      (s.sockets.lookup 0).map Outbox.handed = some [2, 1] ∧ ¬ s.Ordered := by
  refine ⟨_, rfl, rfl, rfl, fun h => ?_⟩
  exact not_pairwise_append_pair [] (by decide) h.1

end OrderState

end Rustchat
