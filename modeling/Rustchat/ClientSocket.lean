import Mathlib.Data.List.Basic
import Rustchat.Lib.Run

/-!
# The client's socket (`composables/useWebSocket.ts`)

`connect` and `disconnect` with the handlers they leave on a socket. The close event of a socket comes
some time after `disconnect` has closed it, and its handler clears `ws` and sets the reconnect timer
whatever `ws` then is. What is shown of the connection, and the messages sent on opening, are left out.
-/

namespace Rustchat

inductive ReadyState
  | connecting
  | open
  | closing
  | closed
deriving DecidableEq

/-- `close()` of a socket. -/
def ReadyState.close : ReadyState → ReadyState
  | .connecting | .open => .closing
  | state => state

/-- The composable's variables, with all sockets it has created, `token` for `authStore.token` and, as a record of
the past, whether `disconnect` was called after the last `connect`. -/
structure ClientSocket where
  sockets : List ReadyState
  ws : Option ℕ
  connected : Bool
  reconnectAttempts : ℕ
  reconnectTimer : Bool
  token : Bool
  disconnected : Bool

/-- `created` says whether `new WebSocket` succeeds, `authExpiry` whether the event is one of `isAuthExpiryCloseEvent`. -/
inductive SocketInput
  | connect (created : Bool)
  | disconnect
  | timer (created : Bool)
  | open (i : ℕ)
  | message (i : ℕ)
  | error (i : ℕ)
  | close (i : ℕ) (authExpiry : Bool)
  | setToken (token : Bool)
deriving DecidableEq

namespace ClientSocket

def init (token : Bool) : ClientSocket := ⟨[], none, false, 0, false, token, false⟩

def maxReconnectAttempts : ℕ := 10

def readyState (s : ClientSocket) : Option ReadyState := s.ws.bind fun i => s.sockets[i]?

/-- `connect` gets as far as `new WebSocket`. -/
def opens (s : ClientSocket) : Bool := s.token && decide (s.readyState ≠ some .open)

def connect (s : ClientSocket) (created : Bool) : ClientSocket :=
  if s.opens && created then { s with sockets := s.sockets ++ [.connecting], ws := some s.sockets.length } else s

def disconnect (s : ClientSocket) : ClientSocket :=
  { s with
    sockets := match s.ws with
      | some i => s.sockets.modify i ReadyState.close
      | none => s.sockets
    ws := none
    connected := false
    reconnectAttempts := 0
    reconnectTimer := false }

def onopen (s : ClientSocket) : ClientSocket :=
  { s with connected := true, reconnectAttempts := 0, reconnectTimer := false }

-- `logout` empties the token
def onclose (s : ClientSocket) (authExpiry : Bool) : ClientSocket :=
  let s := { s with connected := false, ws := none }
  if authExpiry then { s with reconnectTimer := false, reconnectAttempts := 0, token := false }
  else if !s.token then { s with reconnectTimer := false, reconnectAttempts := 0 }
  else if s.reconnectAttempts < maxReconnectAttempts then
    { s with reconnectAttempts := s.reconnectAttempts + 1, reconnectTimer := true }
  else s

def onTimer (s : ClientSocket) (created : Bool) : ClientSocket := if s.connected then s else s.connect created

def step (s : ClientSocket) : SocketInput → Option ClientSocket
  | .connect created => some { s.connect created with disconnected := false }
  | .disconnect => some { s.disconnect with disconnected := true }
  | .timer created => if s.reconnectTimer then some { s.onTimer created with reconnectTimer := false } else none
  | .open i => if s.sockets[i]? = some .connecting then some (onopen { s with sockets := s.sockets.set i .open }) else none
  | .message i => if s.sockets[i]? = some .open then some s else none
  | .error i => if s.sockets[i]? = none ∨ s.sockets[i]? = some .closed then none else some s
  | .close i authExpiry =>
    if s.sockets[i]? = none ∨ s.sockets[i]? = some .closed then none
    else some (onclose { s with sockets := s.sockets.set i .closed } authExpiry)
  | .setToken token => some { s with token := token }

def Live (s : ClientSocket) (i : ℕ) : Prop := s.sockets[i]? = some .connecting ∨ s.sockets[i]? = some .open

def AtMostOne (s : ClientSocket) : Prop := ∀ i j, s.Live i → s.Live j → i = j

def OpenIsWs (s : ClientSocket) : Prop := ∀ i, s.sockets[i]? = some .open → s.ws = some i

/-- After a `disconnect` no socket is created before the next `connect`. -/
def NoneAfterDisconnect (s : ClientSocket) (inputs : List SocketInput) : Prop :=
  ∀ pre mid suf, inputs = pre ++ .disconnect :: (mid ++ suf) → (∀ created, SocketInput.connect created ∉ mid) →
    ∀ t u, Run.exec step s (pre ++ [.disconnect]) = some t → Run.exec step t mid = some u →
      u.sockets.length = t.sockets.length

/-- The condition on a step: a socket is created when no other is connecting or open, and by the timer only
if there was no `disconnect` since the last `connect`; a socket closes when no other is connecting or open. -/
def Orderly (s : ClientSocket) : SocketInput → Prop
  | .connect created => s.opens ∧ created → ∀ i, ¬ s.Live i
  | .timer created => s.connected = false ∧ s.opens ∧ created → s.disconnected = false ∧ ∀ i, ¬ s.Live i
  | .close i _ => ∀ j, s.Live j → j = i
  | _ => True

/-- Whatever is connecting or open is `ws`. -/
def Kept (s : ClientSocket) : Prop := ∀ i, s.Live i → s.ws = some i

variable {s s' t : ClientSocket} {i j : ℕ} {created : Bool} {input : SocketInput}

theorem Kept.atMostOne (h : s.Kept) : s.AtMostOne :=
  fun i j hi hj => Option.some.inj ((h i hi).symm.trans (h j hj))

theorem Kept.openIsWs (h : s.Kept) : s.OpenIsWs := fun i hi => h i (.inr hi)

theorem kept_init (token : Bool) : (init token).Kept := by
  intro i hi
  simp [Live, init] at hi

theorem connect_of_opens (h : s.opens = true ∧ created = true) :
    s.connect created = { s with sockets := s.sockets ++ [.connecting], ws := some s.sockets.length } := by
  rw [connect, h.1, h.2]
  rfl

theorem connect_of_not_opens (h : ¬ (s.opens = true ∧ created = true)) : s.connect created = s := by
  rw [connect, if_neg (by simpa using h)]

theorem Kept.connect (h : s.Kept) (hlive : s.opens = true ∧ created = true → ∀ i, ¬ s.Live i) :
    (s.connect created).Kept := by
  by_cases hopens : s.opens = true ∧ created = true
  · rw [connect_of_opens hopens]
    have hnone := hlive hopens
    intro i hi
    by_cases hlt : i < s.sockets.length
    · have hold : s.Live i := by simpa [Live, List.getElem?_append_left hlt] using hi
      exact absurd hold (hnone i)
    · by_cases heq : i = s.sockets.length
      · rw [heq]
      · have hout : (s.sockets ++ [ReadyState.connecting])[i]? = none := by
          rw [List.getElem?_eq_none_iff, List.length_append, List.length_singleton]
          omega
        rcases hi with hi | hi <;> rw [hout] at hi <;> cases hi
  · rw [connect_of_not_opens hopens]
    exact h

theorem not_live_disconnect (h : s.Kept) (j : ℕ) : ¬ s.disconnect.Live j := by
  intro hj
  cases hws : s.ws with
  | none =>
    simp only [Live, disconnect, hws] at hj
    rw [h j hj] at hws
    cases hws
  | some i =>
    simp only [Live, disconnect, hws, List.getElem?_modify] at hj
    by_cases hij : i = j
    · cases hstate : s.sockets[j]? with
      | none => simp [hstate] at hj
      | some state => cases state <;> simp [hstate, hij, ReadyState.close] at hj
    · have hlive : s.Live j := by simpa [Live, hij] using hj
      rw [h j hlive] at hws
      exact hij (Option.some.inj hws).symm

theorem not_live_set_closed (hone : ∀ j, s.Live j → j = i) (j : ℕ) :
    ¬ Live { s with sockets := s.sockets.set i .closed } j := by
  intro hj
  by_cases hij : i = j
  · subst hij
    by_cases hlt : i < s.sockets.length <;> simp [Live, hlt] at hj
  · have hlive : s.Live j := by simpa [Live, hij] using hj
    exact hij (hone j hlive).symm

theorem live_onclose {authExpiry : Bool} : (s.onclose authExpiry).Live i ↔ s.Live i := by
  simp only [onclose]
  split
  · rfl
  · split
    · rfl
    · split <;> rfl

theorem Kept.step (h : s.Kept) (ho : s.Orderly input) (hs : step s input = some s') : s'.Kept := by
  cases input with
  | connect created =>
    cases hs
    exact h.connect ho
  | disconnect =>
    cases hs
    exact fun j hj => absurd hj (not_live_disconnect h j)
  | timer created =>
    simp only [ClientSocket.step] at hs
    split at hs
    · cases hs
      have hk : (s.onTimer created).Kept := by
        rw [onTimer]
        split
        · exact h
        · rename_i hconnected
          exact h.connect fun hopens => (ho ⟨by simpa using hconnected, hopens⟩).2
      exact hk
    · cases hs
  | «open» i =>
    simp only [ClientSocket.step] at hs
    split at hs
    · rename_i hconnecting
      cases hs
      intro j hj
      by_cases hij : i = j
      · exact hij ▸ h i (.inl hconnecting)
      · exact h j (by simpa [Live, onopen, hij] using hj)
    · cases hs
  | message i =>
    simp only [ClientSocket.step] at hs
    split at hs
    · cases hs
      exact h
    · cases hs
  | error i =>
    simp only [ClientSocket.step] at hs
    split at hs
    · cases hs
    · cases hs
      exact h
  | close i authExpiry =>
    simp only [ClientSocket.step] at hs
    split at hs
    · cases hs
    · cases hs
      exact fun j hj => absurd (live_onclose.1 hj) (not_live_set_closed ho j)
  | setToken token =>
    cases hs
    exact h

theorem onclose_frame {authExpiry : Bool} : (s.onclose authExpiry).sockets = s.sockets ∧
    (s.onclose authExpiry).ws = none ∧ (s.onclose authExpiry).disconnected = s.disconnected := by
  simp only [onclose]
  split
  · exact ⟨rfl, rfl, rfl⟩
  · split
    · exact ⟨rfl, rfl, rfl⟩
    · split <;> exact ⟨rfl, rfl, rfl⟩

theorem length_step (hd : s.disconnected = true) (hc : ∀ created, input ≠ .connect created) (ho : s.Orderly input)
    (hs : step s input = some s') : s'.sockets.length = s.sockets.length ∧ s'.disconnected = true := by
  cases input with
  | connect created => exact absurd rfl (hc created)
  | disconnect =>
    cases hs
    refine ⟨?_, rfl⟩
    simp only [disconnect]
    split
    · exact List.length_modify ..
    · rfl
  | timer created =>
    simp only [step] at hs
    split at hs
    · cases hs
      have hsame : s.onTimer created = s := by
        rw [onTimer]
        split
        · rfl
        · rename_i hconnected
          refine connect_of_not_opens fun hopens => ?_
          have hd' := (ho ⟨by simpa using hconnected, hopens⟩).1
          rw [hd] at hd'
          cases hd'
      rw [hsame]
      exact ⟨rfl, hd⟩
    · cases hs
  | «open» i =>
    simp only [step] at hs
    split at hs
    · cases hs
      exact ⟨List.length_set .., hd⟩
    · cases hs
  | message i =>
    simp only [step] at hs
    split at hs
    · cases hs
      exact ⟨rfl, hd⟩
    · cases hs
  | error i =>
    simp only [step] at hs
    split at hs
    · cases hs
    · cases hs
      exact ⟨rfl, hd⟩
  | close i authExpiry =>
    simp only [step] at hs
    split at hs
    · cases hs
    · cases hs
      rw [onclose_frame.1, onclose_frame.2.2]
      exact ⟨List.length_set .., hd⟩
  | setToken token =>
    cases hs
    exact ⟨rfl, hd⟩

theorem length_exec {mid : List SocketInput} (hd : s.disconnected = true) (hc : ∀ created, SocketInput.connect created ∉ mid)
    (ho : Run.AllSteps step Orderly s mid) (ht : Run.exec step s mid = some t) :
    t.sockets.length = s.sockets.length := by
  induction mid generalizing s with
  | nil =>
    cases ht
    rfl
  | cons input mid ih =>
    obtain ⟨s', hs, ht⟩ := Run.exec_cons_eq_some.1 ht
    obtain ⟨hin, ho⟩ := Run.allSteps_cons.1 ho
    have hne : ∀ created, input ≠ .connect created := fun created heq => hc created (heq ▸ List.mem_cons_self)
    obtain ⟨hlen, hd'⟩ := length_step hd hne hin hs
    exact (ih hd' (fun created hmem => hc created (List.mem_cons_of_mem _ hmem)) (ho s' hs) ht).trans hlen

theorem noneAfterDisconnect {inputs : List SocketInput} (ho : Run.AllSteps step Orderly s inputs) :
    s.NoneAfterDisconnect inputs := by
  rintro pre mid suf rfl hc t u ht hu
  have hd : t.disconnected = true := by
    rw [Run.exec_append] at ht
    obtain ⟨t', -, hd⟩ := Option.bind_eq_some_iff.1 ht
    rw [Run.exec_singleton] at hd
    cases hd
    rfl
  rw [List.append_cons, ← List.append_assoc] at ho
  have hmid : Run.AllSteps step Orderly t mid := by
    intro p a q hp v hv
    exact (Run.AllSteps.rest (by rw [List.append_assoc] at ho; exact ho) ht) p a (q ++ suf) (by rw [hp]; simp) v hv
  exact length_exec hd hc hmid hu

theorem not_atMostOne_connect (hopens : s.opens = true ∧ created = true) (hi : s.Live i) :
    ¬ (s.connect created).AtMostOne := by
  rw [connect_of_opens hopens]
  intro hone
  have hlt : i < s.sockets.length := by
    by_contra hge
    rcases hi with hi | hi <;> rw [List.getElem?_eq_none (by omega)] at hi <;> cases hi
  have hold : Live { s with sockets := s.sockets ++ [.connecting], ws := some s.sockets.length } i := by
    simpa [Live, List.getElem?_append_left hlt] using hi
  have heq := hone i s.sockets.length hold (.inl (by simp))
  omega

theorem exists_stray (hi : s.Live i) (hws : s.ws = none) :
    ∃ inputs t, Run.exec step s inputs = some t ∧ ¬ t.OpenIsWs := by
  rcases hi with hi | hi
  · have hs : step s (.open i) = some (onopen { s with sockets := s.sockets.set i .open }) := if_pos hi
    refine ⟨[.open i], _, Run.exec_singleton.trans hs, fun h => ?_⟩
    have hlt : i < s.sockets.length := (List.getElem?_eq_some_iff.1 hi).1
    have hopen : s.ws = some i := h i (by simp [onopen, hlt])
    rw [hws] at hopen
    cases hopen
  · refine ⟨[], s, rfl, fun h => ?_⟩
    rw [h i hi] at hws
    cases hws

/-- A step that is not in order breaks one of the three laws, at once or when the socket that is left opens. -/
theorem breaks (hs : step s input = some s') (ho : ¬ s.Orderly input) :
    (s.disconnected = true ∧ (∀ created, input ≠ .connect created) ∧ s'.sockets.length ≠ s.sockets.length) ∨
      ∃ inputs t, Run.exec step s' inputs = some t ∧ ¬ (t.AtMostOne ∧ t.OpenIsWs) := by
  cases input with
  | connect created =>
    right
    cases hs
    simp only [Orderly, not_forall, not_not] at ho
    obtain ⟨hopens, i, hi⟩ := ho
    exact ⟨[], _, rfl, fun h => not_atMostOne_connect hopens hi h.1⟩
  | timer created =>
    simp only [Orderly, not_forall] at ho
    obtain ⟨⟨hconnected, hopens⟩, hbad⟩ := ho
    have htimer : s.onTimer created = s.connect created := by rw [onTimer, if_neg (by simp [hconnected])]
    simp only [step, htimer] at hs
    split at hs
    · cases hs
      by_cases hd : s.disconnected = true
      · refine .inl ⟨hd, nofun, ?_⟩
        rw [connect_of_opens hopens]
        simp
      · right
        obtain ⟨i, hi⟩ : ∃ i, s.Live i := by simpa [hd] using hbad
        exact ⟨[], _, rfl, fun h => not_atMostOne_connect hopens hi h.1⟩
    · cases hs
  | close i authExpiry =>
    right
    simp only [Orderly, not_forall] at ho
    obtain ⟨j, hj, hne⟩ := ho
    simp only [step] at hs
    split at hs
    · cases hs
    · cases hs
      have hlive : Live { s with sockets := s.sockets.set i .closed } j := by
        simpa [Live, List.getElem?_set_ne (Ne.symm hne)] using hj
      obtain ⟨inputs, t, ht, hbad⟩ := exists_stray (live_onclose.2 hlive) onclose_frame.2.1
      exact ⟨inputs, t, ht, fun h => hbad h.2⟩
  | disconnect | message i | error i | setToken token => exact absurd trivial ho
  | «open» i => exact absurd trivial ho

/-- In a run whose steps are all in order, no socket is created between a `disconnect` and the next `connect`, at
most one socket is connecting or open and `ws` is the open one. After any other step one of the three fails or
can come to fail. -/
theorem one_socket (token : Bool) (inputs : List SocketInput) :
    (Run.AllSteps step Orderly (init token) inputs →
      Run.AllStates step (fun s => s.AtMostOne ∧ s.OpenIsWs) (init token) inputs ∧
        (init token).NoneAfterDisconnect inputs) ∧
    ∀ s input s', step s input = some s' → ¬ s.Orderly input →
      (s.disconnected = true ∧ (∀ created, input ≠ .connect created) ∧ s'.sockets.length ≠ s.sockets.length) ∨
        ∃ inputs' t, Run.exec step s' inputs' = some t ∧ ¬ (t.AtMostOne ∧ t.OpenIsWs) := by
  refine ⟨fun ho => ⟨?_, noneAfterDisconnect ho⟩, fun s input s' hs ho => breaks hs ho⟩
  have hinv : ∀ s input s', Kept s → s.Orderly input → s.step input = some s' → Kept s' :=
    fun _ _ _ h ho hs => h.step ho hs
  exact (Run.allStates_of_allSteps hinv (kept_init token) ho).mono fun s h => ⟨h.atMostOne, h.openIsWs⟩

/-- The close event of a socket that `disconnect` has closed sets the timer, which creates another. -/
theorem created_after_disconnect :
    ¬ (init true).NoneAfterDisconnect [.connect true, .open 0, .disconnect, .close 0 false, .timer true] := by
  intro h
  have hlen := h [.connect true, .open 0] [.close 0 false, .timer true] [] rfl (by simp) _ _ rfl rfl
  exact absurd hlen (by decide)

end ClientSocket

end Rustchat
