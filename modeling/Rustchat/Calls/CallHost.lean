import Rustchat.Calls.NodeRuns

/-!
# The host of a call

Whoever leaves, the host is among the participants that remain: `reconcile_after_participant_left` hands the call over.
It has nobody to hand it to when the last participant leaves, and the call then waits for its timeout with its old
host. The host is a participant of every call with participants as long as nobody but the host joins an empty call
(`CallHost.present_of_welcomed`, `CallHost.stranger_joins`).
-/

namespace Rustchat.Calls

/-- If there are participants, the host is one of them. -/
def HostPresent (call : CallState) : Prop :=
  (∃ u p, call.participants.lookup u = some p) → ∃ p, call.participants.lookup call.hostId = some p

namespace CallHost

/-- Only the host joins a call without participants. -/
def Welcomed : ActCondition
  | .mutateCall callId (.addParticipant p), s =>
    ∀ call, s.manager.lookup callId = some call → call.participants.len = 0 → p.userId = call.hostId
  | _, _ => True

variable {call c : CallState} {u : Uuid} {s : Node} {callId : Uuid}

theorem hostPresent_of_not_stale (h : hostIsStale call = false) : HostPresent call := by
  rintro ⟨u, p, hp⟩
  have hlen : call.participants.len ≠ 0 := by
    intro hzero
    rw [Participants.len_eq_zero.1 hzero u] at hp
    cases hp
  have hactive : (call.participants.lookup call.hostId).isSome = true := by
    simpa [hostIsStale, isHostSessionActive, hlen] using h
  exact Option.isSome_iff_exists.1 hactive

theorem present_of_same (h : HostPresent call) (hhost : c.hostId = call.hostId)
    (hc : ∀ u, (c.participants.lookup u).isSome = (call.participants.lookup u).isSome) : HostPresent c := by
  rintro ⟨u, p, hp⟩
  have hu : (call.participants.lookup u).isSome = true := by
    rw [← hc, hp]
    rfl
  obtain ⟨q, hq⟩ := h ⟨u, Option.isSome_iff_exists.1 hu⟩
  have hhostActive : (c.participants.lookup c.hostId).isSome = true := by
    rw [hc, hhost, hq]
    rfl
  exact Option.isSome_iff_exists.1 hhostActive

theorem present_left : HostPresent (call.left u) := by
  unfold CallState.left
  dsimp only
  split
  · split
    · next hnone =>
      rintro ⟨v, p, hp⟩
      have hzero := Participants.len_eq_zero.1 (selectNextHost_eq_none.1 hnone) v
      rw [hzero] at hp
      cases hp
    · next hostId hsome =>
      obtain ⟨p, hp, -⟩ := selectNextHost_eq_some.1 hsome
      exact fun _ => ⟨p, hp⟩
  · next hkeep =>
    refine hostPresent_of_not_stale ?_
    rw [shouldSelectNewHost, Bool.or_eq_true, not_or, Bool.not_eq_true, Bool.not_eq_true] at hkeep
    exact hkeep.2

theorem present_step (hl : s.manager.lookup callId = some call) (h : HostPresent call)
    (hstep : CallStep Welcomed s callId call c) : HostPresent c := by
  cases hstep with
  | cosmetic mutation hcosmetic =>
    cases mutation with
    | setMuted userId muted => exact present_of_same h rfl fun _ => by simp only [Mutation.apply,
      Participants.isSome_lookup_update]
    | setHandRaised userId raised => exact present_of_same h rfl fun _ => by simp only [Mutation.apply,
      Participants.isSome_lookup_update]
    | setThreadId threadId => exact present_of_same h rfl fun _ => rfl
    | dismissUserNotification userId => exact present_of_same h rfl fun _ => rfl
    | _ => exact hcosmetic.elim
  | join p hsharing hwelcomed =>
    intro _
    show ∃ q, (call.participants.insert p).lookup call.hostId = some q
    rw [Participants.lookup_insert]
    split
    · exact ⟨p, rfl⟩
    · next hne =>
      have hlen : call.participants.len ≠ 0 := fun hzero => hne (hwelcomed call hl hzero).symm
      have hsome : ¬ ∀ u, call.participants.lookup u = none :=
        fun hnone => hlen (Participants.len_eq_zero.2 hnone)
      obtain ⟨u, hu⟩ := not_forall.1 hsome
      exact h ⟨u, Option.ne_none_iff_exists'.1 hu⟩
  | left userId _ => exact present_left
  | share userId p hp _ => exact present_of_same h rfl fun _ => by simp only [Mutation.apply,
    Participants.isSome_lookup_update]
  | unshare userId =>
    split
    · exact present_of_same h rfl fun _ => by simp only [Mutation.apply, Participants.isSome_lookup_update]
    · exact present_of_same h rfl fun _ => by simp only [Mutation.apply, Participants.isSome_lookup_update]
  | host userId p hp => exact fun _ => ⟨p, hp⟩

/-- In every run whose requests meet the condition the host is a participant of every call with participants. -/
theorem present_of_welcomed (inputs : List Node.Input) (h : Run.AllSteps Node.step (Node.Meets Welcomed) .init inputs) :
    Run.AllStates Node.step (fun s => ∀ id call, s.manager.lookup id = some call → HostPresent call) .init inputs := by
  refine Node.allStates_calls (fun call hempty _ => ?_)
    (fun _ _ _ _ hl hpresent hstep => present_step hl hpresent hstep) h
  rintro ⟨u, p, hp⟩
  rw [hempty, Participants.lookup_empty] at hp
  cases hp

def handedOver : List Node.Input :=
  [.request (.plain 1 10 11) (.startCall 5), .request (.plain 2 20 21) (.joinCall 5),
    .request (.plain 1 30 31) (.leaveCall 5)]

theorem call_handed_over : Run.AllStates Node.step
    (fun s => ∀ id call, s.manager.lookup id = some call → HostPresent call) .init handedOver := by
  refine present_of_welcomed handedOver (Run.allSteps_cons.2 ⟨?_, fun s hs => ?_⟩)
  · refine ⟨trivial, trivial, fun call hl _ => ?_, trivial, trivial, trivial, trivial⟩
    cases hl
    rfl
  · cases hs
    refine Run.allSteps_cons.2 ⟨?_, fun s hs => ?_⟩
    · refine ⟨trivial, trivial, fun call hl hzero => ?_, trivial, trivial, trivial⟩
      cases hl
      exact absurd hzero (by decide)
    · cases hs
      refine Run.allSteps_cons.2 ⟨?_, fun _ _ => Run.allSteps_nil⟩
      exact ⟨trivial, trivial, trivial, trivial, trivial, trivial, trivial, trivial, trivial, trivial⟩

/-- User 1 starts a call and leaves it, and user 2 joins before the timeout. -/
def emptyThenJoined : List Node.Input :=
  [.request (.plain 1 10 11) (.startCall 5), .request (.plain 1 20 21) (.leaveCall 5),
    .request (.plain 2 30 31) (.joinCall 5)]

theorem stranger_joins : ¬ Run.AllStates Node.step
    (fun s => ∀ id call, s.manager.lookup id = some call → HostPresent call) .init emptyThenJoined := by
  intro h
  obtain ⟨s, call, hexec, hl, hhost, hjoined⟩ : ∃ s call, Run.exec Node.step .init emptyThenJoined = some s ∧
      s.manager.lookup 10 = some call ∧ call.participants.lookup call.hostId = none ∧
        (call.participants.lookup 2).isSome = true :=
    ⟨_, _, rfl, rfl, rfl, rfl⟩
  obtain ⟨p, hp⟩ := h.last hexec 10 call hl ⟨2, Option.isSome_iff_exists.1 hjoined⟩
  rw [hhost] at hp
  cases hp

end CallHost

end Rustchat.Calls
